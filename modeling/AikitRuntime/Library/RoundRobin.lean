import Mathlib.Algebra.Order.Floor.Div
import Mathlib.Data.List.Nodup
import Mathlib.Data.List.Rotate
import Mathlib.Data.List.TakeWhile

/-!
# Round robin

Clients wait in queues, and a server takes turns with them: in a round every client that has an item left is
served one. The rounds are cut off at some number of items (`rounds` and `List.take`), and what a client gets is
a front of its queue (`served_rounds`).

A call starts after the client that was served last, which a cursor tells. The clients are kept in an order, and
the list of them may shrink from call to call. `Ahead` says who comes before whom when turns are taken after a
cursor. A call that leaves a client out moves everyone that it serves behind the client, so it has fewer ahead of it
at the next call (`waiting_after`), and is served after as many calls as it takes to serve everyone once
(`exists_served`).
-/

namespace AikitRuntime.Library

/-! ### Rounds -/

section Rounds

variable {α β : Type} (queue : α → List β)

/-- The `k`-th round: every client that has so many items is served its `k`-th. -/
def round (clients : List α) (k : ℕ) : List (α × β) :=
  clients.filterMap fun client => (queue client)[k]?.map (client, ·)

/-- The first `n` rounds, one after another. -/
def rounds (clients : List α) (n : ℕ) : List (α × β) := (List.range n).flatMap (round queue clients)

variable {queue} {clients : List α} {client : α} {item : β} {n limit : ℕ}

theorem rounds_succ : rounds queue clients (n + 1) = rounds queue clients n ++ round queue clients n := by
  unfold rounds
  rw [List.range_succ, List.flatMap_append, List.flatMap_singleton]

theorem mem_round {k : ℕ} :
    (client, item) ∈ round queue clients k ↔ client ∈ clients ∧ (queue client)[k]? = some item := by
  simp only [round, List.mem_filterMap, Option.map_eq_some_iff, Prod.mk.injEq]
  constructor
  · rintro ⟨other, hmem, _, hitem, rfl, rfl⟩
    exact ⟨hmem, hitem⟩
  · rintro ⟨hmem, hitem⟩
    exact ⟨client, hmem, item, hitem, rfl, rfl⟩

/-- The items of a client. -/
def itemsOf [DecidableEq α] (client : α) (served : List (α × β)) : List β :=
  (served.filter fun entry => entry.1 = client).map Prod.snd

section Items

variable [DecidableEq α]

@[simp] theorem itemsOf_append (front back : List (α × β)) :
    itemsOf client (front ++ back) = itemsOf client front ++ itemsOf client back := by
  simp [itemsOf]

/-- In a round a client gets one item at most. -/
theorem itemsOf_round (hnodup : clients.Nodup) (hmem : client ∈ clients) (k : ℕ) :
    itemsOf client (round queue clients k) = (queue client)[k]?.toList := by
  induction clients with
  | nil => cases hmem
  | cons first rest ih =>
    rw [List.nodup_cons] at hnodup
    obtain ⟨hfirst, hrest⟩ := hnodup
    have hsplit : round queue (first :: rest) k =
        ((queue first)[k]?.map (first, ·)).toList ++ round queue rest k := by
      unfold round
      rw [List.filterMap_cons]
      cases (queue first)[k]? <;> rfl
    rw [hsplit, itemsOf_append]
    by_cases hclient : client = first
    · subst hclient
      have hnone : itemsOf client (round queue rest k) = [] := by
        unfold itemsOf
        rw [List.map_eq_nil_iff, List.filter_eq_nil_iff]
        rintro ⟨other, item⟩ hentry
        rw [decide_eq_true_eq]
        rintro rfl
        exact hfirst (mem_round.mp hentry).1
      rw [hnone, List.append_nil]
      cases (queue client)[k]? <;> simp [itemsOf]
    · have hother : itemsOf client ((queue first)[k]?.map (first, ·)).toList = [] := by
        cases (queue first)[k]? <;> simp [itemsOf, Ne.symm hclient]
      rw [hother, List.nil_append, ih hrest ((List.mem_cons.mp hmem).resolve_left hclient)]

/-- In so many rounds a client gets so many items of its queue, or all. -/
theorem itemsOf_rounds (hnodup : clients.Nodup) (hmem : client ∈ clients) :
    itemsOf client (rounds queue clients n) = (queue client).take n := by
  induction n with
  | zero => rfl
  | succ n ih => rw [rounds_succ, itemsOf_append, ih, itemsOf_round hnodup hmem, List.take_add_one]

theorem itemsOf_of_not_mem (hmem : client ∉ clients) : itemsOf client (rounds queue clients n) = [] := by
  unfold itemsOf
  rw [List.map_eq_nil_iff, List.filter_eq_nil_iff]
  rintro ⟨other, item⟩ hentry
  obtain ⟨k, -, hround⟩ := List.mem_flatMap.mp hentry
  rw [decide_eq_true_eq]
  rintro rfl
  exact hmem (mem_round.mp hround).1

/-- What is served of the rounds, up to a limit: a client gets a front of its queue, of no more items than there are
rounds. -/
theorem served_rounds (hnodup : clients.Nodup) :
    itemsOf client ((rounds queue clients n).take limit) <+: (queue client).take n := by
  have hfront : itemsOf client ((rounds queue clients n).take limit) <+: itemsOf client (rounds queue clients n) :=
    ((List.take_prefix limit _).filter _).map _
  by_cases hmem : client ∈ clients
  · rwa [itemsOf_rounds hnodup hmem] at hfront
  · rw [itemsOf_of_not_mem hmem, List.prefix_nil] at hfront
    rw [hfront]
    exact List.nil_prefix

/-- Nothing is served twice. -/
theorem nodup_rounds [DecidableEq β] (hnodup : clients.Nodup) (hqueues : ∀ client, (queue client).Nodup) :
    (rounds queue clients n).Nodup := by
  refine List.nodup_iff_count_le_one.mpr fun ⟨client, item⟩ => ?_
  have hcount : (rounds queue clients n).count (client, item) ≤ (itemsOf client (rounds queue clients n)).count item := by
    unfold itemsOf
    rw [List.count, List.count, List.countP_map, List.countP_filter]
    refine List.countP_mono_left fun entry _ hentry => ?_
    rw [beq_iff_eq] at hentry
    simp [hentry]
  refine Nat.le_trans hcount (List.nodup_iff_count_le_one.mp ?_ item)
  by_cases hmem : client ∈ clients
  · rw [itemsOf_rounds hnodup hmem]
    exact (hqueues client).sublist (List.take_sublist _ _)
  · rw [itemsOf_of_not_mem hmem]
    exact List.nodup_nil

end Items

/-- Clients that all have an item are all served in the first round, in their order. -/
theorem map_fst_round (h : ∀ client ∈ clients, queue client ≠ []) : (round queue clients 0).map Prod.fst = clients := by
  induction clients with
  | nil => rfl
  | cons first rest ih =>
    rw [List.forall_mem_cons] at h
    obtain ⟨item, items, hqueue⟩ := List.exists_cons_of_ne_nil h.1
    have hround : round queue (first :: rest) 0 = (first, item) :: round queue rest 0 := by
      unfold round
      rw [List.filterMap_cons, hqueue]
      rfl
    rw [hround, List.map_cons, ih h.2]

theorem clients_prefix (h : ∀ client ∈ clients, queue client ≠ []) (hn : 0 < n) :
    clients <+: (rounds queue clients n).map Prod.fst := by
  obtain ⟨n, rfl⟩ := Nat.exists_eq_add_of_lt hn
  unfold rounds
  rw [Nat.zero_add, List.range_succ_eq_map, List.flatMap_cons, List.map_append, map_fst_round h]
  exact List.prefix_append _ _

end Rounds

/-! ### Turns after a cursor -/

section Turns

variable {α : Type} [LinearOrder α]

/-- Where the turns start: after the client of the cursor, and after those before it. -/
def turnStart (clients : List α) : Option α → ℕ
  | none => 0
  | some last => (clients.takeWhile (· ≤ last)).length

/-- The order of the turns. -/
def turns (clients : List α) (cursor : Option α) : List α := clients.rotate (turnStart clients cursor)

/-- The first client comes before the second when turns are taken after the cursor. -/
def Ahead : Option α → α → α → Prop
  | none, x, y => x < y
  | some last, x, y => (last < x ∧ (y ≤ last ∨ x < y)) ∨ (x ≤ last ∧ y ≤ last ∧ x < y)

instance (cursor : Option α) (x y : α) : Decidable (Ahead cursor x y) := by
  cases cursor <;> unfold Ahead <;> infer_instance

variable {cursor : Option α} {clients : List α} {client served last : α}

theorem not_ahead_self (cursor : Option α) (client : α) : ¬ Ahead cursor client client := by
  cases cursor with
  | none => exact lt_irrefl client
  | some last =>
    rintro (⟨hlast, hle | hlt⟩ | ⟨-, -, hlt⟩)
    · exact absurd hlast (not_lt_of_ge hle)
    · exact lt_irrefl client hlt
    · exact lt_irrefl client hlt

/-- Who is ahead after a client was served that is ahead, was ahead before. -/
theorem Ahead.of_served (hlast : Ahead cursor last client) {other : α} (h : Ahead (some last) other client) :
    Ahead cursor other client := by
  cases cursor with
  | none => grind [Ahead]
  | some previous => grind [Ahead]

/-- Who was served before that client is not ahead any more. -/
theorem Ahead.not_served (hlast : Ahead cursor last client) (h : served = last ∨ Ahead cursor served last) :
    ¬ Ahead (some last) served client := by
  cases cursor with
  | none => grind [Ahead]
  | some previous => grind [Ahead]

/-- In a sorted list, the clients up to the cursor come before those after it. -/
theorem lt_of_mem_dropWhile (hsorted : clients.Pairwise (· < ·)) (h : client ∈ clients.dropWhile (· ≤ last)) :
    last < client := by
  induction clients with
  | nil => cases h
  | cons first rest ih =>
    rw [List.pairwise_cons] at hsorted
    by_cases hle : first ≤ last
    · simp only [List.dropWhile_cons, hle, decide_true, if_true] at h
      exact ih hsorted.2 h
    · simp only [List.dropWhile_cons, hle, decide_false, Bool.false_eq_true, if_false] at h
      rcases List.mem_cons.mp h with rfl | hrest
      · exact lt_of_not_ge hle
      · exact lt_trans (lt_of_not_ge hle) (hsorted.1 client hrest)

/-- The turns are taken in the order of who is ahead. -/
theorem pairwise_turns (hsorted : clients.Pairwise (· < ·)) (cursor : Option α) :
    (turns clients cursor).Pairwise (Ahead cursor) := by
  unfold turns turnStart
  cases cursor with
  | none =>
    rw [List.rotate_zero]
    exact hsorted
  | some last =>
    have hfront : ∀ x ∈ clients.takeWhile (· ≤ last), x ≤ last := fun x hx => by
      simpa using List.mem_takeWhile_imp hx
    have hback : ∀ x ∈ clients.dropWhile (· ≤ last), last < x := fun x => lt_of_mem_dropWhile hsorted
    have hrotate : clients.rotate (clients.takeWhile (· ≤ last)).length =
        clients.dropWhile (· ≤ last) ++ clients.takeWhile (· ≤ last) := by
      have hsplit := List.rotate_append_length_eq (clients.takeWhile (· ≤ last)) (clients.dropWhile (· ≤ last))
      rwa [List.takeWhile_append_dropWhile] at hsplit
    dsimp only
    rw [hrotate, List.pairwise_append]
    refine ⟨?_, ?_, fun x hx y hy => .inl ⟨hback x hx, .inl (hfront y hy)⟩⟩
    · exact (hsorted.sublist (List.dropWhile_sublist _)).imp_of_mem fun hx _ hlt => .inl ⟨hback _ hx, .inr hlt⟩
    · exact (hsorted.sublist (List.takeWhile_sublist _)).imp_of_mem fun hx hy hlt =>
        .inr ⟨hfront _ hx, hfront _ hy, hlt⟩

theorem mem_turns : client ∈ turns clients cursor ↔ client ∈ clients := List.mem_rotate

theorem length_turns : (turns clients cursor).length = clients.length := List.length_rotate _ _

theorem nodup_of_sorted (hsorted : clients.Pairwise (· < ·)) : clients.Nodup := hsorted.imp fun hlt => ne_of_lt hlt

theorem nodup_turns (hsorted : clients.Pairwise (· < ·)) : (turns clients cursor).Nodup :=
  List.nodup_rotate.mpr (nodup_of_sorted hsorted)

/-! ### Calls -/

/-- A call serves the first clients in turn, as many as its limit allows. If it has to leave some out, its cursor is
left at the last of those. -/
structure Serves (limit : ℕ) (clients : List α) (cursor : Option α) (served : List α) (cursor' : Option α) :
    Prop where
  first : ∀ client ∈ (turns clients cursor).take limit, client ∈ served
  last : limit < clients.length → cursor' = ((turns clients cursor).take limit).getLast?

/-- A server that goes through the clients by their places, from the start of the turns on, goes through the turns. -/
theorem turns_eq_filterMap (clients : List α) (cursor : Option α) :
    (List.range clients.length).filterMap (fun offset =>
      clients[(turnStart clients cursor + offset) % clients.length]?) = turns clients cursor := by
  have hplaces : ∀ xs : List α, (List.range xs.length).filterMap (fun offset => xs[offset]?) = xs := by
    intro xs
    induction xs with
    | nil => rfl
    | cons x rest ih =>
      rw [List.length_cons, List.range_succ_eq_map, List.filterMap_cons, List.filterMap_map]
      exact congrArg (x :: ·) ih
  have hrotated := hplaces (turns clients cursor)
  rw [length_turns] at hrotated
  rw [← hrotated]
  refine List.filterMap_congr fun offset hmem => ?_
  unfold turns
  rw [List.getElem?_rotate (List.mem_range.mp hmem), Nat.add_comm]

/-- Rounds that are cut off at a limit serve the first clients in turn, if all have an item. -/
theorem serves_rounds {β : Type} {queue : α → List β} {limit n : ℕ} (hlimit : 0 < limit) (hn : 0 < n)
    (h : ∀ client ∈ clients, queue client ≠ []) (cursor : Option α) :
    Serves limit clients cursor (((rounds queue (turns clients cursor) n).take limit).map Prod.fst)
      ((((rounds queue (turns clients cursor) n).take limit).getLast?.map Prod.fst).or cursor) := by
  obtain ⟨later, hlater⟩ := clients_prefix (n := n) (fun client hmem => h client (mem_turns.mp hmem)) hn
  rw [← List.getLast?_map, List.map_take, ← hlater, List.take_append]
  refine ⟨fun client hmem => List.mem_append_left _ hmem, fun hmore => ?_⟩
  rw [length_turns, Nat.sub_eq_zero_of_le (Nat.le_of_lt hmore), List.take_zero, List.append_nil]
  cases hlast : ((turns clients cursor).take limit).getLast? with
  | some last => rfl
  | none =>
    have hlength := congrArg List.length (List.getLast?_eq_none_iff.mp hlast)
    rw [List.length_take, length_turns, List.length_nil] at hlength
    omega

/-- How many of all clients are ahead of one. -/
def waiting (all : List α) (cursor : Option α) (client : α) : ℕ := all.countP fun other => Ahead cursor other client

variable {limit : ℕ} {all : List α} {cursor' : Option α} {items : List α}

theorem waiting_lt (hmem : client ∈ all) : waiting all cursor client < all.length := by
  unfold waiting
  rw [List.countP_lt_length_iff]
  exact ⟨client, hmem, by simpa using not_ahead_self cursor client⟩

/-- A client that is left out comes after all those that are served, and so does everyone who was ahead of it and was
not served. -/
theorem left_out (hlimit : 0 < limit) (hsorted : clients.Pairwise (· < ·)) (hmem : client ∈ clients)
    (hout : client ∉ (turns clients cursor).take limit) :
    limit < clients.length ∧ ∃ last, ((turns clients cursor).take limit).getLast? = some last ∧
      Ahead cursor last client ∧
      ∀ x ∈ (turns clients cursor).take limit, Ahead cursor x client ∧ ¬ Ahead (some last) x client := by
  have hlater : client ∈ (turns clients cursor).drop limit := by
    have hturn : client ∈ turns clients cursor := mem_turns.mpr hmem
    rw [← List.take_append_drop limit (turns clients cursor), List.mem_append] at hturn
    exact hturn.resolve_left hout
  have hmore : limit < clients.length := by
    have hpos := List.length_pos_of_mem hlater
    rw [List.length_drop, length_turns] at hpos
    omega
  have hne : (turns clients cursor).take limit ≠ [] := by
    intro hnil
    have hlength := congrArg List.length hnil
    rw [List.length_take, length_turns, List.length_nil] at hlength
    omega
  obtain ⟨front, last, hfront⟩ := (List.eq_nil_or_concat' ((turns clients cursor).take limit)).resolve_left hne
  have hpairs := pairwise_turns hsorted cursor
  rw [← List.take_append_drop limit (turns clients cursor), List.pairwise_append, hfront] at hpairs
  obtain ⟨hfirst, -, hahead⟩ := hpairs
  have hlast := hahead last (List.mem_append_right _ (List.mem_singleton_self last)) client hlater
  refine ⟨hmore, last, by rw [hfront, List.getLast?_concat], hlast, fun x hx => ?_⟩
  rw [hfront] at hx
  refine ⟨hahead x hx client hlater, hlast.not_served ?_⟩
  rw [List.pairwise_append] at hfirst
  rw [List.mem_append, List.mem_singleton] at hx
  exact hx.symm.imp_right fun hx => hfirst.2.2 x hx last (List.mem_singleton_self last)

/-- A client that is left out has fewer ahead of it, by as many as were served. -/
theorem waiting_after (hlimit : 0 < limit) (hsorted : clients.Pairwise (· < ·)) (hnodup : all.Nodup)
    (hall : clients ⊆ all) (hserves : Serves limit clients cursor items cursor') (hmem : client ∈ clients)
    (hout : client ∉ items) : waiting all cursor' client + limit ≤ waiting all cursor client := by
  obtain ⟨hmore, last, hlast, hahead, hserved⟩ :=
    left_out hlimit hsorted hmem fun h => hout (hserves.first client h)
  rw [hserves.last hmore, hlast]
  have hdistinct : ((turns clients cursor).take limit ++
      all.filter fun x => Ahead (some last) x client).Nodup := by
    refine List.nodup_append'.mpr ⟨(nodup_turns hsorted).sublist (List.take_sublist _ _), hnodup.filter _, ?_⟩
    intro x hx hstill
    rw [List.mem_filter, decide_eq_true_eq] at hstill
    exact (hserved x hx).2 hstill.2
  have hsub : (turns clients cursor).take limit ++ all.filter (fun x => Ahead (some last) x client) ⊆
      all.filter fun x => Ahead cursor x client := by
    intro x hx
    rw [List.mem_append, List.mem_filter, decide_eq_true_eq] at hx
    rw [List.mem_filter, decide_eq_true_eq]
    rcases hx with hx | ⟨hx, hstill⟩
    · exact ⟨hall (mem_turns.mp (List.mem_of_mem_take hx)), (hserved x hx).1⟩
    · exact ⟨hx, hahead.of_served hstill⟩
  have hle := (List.subperm_of_subset hdistinct hsub).length_le
  rw [List.length_append, List.length_take, length_turns, ← List.countP_eq_length_filter,
    ← List.countP_eq_length_filter] at hle
  unfold waiting
  omega

/-- **No client starves**: one that is there at every call of a window that is long enough to serve everyone once
is served in it. -/
theorem exists_served {due : ℕ → List α} {cursors : ℕ → Option α} {served : ℕ → List α} (hlimit : 0 < limit)
    (hsorted : ∀ i, (due i).Pairwise (· < ·)) (hnodup : all.Nodup) (hall : ∀ i, due i ⊆ all)
    (hserves : ∀ i, Serves limit (due i) (cursors i) (served i) (cursors (i + 1))) (start : ℕ)
    (hdue : ∀ j < all.length ⌈/⌉ limit, client ∈ due (start + j)) (hmem : client ∈ all) :
    ∃ j < all.length ⌈/⌉ limit, client ∈ served (start + j) := by
  by_contra hnever
  push Not at hnever
  have hfewer : ∀ k ≤ all.length ⌈/⌉ limit,
      waiting all (cursors (start + k)) client + limit * k ≤ waiting all (cursors start) client := by
    intro k hk
    induction k with
    | zero => exact Nat.le_refl _
    | succ k ih =>
      have hstep := waiting_after hlimit (hsorted (start + k)) hnodup (hall _) (hserves (start + k)) (hdue k hk)
        (hnever k hk)
      rw [Nat.mul_succ]
      have hbefore := ih (Nat.le_of_succ_le hk)
      rw [← Nat.add_assoc start k 1]
      omega
  have hend := hfewer _ (Nat.le_refl _)
  have hfirst : waiting all (cursors start) client < all.length := waiting_lt hmem
  have hcovers : all.length ≤ limit * (all.length ⌈/⌉ limit) := (ceilDiv_le_iff_le_mul hlimit).mp (Nat.le_refl _)
  omega

end Turns

end AikitRuntime.Library

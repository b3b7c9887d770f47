import AikitRuntime.Library.Decimals
import AikitRuntime.Memory.MemoryStore
import Mathlib.Data.List.Dedup

/-!
# What a search finds

The stores keep the same entries (`Sound` says what is known of them, `tableOf` what rows SQLite has for them), and
look for the same words. But `rank_entries` puts first what has the most words and tags in common with the query, and
counts a tag as much as a word, while SQLite reads its rows by importance and time and stops when it has enough; and
where no entry is asked for, it stops only after it has looked at one.

`SearchesAlike` says when this makes no difference.
-/

namespace AikitRuntime.Memory

open Std MemoryEntry MemoryQuery
open Library Durability
open SqliteMemoryStore (rowOrder scan search)

/-! ### Entries in a store -/

/-- Each entry is at its address, was accepted, and has a revision. -/
structure Sound (entries : AddressMap MemoryEntry) : Prop where
  address : ∀ {address : Address} {entry : MemoryEntry}, entries[address]? = some entry → entry.address = address
  valid : ∀ {address : Address} {entry : MemoryEntry}, entries[address]? = some entry → validateEntry entry = .ok ()
  revised : ∀ {address : Address} {entry : MemoryEntry}, entries[address]? = some entry → 0 < entry.revision

theorem sound_empty : Sound ∅ where
  address h := by simp at h
  valid h := by simp at h
  revised h := by simp at h

variable {entry : MemoryEntry}

theorem Sound.insert {entries : AddressMap MemoryEntry} (h : Sound entries)
    (hvalid : validateEntry entry = .ok ()) (hrevised : 0 < entry.revision) :
    Sound (entries.insert entry.address entry) := by
  have hcases {address : Address} {other : MemoryEntry}
      (hget : (entries.insert entry.address entry)[address]? = some other) :
      (entry.address = address ∧ entry = other) ∨ entries[address]? = some other := by
    rw [ExtTreeMap.getElem?_insert] at hget
    split at hget
    · next heq => exact .inl ⟨LawfulEqCmp.eq_of_compare heq, Option.some.inj hget⟩
    · exact .inr hget
  refine ⟨fun hget => ?_, fun hget => ?_, fun hget => ?_⟩ <;> rcases hcases hget with ⟨haddress, rfl⟩ | hget
  · exact haddress
  · exact h.address hget
  · exact hvalid
  · exact h.valid hget
  · exact hrevised
  · exact h.revised hget

theorem Sound.erase {entries : AddressMap MemoryEntry} (h : Sound entries) (address : Address) :
    Sound (entries.erase address) := by
  have hkept {other : Address} {entry : MemoryEntry} (hget : (entries.erase address)[other]? = some entry) :
      entries[other]? = some entry := by
    rw [ExtTreeMap.getElem?_erase] at hget
    split at hget
    · cases hget
    · exact hget
  exact ⟨fun hget => h.address (hkept hget), fun hget => h.valid (hkept hget), fun hget => h.revised (hkept hget)⟩

theorem importance_le_of_valid (h : validateEntry entry = .ok ()) : entry.importance ≤ 100 := by
  unfold validateEntry at h
  obtain ⟨-, -, h⟩ := bind_eq_ok.mp h
  obtain ⟨-, -, h⟩ := bind_eq_ok.mp h
  exact Nat.not_lt.mp (refuseIf_eq_ok.mp h)

/-- An accepted entry with a revision is read back as it is. -/
theorem normalizePersistedEntry_of_valid (hvalid : validateEntry entry = .ok ())
    (hrevised : 0 < entry.revision) : normalizePersistedEntry entry = .ok entry := by
  unfold normalizePersistedEntry
  dsimp only
  rw [if_neg (Nat.ne_of_gt hrevised), if_neg (Nat.not_lt.mpr (importance_le_of_valid hvalid)), hvalid]
  rfl

/-- The rows of some entries. -/
def tableOf (entries : AddressMap MemoryEntry) : SqliteMemoryStore := ⟨entries.map fun _ entry => entry.row⟩

variable {entries : AddressMap MemoryEntry}

theorem Sound.existing (h : Sound entries) (address : Address) :
    (tableOf entries).existing address = .ok entries[address]? := by
  unfold SqliteMemoryStore.existing tableOf
  dsimp only
  rw [ExtTreeMap.getElem?_map]
  cases hget : entries[address]? with
  | none => rfl
  | some entry =>
    dsimp only [Option.map_some]
    rw [show entry.row.entryJson = entry from rfl, normalizePersistedEntry_of_valid (h.valid hget) (h.revised hget)]
    rfl

theorem mem_valuesOf : entry ∈ valuesOf entries ↔ ∃ address : Address, entries[address]? = some entry := by
  unfold valuesOf
  rw [List.mem_map]
  constructor
  · rintro ⟨⟨address, _⟩, hmem, rfl⟩
    exact ⟨address, ExtTreeMap.mem_toList_iff_getElem?_eq_some.mp hmem⟩
  · rintro ⟨address, hget⟩
    exact ⟨(address, entry), ExtTreeMap.mem_toList_iff_getElem?_eq_some.mpr hget, rfl⟩

/-- The entries of one namespace differ in what they are sorted by. -/
theorem Sound.keyed (h : Sound entries) (namespace_ : String) {l : List MemoryEntry}
    (hl : ∀ entry ∈ l, entry ∈ valuesOf entries ∧ entry.namespace_ = namespace_) : Keyed recency l := by
  intro a ha b hb heq
  obtain ⟨ha, hna⟩ := hl a ha
  obtain ⟨hb, hnb⟩ := hl b hb
  obtain ⟨addressA, hgetA⟩ := mem_valuesOf.mp ha
  obtain ⟨addressB, hgetB⟩ := mem_valuesOf.mp hb
  have hkey : a.key = b.key := congrArg (fun x => (ofLex (ofLex x).2).2) heq
  have haddress : addressA = addressB := by
    rw [← h.address hgetA, ← h.address hgetB]
    exact Prod.ext (hna.trans hnb.symm) hkey
  subst haddress
  exact Option.some.inj (hgetA.symm.trans hgetB)

/-! ### Rows in order -/

/-- The order of the rows is that of the entries. -/
theorem rowOrder_le_iff {a b : MemoryEntry} (ha : a.importance ≤ 100) (hb : b.importance ≤ 100) :
    rowOrder (a.address, a.row) ≤ rowOrder (b.address, b.row) ↔
      a.recency ≤ b.recency := by
  have hlt {m n : Nat} :
      toLex (OrderDual.toDual m.repr.length, OrderDual.toDual m.repr) <
        toLex (OrderDual.toDual n.repr.length, OrderDual.toDual n.repr) ↔ n < m := by
    rw [@Decimals.lt_iff_repr n m, Prod.Lex.toLex_lt_toLex, OrderDual.toDual_lt_toDual, OrderDual.toDual_lt_toDual,
      OrderDual.toDual_inj]
    exact or_congr_right (and_congr_left' eq_comm)
  have heq {m n : Nat} :
      toLex (OrderDual.toDual m.repr.length, OrderDual.toDual m.repr) =
        toLex (OrderDual.toDual n.repr.length, OrderDual.toDual n.repr) ↔ m = n := by
    refine ⟨fun h => Decimals.repr_inj ?_, fun h => h ▸ rfl⟩
    exact OrderDual.toDual_inj.mp (congrArg (fun x => (ofLex x).2) h)
  unfold rowOrder recency
  simp only [row, address, Nat.min_eq_left ha, Nat.min_eq_left hb, Prod.Lex.toLex_le_toLex, hlt,
    heq, OrderDual.toDual_lt_toDual, OrderDual.toDual_inj]

/-- The entries of a namespace. -/
def inNamespace (entries : AddressMap MemoryEntry) (namespace_ : String) : List MemoryEntry :=
  (valuesOf entries).filter fun entry => entry.namespace_ = namespace_

theorem Sound.keyed_inNamespace (h : Sound entries) (namespace_ : String) :
    Keyed recency (inNamespace entries namespace_) :=
  h.keyed namespace_ fun entry hmem => by simpa [inNamespace] using hmem

/-- **The rows of a namespace** are those of its entries, sorted. -/
theorem Sound.selectRows (h : Sound entries) (namespace_ : String) :
    (tableOf entries).selectRows namespace_ =
      (sortByKey recency (inNamespace entries namespace_)).map row := by
  have hrows : (tableOf entries).rows.toList.filter (fun row => row.1.1 = namespace_) =
      (inNamespace entries namespace_).map fun entry => (entry.address, entry.row) := by
    unfold tableOf inNamespace valuesOf
    rw [ExtTreeMap.toList_map, List.filter_map, List.filter_map, List.map_map]
    refine (List.map_congr_left fun pair hmem => ?_).trans (congrArg _ (List.filter_congr fun pair hmem => ?_))
    · have hget := ExtTreeMap.mem_toList_iff_getElem?_eq_some.mp (List.mem_of_mem_filter hmem)
      exact Prod.ext (h.address hget).symm rfl
    · have hget := ExtTreeMap.mem_toList_iff_getElem?_eq_some.mp hmem
      have hfirst : pair.2.namespace_ = pair.1.1 := congrArg Prod.fst (h.address hget)
      simp [hfirst]
  unfold SqliteMemoryStore.selectRows
  rw [hrows, map_sortByKey, List.map_map]
  refine congrArg (List.map row) (sortByKey_eq_of_le (h.keyed_inNamespace namespace_) ?_).symm
  intro a ha b hb
  obtain ⟨_, hgetA⟩ := mem_valuesOf.mp (List.mem_of_mem_filter ha)
  obtain ⟨_, hgetB⟩ := mem_valuesOf.mp (List.mem_of_mem_filter hb)
  exact (rowOrder_le_iff (importance_le_of_valid (h.valid hgetA)) (importance_le_of_valid (h.valid hgetB))).symm

/-! ### The loop -/

section

variable [Alphanumeric] {query : MemoryQuery}

/-- An entry that is read back as it is, in the namespace of the query. -/
def Readable (query : MemoryQuery) (entry : MemoryEntry) : Prop :=
  normalizePersistedEntry entry = .ok entry ∧ entry.namespace_ = query.namespace_

variable {entry : MemoryEntry}

theorem scan_cons (h : Readable query entry) (found : List MemoryEntry) (rows : List MemoryRow) :
    scan query found (entry.row :: rows) =
      if query.selects entry then
        if query.bound ≤ (if query.matches_ entry then found ++ [entry] else found).length then
          .ok (if query.matches_ entry then found ++ [entry] else found)
        else scan query (if query.matches_ entry then found ++ [entry] else found) rows
      else scan query found rows := by
  rw [scan, show entry.row.entryJson = entry from rfl, h.1, ok_bind]
  unfold selects
  rw [h.2]
  cases query.tags.isSubset entry.tags with
  | false => simp
  | true =>
    cases query.plane with
    | none => simp
    | some plane =>
      by_cases hplane : plane = entry.plane
      · simp [hplane]
      · simp [hplane, Ne.symm hplane]

/-- Where something is asked for, the loop stops when it has enough. -/
theorem scan_rows {l : List MemoryEntry} (hl : ∀ entry ∈ l, Readable query entry) {found : List MemoryEntry}
    (hfound : found.length < query.bound) :
    scan query found (l.map row) =
      .ok (found ++ ((l.filter query.selects).filter query.matches_).take (query.bound - found.length)) := by
  induction l generalizing found with
  | nil => simp [scan]
  | cons entry rest ih =>
    have hrest := fun other hmem => hl other (List.mem_cons_of_mem _ hmem)
    rw [List.map_cons, scan_cons (hl entry List.mem_cons_self)]
    by_cases hselects : query.selects entry = true
    · rw [if_pos hselects, List.filter_cons_of_pos hselects]
      by_cases hmatches : query.matches_ entry = true
      · rw [if_pos hmatches, List.filter_cons_of_pos hmatches, List.length_append, List.length_singleton]
        obtain ⟨more, hmore⟩ : ∃ more, query.bound - found.length = more + 1 := ⟨_, (Nat.succ_pred (by omega)).symm⟩
        rw [hmore, List.take_succ_cons]
        split
        · next hfull =>
          rw [show more = 0 by omega, List.take_zero]
        · next hfull =>
          rw [ih hrest (by rw [List.length_append, List.length_singleton]; omega), List.length_append,
            List.length_singleton, show query.bound - (found.length + 1) = more by omega, List.append_assoc]
          rfl
      · rw [if_neg hmatches, List.filter_cons_of_neg hmatches, if_neg (Nat.not_le.mpr hfound), ih hrest hfound]
    · rw [if_neg hselects, List.filter_cons_of_neg hselects, ih hrest hfound]

/-- Where nothing is asked for, the loop still looks at one entry. -/
theorem scan_rows_zero {l : List MemoryEntry} (hl : ∀ entry ∈ l, Readable query entry) (hbound : query.bound = 0) :
    scan query [] (l.map row) =
      .ok (((l.filter query.selects).take 1).filter query.matches_) := by
  induction l with
  | nil => simp [scan]
  | cons entry rest ih =>
    rw [List.map_cons, scan_cons (hl entry List.mem_cons_self), hbound]
    by_cases hselects : query.selects entry = true
    · rw [if_pos hselects, List.filter_cons_of_pos hselects, if_pos (Nat.zero_le _)]
      by_cases hmatches : query.matches_ entry = true
      · simp [hmatches]
      · simp [hmatches]
    · rw [if_neg hselects, List.filter_cons_of_neg hselects]
      exact ih fun other hmem => hl other (List.mem_cons_of_mem _ hmem)

/-- The entries that a search considers. -/
def MemoryQuery.selected (query : MemoryQuery) (entries : AddressMap MemoryEntry) : List MemoryEntry :=
  (valuesOf entries).filter query.selects

omit [Alphanumeric] in
theorem Sound.keyed_selected (h : Sound entries) (query : MemoryQuery) :
    Keyed recency (query.selected entries) := by
  refine h.keyed query.namespace_ fun entry hmem => ?_
  obtain ⟨hmem, hselects⟩ := List.mem_filter.mp hmem
  unfold selects at hselects
  exact ⟨hmem, by simp_all⟩

/-- **What SQLite finds.** -/
theorem search_tableOf (h : Sound entries) (query : MemoryQuery) :
    (tableOf entries).search query =
      (.ok (.entries (if query.bound = 0 then
          ((sortByKey recency (query.selected entries)).take 1).filter query.matches_
        else (sortByKey recency ((query.selected entries).filter query.matches_)).take query.bound)),
        tableOf entries) := by
  have hreadable : ∀ entry ∈ sortByKey recency (inNamespace entries query.namespace_),
      Readable query entry := by
    intro entry hmem
    obtain ⟨hmem, hnamespace⟩ := List.mem_filter.mp (mem_sortByKey.mp hmem)
    obtain ⟨_, hget⟩ := mem_valuesOf.mp hmem
    exact ⟨normalizePersistedEntry_of_valid (h.valid hget) (h.revised hget), of_decide_eq_true hnamespace⟩
  have hselected : (inNamespace entries query.namespace_).filter query.selects = query.selected entries := by
    unfold inNamespace selected
    rw [List.filter_filter]
    refine List.filter_congr fun entry _ => ?_
    unfold selects
    cases decide (entry.namespace_ = query.namespace_) <;> simp
  have hkeyed := h.keyed_inNamespace query.namespace_
  unfold search
  rw [h.selectRows]
  by_cases hbound : query.bound = 0
  · rw [if_pos hbound, scan_rows_zero hreadable hbound, filter_sortByKey hkeyed, hselected]
    rfl
  · rw [if_neg hbound, scan_rows hreadable (show [].length < query.bound from Nat.pos_of_ne_zero hbound),
      filter_sortByKey hkeyed, hselected, filter_sortByKey (h.keyed_selected query)]
    rfl

/-! ### Agreement -/

theorem matches_iff (hwords : queryWords query.text ≠ []) :
    query.matches_ entry = true ↔ 0 < query.wordScore entry := by
  unfold matches_ wordScore
  rw [List.isEmpty_eq_false_iff.mpr hwords, Bool.false_or, List.any_eq_true, List.countP_pos_iff]
  simp only [List.mem_dedup]

omit [Alphanumeric] in
/-- The entries that are considered have all tags of the query. -/
theorem tagScore_of_selected (h : entry ∈ query.selected entries) :
    query.tagScore entry = query.tags.elements.length := by
  have hselects := (List.mem_filter.mp h).2
  unfold selects at hselects
  have htags := (Bool.and_eq_true_iff.mp hselects).2
  unfold BTreeSet.isSubset at htags
  unfold tagScore
  exact List.countP_eq_length.mpr (List.all_eq_true.mp htags)

/-- Among them the words alone make the difference. -/
theorem sortByKey_score (h : Sound entries) (p : MemoryEntry → Bool) :
    sortByKey (scored query.score recency) ((query.selected entries).filter p) =
      sortByKey (scored query.wordScore recency) ((query.selected entries).filter p) := by
  refine sortByKey_eq_of_le (((h.keyed_selected query).filter p).scored _) fun a ha b hb => ?_
  have hscore {entry : MemoryEntry} (hmem : entry ∈ (query.selected entries).filter p) :
      query.score entry = query.wordScore entry + query.tags.elements.length := by
    unfold score
    rw [tagScore_of_selected (List.mem_of_mem_filter hmem)]
  rw [scored_le_iff, scored_le_iff, hscore ha, hscore hb, Nat.add_lt_add_iff_right, Nat.add_right_cancel_iff]

/-- A search finds the same in all stores.

Where something is asked for, no entry that SQLite returns mentions fewer of the words than one that it has after it;
and where the query has tags, either enough entries match or all do. Where nothing is asked for, the first entry does
not match. -/
def SearchesAlike (query : MemoryQuery) (entries : AddressMap MemoryEntry) : Prop :=
  if query.bound = 0 then
    ∀ entry ∈ query.selected entries, (∀ other ∈ query.selected entries, ¬ other.recency < entry.recency) →
      query.matches_ entry = false
  else
    ScoresAgree query.wordScore recency query.bound ((query.selected entries).filter query.matches_) ∧
      (query.tags.elements = [] ∨ query.bound ≤ ((query.selected entries).filter query.matches_).length ∨
        ∀ entry ∈ query.selected entries, query.matches_ entry = true)

omit [Alphanumeric] in
/-- Where nothing is asked for. -/
theorem take_one_iff (h : Sound entries) (p : MemoryEntry → Bool) :
    ((sortByKey recency (query.selected entries)).take 1).filter p = [] ↔
      ∀ entry ∈ query.selected entries, (∀ other ∈ query.selected entries, ¬ other.recency < entry.recency) →
        p entry = false := by
  have hfirst {entry : MemoryEntry} (hmem : entry ∈ query.selected entries) :
      entry ∈ (sortByKey recency (query.selected entries)).take 1 ↔
        ∀ other ∈ query.selected entries, ¬ other.recency < entry.recency := by
    rw [mem_take_sortByKey (h.keyed_selected query) hmem, Nat.lt_one_iff, List.countP_eq_zero]
    simp only [decide_eq_true_eq]
  rw [List.filter_eq_nil_iff]
  constructor
  · intro hnone entry hmem hleast
    exact Bool.not_eq_true _ ▸ hnone entry ((hfirst hmem).mpr hleast)
  · intro hnone entry hmem
    have hselected := mem_sortByKey.mp (List.mem_of_mem_take hmem)
    rw [hnone entry hselected ((hfirst hselected).mp hmem)]
    exact Bool.false_ne_true

/-- **When SQLite finds what the others find.** -/
theorem searches_agree_iff (h : Sound entries) (query : MemoryQuery) :
    ((tableOf entries).search query).1 = .ok (.entries (rankEntries (valuesOf entries) query)) ↔
      SearchesAlike query entries := by
  have hkeyed := h.keyed_selected query
  rw [search_tableOf h, Except.ok.injEq, MemoryAnswer.entries.injEq, eq_comm]
  unfold SearchesAlike rankEntries
  by_cases hbound : query.bound = 0
  · rw [if_pos hbound, if_pos hbound, hbound, List.take_zero, eq_comm]
    exact take_one_iff h query.matches_
  · rw [if_neg hbound, if_neg hbound]
    show (sortByKey (scored query.score recency) ((query.selected entries).filter _)).take _ = _ ↔ _
    rw [sortByKey_score h]
    by_cases hwords : queryWords query.text = []
    · have hall : ∀ entry, query.matches_ entry = true := by
        intro entry
        simp [matches_, hwords]
      rw [List.filter_eq_self.mpr (fun entry _ => by simp [hwords]),
        List.filter_eq_self.mpr (fun entry _ => hall entry), take_scored_iff hkeyed]
      exact (and_iff_left (.inr (.inr fun entry _ => hall entry))).symm
    · have hwordless : (queryWords query.text).isEmpty = false := List.isEmpty_eq_false_iff.mpr hwords
      by_cases htags : query.tags.elements = []
      · have hfound : (query.selected entries).filter (fun entry => (queryWords query.text).isEmpty ||
            decide (0 < query.score entry)) = (query.selected entries).filter query.matches_ := by
          refine List.filter_congr fun entry hmem => ?_
          rw [hwordless, Bool.false_or, score, tagScore_of_selected hmem, htags, List.length_nil,
            Nat.add_zero, Bool.eq_iff_iff, matches_iff hwords, decide_eq_true_eq]
        rw [hfound, take_scored_iff (hkeyed.filter _)]
        exact (and_iff_left (.inl htags)).symm
      · have hfound : (query.selected entries).filter (fun entry => (queryWords query.text).isEmpty ||
            decide (0 < query.score entry)) = query.selected entries := by
          refine List.filter_eq_self.mpr fun entry hmem => ?_
          have hpos := List.length_pos_iff.mpr htags
          rw [hwordless, Bool.false_or, score, tagScore_of_selected hmem, decide_eq_true_eq]
          omega
        rw [hfound, take_scored_filter_iff hkeyed (fun entry _ => matches_iff hwords), or_iff_right htags]

end

end AikitRuntime.Memory

import AikitRuntime.Journal.Counting

/-!
# Restores read their part of the journal

A restore is begun at some moment, and reads pages from its start through the head of that moment.
What the pages hand over and what is left make up that part of the journal, at every moment until
the restore is finished, whatever the other clients do in between.
-/

namespace AikitRuntime.Journal

open Library Durability Method
open InMemoryJournalState InMemoryA2aMapperJournalStore

section
variable {R : MapperRecords} {H : JournalHost R} {s t u : InMemoryJournalState R}
  {base cursor through : A2aJournalToken} {ds : List (A2aMapperDelta R)} {delta : A2aMapperDelta R}
  {called : JournalCalled R} {request : A2aJournalPageRequest} {pin : RestorePin}

/-! ### One page -/

/-- A delta fits into an empty page. -/
theorem fits_page {bytes : Nat} (hvalid : delta.validate H = .ok ())
    (hbytes : bytes + a2aMapperDeltaMaxBytes ≤ request.maxBytes) :
    ¬ request.maxBytes < saturatingAdd32 bytes (asU32 (H.encodedLen delta)) := by
  have hfits := (A2aMapperDelta.validate_eq_ok hvalid).fits
  have hmod : asU32 (H.encodedLen delta) ≤ H.encodedLen delta := Nat.mod_le ..
  have hmin : saturatingAdd32 bytes (asU32 (H.encodedLen delta)) ≤
      bytes + asU32 (H.encodedLen delta) := Nat.min_le_left ..
  omega

/-- **A page hands over the first deltas of those that are left**, and one at least if it can. -/
theorem collectPage_spec (request : A2aJournalPageRequest) (rest : List (A2aMapperDelta R))
    (progress : PageProgress R) (hchain : Chain H progress.cursor rest through)
    (hpresent : ∀ j d, rest[j]? = some d →
      s.deltas[progress.cursor.sequence + 1 + j]? = some d) :
    ∃ handed later next,
      s.collectPage H request rest.length (progress.cursor.sequence + 1) progress = .ok next ∧
      rest = handed ++ later ∧ next.deltas = progress.deltas ++ handed ∧
      Chain H progress.cursor handed next.cursor ∧
      (rest ≠ [] → progress.deltas.length < request.maxDeltas →
        progress.encodedBytes + a2aMapperDeltaMaxBytes ≤ request.maxBytes → handed ≠ []) := by
  induction rest generalizing progress with
  | nil =>
    refine ⟨[], [], progress, rfl, rfl, (List.append_nil _).symm, .nil _, fun hne => ?_⟩
    exact absurd rfl hne
  | cons d rest ih =>
    cases hchain with
    | @cons _ token _ _ _ hstep hrest =>
      have hget : s.deltas[progress.cursor.sequence + 1]? = some d := hpresent 0 d rfl
      have hprevious : d.previousHash = progress.cursor.deltaHash := by
        rw [(A2aMapperDelta.validate_eq_ok hstep.valid).previous, hstep.expected]
      rw [List.length_cons, collectPage]
      split
      · next hfull =>
        refine ⟨[], d :: rest, progress, rfl, rfl, (List.append_nil _).symm, .nil _, ?_⟩
        intro _ hlt
        exact absurd hfull (Nat.not_le.mpr hlt)
      · rw [hget, okOr_some, ok_bind, hstep.valid, ok_bind,
          refuseIf_of_not (by rw [hstep.expected, hprevious]; simp), ok_bind]
        dsimp only
        split
        · next hlong =>
          refine ⟨[], d :: rest, progress, rfl, rfl, (List.append_nil _).symm, .nil _, ?_⟩
          intro _ _ hbytes
          exact absurd hlong (fits_page hstep.valid hbytes)
        · rw [hstep.token, ok_bind]
          have hsequence := hstep.sequence
          obtain ⟨handed, later, next, hrun, hsplit, hdeltas, hhanded, -⟩ :=
            ih ⟨progress.deltas ++ [d], token, progress.encodedBytes + asU32 (H.encodedLen d)⟩ hrest
              (by
                intro j e hj
                have hnext := hpresent (j + 1) e hj
                have hplace : token.sequence + 1 + j = progress.cursor.sequence + 1 + (j + 1) := by
                  omega
                show s.deltas[token.sequence + 1 + j]? = some e
                rwa [hplace])
          rw [hsequence] at hrun
          refine ⟨d :: handed, later, next, hrun, by rw [hsplit]; rfl, ?_, .cons hstep hhanded, nofun⟩
          rw [hdeltas, List.append_assoc]
          rfl

/-- What `A2aJournalPageRequest::validate` lets pass. -/
theorem A2aJournalPageRequest.validate_eq_ok (h : request.validate = .ok ()) :
    0 < request.maxDeltas ∧ a2aMapperDeltaMaxBytes ≤ request.maxBytes := by
  unfold A2aJournalPageRequest.validate at h
  obtain ⟨_, _, h⟩ := bind_eq_ok.mp h
  obtain ⟨_, _, h⟩ := bind_eq_ok.mp h
  obtain ⟨_, hdeltas, hbytes⟩ := bind_eq_ok.mp h
  have hdeltas := refuseIf_eq_ok.mp hdeltas
  have hbytes := not_not.mp (refuseIf_eq_ok.mp hbytes)
  exact ⟨by omega, hbytes.1⟩

/-- The token of a delta whose payload is there. -/
theorem Journaled.tokenAt_delta (h : Journaled H s base ds) {i : Nat} (hi : ds[i]? = some delta)
    (hget : s.deltas[i + 1]? = some delta) (htoken : delta.token = .ok cursor) :
    s.tokenAt H (i + 1) = some cursor := by
  obtain ⟨token, htoken', hsequence, hreached⟩ := h.chain.reached_token h.base_sequence hi
  rw [htoken] at htoken'
  cases htoken'
  unfold tokenAt
  split
  · next hhead => rw [h.head_reached.eq hreached (by omega)]
  · rw [if_neg (Nat.succ_ne_zero i), hget, Option.bind_some, htoken]
    rfl

/-- What a restore is for. -/
abbrev part (ds : List (A2aMapperDelta R)) (pin : RestorePin) : List (A2aMapperDelta R) :=
  (ds.take pin.through.sequence).drop pin.start.sequence

/-- The payloads of what a restore is for are there. -/
theorem Pinned.get_part (hp : Pinned H s ds pin) {k : Nat} {d : A2aMapperDelta R}
    (hk : (part ds pin)[k]? = some d) :
    ds[pin.start.sequence + k]? = some d ∧ s.deltas[pin.start.sequence + k + 1]? = some d := by
  rw [List.getElem?_drop, List.getElem?_take] at hk
  split at hk
  · next hlt =>
    refine ⟨hk, ?_⟩
    rw [hp.present _ ?_, hk]
    unfold RestorePin.covers
    rw [Bool.and_eq_true, decide_eq_true_iff, decide_eq_true_iff]
    omega
  · cases hk

variable {read rest : List (A2aMapperDelta R)}

/-- A cursor that was reached is a token that the store knows. -/
theorem Journaled.knownAfter (h : Journaled H s base ds) (hp : Pinned H s ds pin) (hsplit : part ds pin = read ++ rest)
    (hread : Chain H pin.start read cursor) : s.knownAfter H pin cursor = .ok cursor := by
  unfold InMemoryJournalState.knownAfter
  split
  · next heq => rw [heq]
  · next hne =>
    rcases List.eq_nil_or_concat read with rfl | ⟨init, d, rfl⟩
    · cases hread
      exact absurd rfl hne
    · rw [List.concat_eq_append] at hread hsplit
      have hsequence := hread.sequence
      rw [List.length_append, List.length_singleton] at hsequence
      obtain ⟨mid, _, hlast⟩ := hread.exists_mid
      cases hlast with
      | cons hstep hnil =>
        cases hnil
        have hk : (part ds pin)[init.length]? = some d := by
          rw [hsplit, List.append_assoc, List.getElem?_append_right (Nat.le_refl _), Nat.sub_self]
          rfl
        obtain ⟨hi, hget⟩ := hp.get_part hk
        have htoken := h.tokenAt_delta hi hget hstep.token
        rw [Nat.add_assoc, ← hsequence] at htoken
        rw [htoken]
        rfl

/-- **A page of a restore**, from a cursor that was reached. -/
theorem Journaled.readDeltaPage (h : Journaled H s base ds)
    (hpin : s.restorePins[request.restoreId]? = some pin) (hvalid : request.validate = .ok ()) (hsplit : part ds pin = read ++ rest)
    (hread : Chain H pin.start read request.after) (hrest : Chain H request.after rest pin.through)
    (hopen : rest ≠ [] ∨ read = []) :
    ∃ page later, s.readDeltaPage H request = .ok page ∧ rest = page.deltas ++ later ∧
      Chain H request.after page.deltas page.nextAfter ∧ Chain H page.nextAfter later pin.through ∧
      page.through = pin.through ∧ (page.done = true ↔ later = []) ∧
      (rest ≠ [] → page.deltas ≠ []) := by
  have hp := h.pinned _ pin hpin
  obtain ⟨hdeltas, hbytes⟩ := A2aJournalPageRequest.validate_eq_ok hvalid
  have hafter := hread.sequence
  have hthrough := hrest.sequence
  have hlt : request.after.sequence < u64Max := by
    rcases hopen with hne | rfl
    · have hpos := List.length_pos_iff.mpr hne
      have hle := hp.through_le
      have hlength := h.length_eq
      have hcounted := h.counted
      have hgeneration := h.generation_le
      omega
    · have hstart := hp.start_lt
      rw [List.length_nil] at hafter
      omega
  have hfirst : saturatingAdd request.after.sequence 1 = request.after.sequence + 1 := by
    unfold saturatingAdd
    omega
  have hcount : pin.through.sequence + 1 - (request.after.sequence + 1) = rest.length := by omega
  have hpresent : ∀ j d, rest[j]? = some d →
      s.deltas[request.after.sequence + 1 + j]? = some d := by
    intro j d hj
    have hk : (part ds pin)[read.length + j]? = some d := by
      rw [hsplit, List.getElem?_append_right (Nat.le_add_right ..), Nat.add_sub_cancel_left, hj]
    have hget := (hp.get_part hk).2
    rwa [show pin.start.sequence + (read.length + j) + 1 = request.after.sequence + 1 + j by omega]
      at hget
  obtain ⟨handed, later, next, hrun, hparts, hnext, hhanded, hprogress⟩ :=
    collectPage_spec request rest ⟨[], request.after, 0⟩ hrest hpresent
  rw [List.nil_append] at hnext
  rw [hparts] at hrest
  obtain ⟨mid, hmid, hlater⟩ := hrest.exists_mid
  rw [← hhanded.eq hmid] at hlater
  refine ⟨⟨next.deltas, next.cursor, pin.through, next.cursor = pin.through, next.encodedBytes⟩,
    later, ?_, ?_, ?_, hlater, rfl, ?_, ?_⟩
  · unfold InMemoryJournalState.readDeltaPage
    rw [hvalid, ok_bind, h.validateHead, ok_bind, hpin, okOr_some, ok_bind,
      refuseIf_of_not (by omega), ok_bind, h.knownAfter hp hsplit hread, ok_bind,
      refuseIf_of_not (not_not.mpr rfl), ok_bind, refuseIf_of_not (by omega), ok_bind]
    dsimp only
    rw [hfirst, hcount, hrun]
    rfl
  · show rest = next.deltas ++ later
    rw [hnext, hparts]
  · show Chain H request.after next.deltas next.cursor
    rw [hnext]
    exact hhanded
  · show decide (next.cursor = pin.through) = true ↔ later = []
    rw [decide_eq_true_iff]
    constructor
    · intro heq
      have hsequence := Chain.sequence hlater
      rw [heq] at hsequence
      exact List.eq_nil_of_length_eq_zero (by omega)
    · rintro rfl
      exact Chain.eq_of_nil hlater
  · intro hne
    show next.deltas ≠ []
    rw [hnext]
    exact hprogress hne hdeltas (by rw [Nat.zero_add]; exact hbytes)

/-! ### Other clients -/

variable {id : String}

/-- **No call ends a restore but its own finish.** -/
theorem Does.keeps_pin (h : Does H s called t) (hjournal : Journaled H s base ds)
    (hpin : s.restorePins[id]? = some pin) (hother : called.call ≠ .finishRestore id) :
    t.restorePins[id]? = some pin := by
  cases h with
  | kept | appended | installed | collected => exact hpin
  | restoring hbytes hnext =>
    obtain ⟨n, hn, rfl⟩ := hjournal.named id pin hpin
    refine (BTreeMap.get_insert_of_ne fun heq => ?_).trans hpin
    have hsame := restoreName_injective heq
    omega
  | @released id' =>
    have hne : id' ≠ id := fun heq => hother (by rw [heq])
    exact (BTreeMap.get_erase.trans (if_neg hne)).trans hpin

/-- A restore that nobody has finished is there. -/
theorem pin_of_path {calls : List (JournalCalled R)} (hjournal : ∃ base, Journaled H s base ds)
    (hpath : Path (BoundedCall H) s calls t) (hpin : s.restorePins[id]? = some pin)
    (hopen : ∀ called ∈ calls, called.call ≠ .finishRestore id) :
    t.restorePins[id]? = some pin := by
  induction hpath generalizing ds with
  | nil => exact hpin
  | cons hstep _ ih =>
    obtain ⟨base, hbase⟩ := hjournal
    have hdoes := hstep.calls.does hbase hstep.hasGeneration
    obtain ⟨base', hnext, -⟩ := hdoes.journaled hbase
    refine ih ⟨base', hnext⟩ (hdoes.keeps_pin hbase hpin (hopen _ List.mem_cons_self)) ?_
    exact fun called hin => hopen called (List.mem_cons_of_mem _ hin)

/-! ### Reading a restore -/

/-- Reading a restore along a run: its pages so far, and the cursor they have come to. The reader
goes on from there, when it wants to, until a page is the last one. -/
inductive Reading (point : A2aJournalRestorePoint) :
    List (JournalCalled R) → List (A2aJournalPage R) → A2aJournalToken → Prop where
  | start : Reading point [] [] point.start
  | wait {calls : List (JournalCalled R)} {pages : List (A2aJournalPage R)}
      {cursor : A2aJournalToken} (called : JournalCalled R) (h : Reading point calls pages cursor) :
      Reading point (calls ++ [called]) pages cursor
  | read {calls : List (JournalCalled R)} {pages : List (A2aJournalPage R)}
      {request : A2aJournalPageRequest} {page : A2aJournalPage R}
      (h : Reading point calls pages request.after) (hid : request.restoreId = point.restoreId)
      (hopen : ∀ earlier ∈ pages, earlier.done = false) :
      Reading point (calls ++ [⟨.readDeltaPage request, .ok (.page page)⟩]) (pages ++ [page])
        page.nextAfter

/-- What the pages have handed over, and what is left. -/
structure Handed (H : JournalHost R) (ds : List (A2aMapperDelta R)) (pin : RestorePin)
    (pages : List (A2aJournalPage R)) (cursor : A2aJournalToken)
    (later : List (A2aMapperDelta R)) : Prop where
  split : part ds pin = pages.flatMap (·.deltas) ++ later
  read : Chain H pin.start (pages.flatMap (·.deltas)) cursor
  rest : Chain H cursor later pin.through
  through : ∀ page ∈ pages, page.through = pin.through
  done : ∀ page ∈ pages, page.done = true → later = []
  more : (∀ page ∈ pages, page.done = false) → later ≠ [] ∨ pages.flatMap (·.deltas) = []

/-- What a restore is for does not change when deltas are applied after it. -/
theorem part_append {more : List (A2aMapperDelta R)} (h : pin.through.sequence ≤ ds.length) :
    part (ds ++ more) pin = part ds pin := by
  rw [part, List.take_append_of_le_length h]

variable {point : A2aJournalRestorePoint} {mid : List (JournalCalled R)}
  {pages : List (A2aJournalPage R)}

/-- **Pages hand over one part after another.** -/
theorem Reading.handed (hreading : Reading point mid pages cursor) (hstart : pin.start = point.start)
    (hjournal : Journaled H s base ds) (hpath : Path (BoundedCall H) s mid t)
    (hpin : s.restorePins[point.restoreId]? = some pin)
    (hopen : ∀ called ∈ mid, called.call ≠ .finishRestore point.restoreId) :
    ∃ later, Handed H ds pin pages cursor later := by
  have hp := hjournal.pinned _ pin hpin
  induction hreading generalizing t with
  | start =>
    refine ⟨part ds pin, rfl, hstart ▸ .nil _, hstart ▸ hp.chain, nofun, nofun, fun _ => .inr rfl⟩
  | wait called _ ih =>
    obtain ⟨w, hbefore, -⟩ := hpath.exists_mid
    exact ih hbefore fun c hc => hopen c (List.mem_append_left _ hc)
  | @read calls pages request page _ hid hnot ih =>
    obtain ⟨w, hbefore, hlast⟩ := hpath.exists_mid
    have hopen' : ∀ c ∈ calls, c.call ≠ .finishRestore point.restoreId := fun c hc =>
      hopen c (List.mem_append_left _ hc)
    obtain ⟨later, hhanded⟩ := ih hbefore hopen'
    obtain ⟨base', hw⟩ := hjournal.path hbefore
    have hpin' := pin_of_path ⟨base, hjournal⟩ hbefore hpin hopen'
    cases hlast with
    | cons hstep hnil =>
      cases hnil
      obtain ⟨a, hrun, heq⟩ := run_map_eq_ok.mp hstep.calls
      cases heq
      obtain ⟨hread, -⟩ := readDeltaPage_run.mp hrun
      have hvalid : request.validate = .ok () := by
        unfold InMemoryJournalState.readDeltaPage at hread
        obtain ⟨_, hvalid, -⟩ := bind_eq_ok.mp hread
        exact hvalid
      have hsplit := hhanded.split
      rw [← part_append hp.through_le] at hsplit
      obtain ⟨page', later', hread', hrest, hchain, hlater, hthrough, hdone, hne⟩ :=
        hw.readDeltaPage (hid ▸ hpin') hvalid hsplit hhanded.read hhanded.rest (hhanded.more hnot)
      rw [hread] at hread'
      cases hread'
      have hflat : (pages ++ [page]).flatMap (·.deltas) = pages.flatMap (·.deltas) ++ page.deltas := by
        rw [List.flatMap_append, List.flatMap_singleton]
      refine ⟨later', ?_, ?_, hlater, ?_, ?_, ?_⟩
      · rw [hflat, List.append_assoc, ← hrest]
        exact hhanded.split
      · rw [hflat]
        exact hhanded.read.append hchain
      · intro p hp'
        rcases List.mem_append.mp hp' with hin | hin
        · exact hhanded.through p hin
        · rw [List.mem_singleton.mp hin]
          exact hthrough
      · intro p hp' hdone'
        rcases List.mem_append.mp hp' with hin | hin
        · rw [hnot p hin] at hdone'
          cases hdone'
        · rw [List.mem_singleton.mp hin] at hdone'
          exact hdone.mp hdone'
      · intro hall
        have hfalse := hall page (List.mem_append_right _ (List.mem_singleton.mpr rfl))
        left
        intro hnil
        rw [hdone.mpr hnil] at hfalse
        cases hfalse

/-! ### What the pages hold -/

/-- The sequence of a delta. -/
def A2aMapperDelta.place (delta : A2aMapperDelta R) : Nat := delta.expectedToken.sequence + 1

/-- **A part of a chain is what its sequences pick.** -/
theorem Chain.filter_place {a b : A2aJournalToken} (h : Chain H a ds b) (m n : Nat) :
    ds.filter (fun d => m < d.place ∧ d.place ≤ n) =
      (ds.take (n - a.sequence)).drop (m - a.sequence) := by
  induction h with
  | nil => rw [List.take_nil, List.drop_nil, List.filter_nil]
  | @cons a u b d ds hstep hrest ih =>
    have hplace : d.place = a.sequence + 1 := by rw [A2aMapperDelta.place, hstep.expected]
    rw [hstep.sequence] at ih
    rw [List.filter_cons, ih, hplace]
    by_cases hn : a.sequence + 1 ≤ n
    · obtain ⟨k, hk⟩ : ∃ k, n - a.sequence = k + 1 := ⟨n - a.sequence - 1, by omega⟩
      rw [hk, show n - (a.sequence + 1) = k by omega, List.take_succ_cons]
      by_cases hm : m < a.sequence + 1
      · rw [if_pos (decide_eq_true ⟨hm, hn⟩), show m - a.sequence = 0 by omega,
          show m - (a.sequence + 1) = 0 by omega]
        rfl
      · obtain ⟨j, hj⟩ : ∃ j, m - a.sequence = j + 1 := ⟨m - a.sequence - 1, by omega⟩
        rw [if_neg (by simp [hm]), hj, show m - (a.sequence + 1) = j by omega, List.drop_succ_cons]
    · rw [if_neg (by simp [hn]), show n - a.sequence = 0 by omega,
        show n - (a.sequence + 1) = 0 by omega, List.take_zero, List.take_zero, List.drop_nil,
        List.drop_nil]

/-- What a reader has come to, and can do next. -/
structure Delivers (H : JournalHost R) (s : InMemoryJournalState R) (calls : List (JournalCalled R))
    (point : A2aJournalRestorePoint) (pages : List (A2aJournalPage R)) (cursor : A2aJournalToken) :
    Prop where
  deltas : pages.flatMap (·.deltas) = (applied calls).filter fun d =>
    point.start.sequence < d.place ∧ d.place ≤ cursor.sequence
  through : ∀ page ∈ pages, page.through = point.manifest.head
  done : ∀ page ∈ pages, page.done = true → cursor = point.manifest.head
  next : (∀ page ∈ pages, page.done = false) → ∀ maxDeltas maxBytes,
    1 ≤ maxDeltas → maxDeltas ≤ a2aMapperJournalMaxPageDeltas →
    a2aMapperJournalMinPageBytes ≤ maxBytes → maxBytes ≤ a2aMapperJournalMaxPageBytes →
    ∃ page, Calls H s
        ⟨.readDeltaPage ⟨point.restoreId, cursor, maxDeltas, maxBytes⟩, .ok (.page page)⟩ s ∧
      (page.done = true ∨ cursor.sequence < page.nextAfter.sequence)

theorem A2aJournalPageRequest.validate_ok
    (hid : validateId "restore id" request.restoreId = .ok ())
    (hafter : request.after.validate = .ok ())
    (hdeltas : 1 ≤ request.maxDeltas ∧ request.maxDeltas ≤ a2aMapperJournalMaxPageDeltas)
    (hbytes : a2aMapperJournalMinPageBytes ≤ request.maxBytes ∧
      request.maxBytes ≤ a2aMapperJournalMaxPageBytes) : request.validate = .ok () := by
  unfold A2aJournalPageRequest.validate
  rw [hid, ok_bind, hafter, ok_bind, refuseIf_of_not (by omega), ok_bind]
  exact refuseIf_of_not (not_not.mpr hbytes)

/-- **The next page of a restore.** -/
theorem Handed.next_page {later : List (A2aMapperDelta R)} (request : A2aJournalPageRequest)
    (hhanded : Handed H ds pin pages cursor later) (h : Journaled H s base ds) (hpin : s.restorePins[request.restoreId]? = some pin)
    (hvalid : request.validate = .ok ()) (hafter : request.after = cursor)
    (hopen : ∀ page ∈ pages, page.done = false) :
    ∃ page, Calls H s ⟨.readDeltaPage request, .ok (.page page)⟩ s ∧
      (page.done = true ∨ request.after.sequence < page.nextAfter.sequence) := by
  obtain ⟨page, left, hpage, hrest, hchain, -, -, hdone, hmore⟩ :=
    h.readDeltaPage hpin hvalid hhanded.split (hafter ▸ hhanded.read) (hafter ▸ hhanded.rest)
      (hhanded.more hopen)
  refine ⟨page, run_map_eq_ok.mpr ⟨page, readDeltaPage_run.mpr ⟨hpage, rfl⟩, rfl⟩, ?_⟩
  by_cases hlast : later = []
  · left
    rw [hlast] at hrest
    exact hdone.mpr (List.append_eq_nil_iff.mp hrest.symm).2
  · right
    have hlength := List.length_pos_iff.mpr (hmore hlast)
    have hsequence := hchain.sequence
    omega

/-- **A restore reads its part of the journal**, whatever the other clients do. -/
theorem BoundedRun.restore {pre : List (JournalCalled R)} (hpre : BoundedRun H pre s)
    (hbegin : Calls H s ⟨.beginRestore, .ok (.restore point)⟩ t)
    (hmid : Path (BoundedCall H) t mid u)
    (hopen : ∀ called ∈ mid, called.call ≠ .finishRestore point.restoreId)
    (hreading : Reading point mid pages cursor) :
    Delivers H u (pre ++ ⟨.beginRestore, .ok (.restore point)⟩ :: mid) point pages cursor := by
  obtain ⟨base, hjournal⟩ := hpre.journaled
  obtain ⟨a, hrun, heq⟩ := run_map_eq_ok.mp hbegin
  cases heq
  obtain ⟨bytes, hbytes, hnext, rfl, rfl⟩ := beginRestore_ok hrun
  obtain ⟨hreached, hlt, hretained⟩ := hjournal.start hbytes
  have hbegun := hjournal.pin hreached hlt hretained hnext
  have hpin : (s.restoring (restoreStart H bytes)).restorePins[restoreName s.nextRestoreId]? =
      some ⟨restoreStart H bytes, s.manifest.head⟩ := BTreeMap.get_insert_self ..
  obtain ⟨later, hhanded⟩ := hreading.handed rfl hbegun hmid hpin hopen
  obtain ⟨base', hu⟩ := hbegun.path hmid
  have hpinned := hbegun.pinned _ _ hpin
  have happlied : applied (pre ++ ⟨.beginRestore, .ok (.restore
      ⟨restoreName s.nextRestoreId, s.manifest, bytes, restoreStart H bytes⟩)⟩ :: mid) =
      applied pre ++ applied mid := by
    rw [applied_append, applied_cons]
    rfl
  have hlength := hhanded.read.sequence
  have hsplit := hhanded.split
  rw [← part_append hpinned.through_le] at hsplit
  refine ⟨?_, hhanded.through, fun page hin hdone => ?_, ?_⟩
  · have hall := congrArg (List.take (pages.flatMap (·.deltas)).length) hsplit
    rw [List.take_left, part, List.take_drop, List.take_take] at hall
    have hle : cursor.sequence ≤ s.manifest.head.sequence := by
      have hrest := hhanded.rest.sequence
      show _ ≤ (⟨restoreStart H bytes, s.manifest.head⟩ : RestorePin).through.sequence
      omega
    have hcursor : min ((restoreStart H bytes).sequence + (pages.flatMap (·.deltas)).length)
        s.manifest.head.sequence = cursor.sequence := by
      rw [← hlength]
      exact Nat.min_eq_left hle
    rw [happlied, hu.chain.filter_place, hu.base_sequence, Nat.sub_zero, Nat.sub_zero, ← hall,
      hcursor]
  · have hnil := hhanded.done page hin hdone
    have hrest := hhanded.rest
    rw [hnil] at hrest
    exact Chain.eq_of_nil hrest
  · intro hnot maxDeltas maxBytes hone hmost hmin hmax
    have hid : validateId "restore id" (restoreName s.nextRestoreId) = .ok () :=
      validateId_restoreName (Nat.le_of_succ_le hnext) _
    have hcursor : cursor.validate = .ok () :=
      hhanded.read.validate hpinned.start_validate
    have hpin' := pin_of_path ⟨base, hbegun⟩ hmid hpin hopen
    have hlater : Handed H (applied pre ++ applied mid) _ pages cursor later :=
      ⟨hsplit, hhanded.read, hhanded.rest, hhanded.through, hhanded.done, hhanded.more⟩
    refine hlater.next_page ⟨_, cursor, maxDeltas, maxBytes⟩ hu hpin' ?_ rfl hnot
    exact A2aJournalPageRequest.validate_ok hid hcursor ⟨hone, hmost⟩ ⟨hmin, hmax⟩

end

/-- The restore of the first two deltas. -/
def secondRestore : A2aJournalRestorePoint := ⟨restoreName 1, countManifest 2, none, countToken 0⟩

/-- Another client appends while the restore is open, and its reader reads a page. -/
def readBehind (page : A2aJournalPage plainRecords) : List (JournalCalled plainRecords) :=
  [⟨.appendDelta (countDelta 2), .ok (.appended .applied)⟩,
    ⟨.readDeltaPage ⟨restoreName 1, countToken 0, 1, a2aMapperJournalMinPageBytes⟩, .ok (.page page)⟩]

theorem restore_second : ∃ s page,
    Delivers countingHost s
      (appends 2 ++ ⟨.beginRestore, .ok (.restore secondRestore)⟩ :: readBehind page) secondRestore [page]
      page.nextAfter ∧
    countDelta 0 ∈ page.deltas := by
  obtain ⟨s, hrun, hcounted⟩ := exists_count 2 (by decide)
  obtain ⟨base, hjournal⟩ := hrun.journaled
  have hmanifest := hcounted.manifest
  have hbytes : s.activeBytes countingHost = .ok none := by
    unfold activeBytes
    rw [hmanifest]
    rfl
  have hnext : s.nextRestoreId + 1 ≤ u64Max := by
    rw [hcounted.next]
    decide
  have hstarted := run_beginRestore hjournal hnext hbytes
  rw [hcounted.next, hmanifest] at hstarted
  have hbegin : Calls countingHost s ⟨.beginRestore, .ok (.restore secondRestore)⟩
      (s.restoring (countToken 0)) := run_map_eq_ok.mpr ⟨secondRestore, hstarted, rfl⟩
  -- The other client's delta is the next one.
  have hbegun : BoundedRun countingHost (appends 2 ++ [⟨.beginRestore, .ok (.restore secondRestore)⟩])
      (s.restoring (countToken 0)) := hrun.append (.single ⟨hbegin, fun h => h.elim⟩)
  obtain ⟨base', hjournal'⟩ := hbegun.journaled
  have happlied : applied (appends 2 ++ [⟨.beginRestore, .ok (.restore secondRestore)⟩]) =
      (List.range 2).map countDelta := by
    rw [applied_append, applied_appends]
    rfl
  rw [happlied] at hjournal'
  have hother : BoundedCall countingHost (s.restoring (countToken 0))
      ⟨.appendDelta (countDelta 2), .ok (.appended .applied)⟩
      ((s.restoring (countToken 0)).appended countingHost (countDelta 2) (countToken 3)) := by
    refine ⟨run_map_eq_ok.mpr ⟨.applied, ?_, rfl⟩, fun _ => ?_⟩
    · exact run_append_count hjournal' hmanifest (by decide)
    · show s.manifest.generation < u64Max
      rw [hmanifest]
      decide
  have hfirst := BoundedRun.restore hrun hbegin (.single hother) (by simp) (.wait _ .start)
  obtain ⟨page, hpage, hprogress⟩ := hfirst.next nofun 1 a2aMapperJournalMinPageBytes (by decide)
    (by decide) (by decide) (by decide)
  have hwaiting : Reading secondRestore [⟨.appendDelta (countDelta 2), .ok (.appended .applied)⟩] []
      (countToken 0) := .wait _ .start
  have hreading : Reading secondRestore (readBehind page) [page] page.nextAfter :=
    @Reading.read _ _ _ _ ⟨restoreName 1, countToken 0, 1, a2aMapperJournalMinPageBytes⟩ page hwaiting
      rfl fun _ hin => absurd hin List.not_mem_nil
  have hmid : Path (BoundedCall countingHost) (s.restoring (countToken 0)) (readBehind page) _ :=
    .cons hother (.single ⟨hpage, fun h => h.elim⟩)
  have hread := BoundedRun.restore hrun hbegin hmid (by simp [readBehind]) hreading
  have hone : 1 ≤ page.nextAfter.sequence := by
    rcases hprogress with hdone | hlater
    · rw [hread.done page (List.mem_singleton.mpr rfl) hdone]
      decide
    · exact hlater
  have hall : applied (appends 2 ++ ⟨.beginRestore, .ok (.restore secondRestore)⟩ :: readBehind page) =
      [countDelta 0, countDelta 1, countDelta 2] := by
    rw [applied_append, applied_appends]
    rfl
  have hdeltas := hread.deltas
  rw [List.flatMap_singleton, hall] at hdeltas
  refine ⟨_, page, hread, ?_⟩
  rw [hdeltas]
  exact List.mem_filter.mpr ⟨List.mem_cons_self, decide_eq_true ⟨by decide, hone⟩⟩

end AikitRuntime.Journal

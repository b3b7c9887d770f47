import AikitRuntime.Memory.Searches

/-!
# Calls on the memory stores

The three stores are given the same calls, at the same times.
-/

namespace AikitRuntime.Memory

open Std JsonFileMemoryStore
open Library Durability

section

variable {Store : Type} (call : Store → Surroundings → MemoryCall → Outcome Store)

/-- The answers to some calls, each at its time. Nothing is refused. -/
def answers : Store → List (Nat × MemoryCall) → List (Except String MemoryAnswer)
  | _, [] => []
  | store, (now, asked) :: rest => (call store ⟨now, none⟩ asked).1 :: answers (call store ⟨now, none⟩ asked).2 rest

/-- The store after some calls. -/
def afterCalls : Store → List (Nat × MemoryCall) → Store
  | store, [] => store
  | store, (now, asked) :: rest => afterCalls (call store ⟨now, none⟩ asked).2 rest

/-- A call that fails changes nothing, whatever refuses it. -/
def KeepsOnError : Prop := ∀ (store : Store) (around : Surroundings) (asked : MemoryCall) (error : String),
  (call store around asked).1 = .error error → (call store around asked).2 = store

end

section

variable [Alphanumeric] {entries : AddressMap MemoryEntry} {now : Nat} {asked : MemoryCall}

/-! ### Failures -/

/-- The store is as it was if the answer is an error. -/
def Leaves {Store : Type} (store : Store) (outcome : Outcome Store) : Prop :=
  ∀ error, outcome.1 = .error error → outcome.2 = store

omit [Alphanumeric] in
theorem leaves_same {Store : Type} {answer : Except String MemoryAnswer} {store : Store} : Leaves store (answer, store) :=
  fun _ _ => rfl

variable {answer : MemoryAnswer} {around : Surroundings} {error : String}

omit [Alphanumeric] in
theorem leaves_ok {Store : Type} {store store' : Store} : Leaves store (.ok answer, store') := by
  intro error herror
  cases herror

theorem keepsOnError_inMemory : KeepsOnError InMemoryMemoryStore.call := by
  intro store around asked
  show Leaves store (store.call around asked)
  cases asked with
  | put entry =>
    show Leaves store (store.put around entry)
    unfold InMemoryMemoryStore.put
    split
    · exact leaves_same
    · exact leaves_ok
  | get namespace_ key => exact leaves_same
  | search query => exact leaves_same
  | delete namespace_ key => exact leaves_ok
  | compareAndSwap entry expectedRevision =>
    show Leaves store (store.compareAndSwap around entry expectedRevision)
    unfold InMemoryMemoryStore.compareAndSwap
    split
    · exact leaves_same
    · exact leaves_ok

omit [Alphanumeric] in
theorem leaves_install {store : JsonFileMemoryStore} {next : AddressMap MemoryEntry} :
    Leaves store (store.install around next answer) := by
  unfold install
  split
  · exact leaves_same
  · exact leaves_ok

theorem keepsOnError_json : KeepsOnError call := by
  intro store around asked
  show Leaves store (store.call around asked)
  cases asked with
  | put entry =>
    show Leaves store (store.put around entry)
    unfold put
    split
    · exact leaves_same
    · exact leaves_install
  | get namespace_ key => exact leaves_same
  | search query => exact leaves_same
  | delete namespace_ key =>
    show Leaves store (store.delete around namespace_ key)
    unfold delete
    split
    · exact leaves_install
    · exact leaves_same
  | compareAndSwap entry expectedRevision =>
    show Leaves store (store.compareAndSwap around entry expectedRevision)
    unfold compareAndSwap
    split
    · exact leaves_same
    · exact leaves_install

variable {entry : MemoryEntry}

omit [Alphanumeric] in
theorem leaves_upsert {store : SqliteMemoryStore} : Leaves store (store.upsert around entry answer) := by
  unfold SqliteMemoryStore.upsert
  split
  · exact leaves_same
  · exact leaves_ok

theorem keepsOnError_sqlite : KeepsOnError SqliteMemoryStore.call := by
  intro store around asked
  show Leaves store (store.call around asked)
  cases asked with
  | put entry =>
    show Leaves store (store.put around entry)
    unfold SqliteMemoryStore.put
    split
    · exact leaves_same
    · exact leaves_upsert
  | get namespace_ key => exact leaves_same
  | search query => exact leaves_same
  | delete namespace_ key =>
    show Leaves store (store.delete around namespace_ key)
    unfold SqliteMemoryStore.delete
    split
    · exact leaves_same
    · exact leaves_ok
  | compareAndSwap entry expectedRevision =>
    show Leaves store (store.compareAndSwap around entry expectedRevision)
    unfold SqliteMemoryStore.compareAndSwap
    split
    · exact leaves_same
    · exact leaves_upsert

/-! ### What is stored -/

variable {existing : Option MemoryEntry} {stored : MemoryEntry}

omit [Alphanumeric] in
theorem putEntry_stored
    (h : (do validateEntry entry; putEntry now existing entry) = .ok stored) :
    validateEntry stored = .ok () ∧ 0 < stored.revision := by
  obtain ⟨⟨⟩, hvalid, hput⟩ := bind_eq_ok.mp h
  cases existing with
  | none =>
    cases hput
    exact ⟨hvalid, Nat.one_pos⟩
  | some existing =>
    obtain ⟨revision, hrevision, hput⟩ := bind_eq_ok.mp hput
    cases hput
    obtain ⟨heq, -⟩ := checkedAdd_eq_some.mp (okOr_eq_ok.mp hrevision)
    exact ⟨hvalid, heq ▸ Nat.succ_pos _⟩

omit [Alphanumeric] in
theorem swapEntry_stored {expectedRevision : Nat}
    (h : (do validateEntry entry; swapEntry now existing entry expectedRevision) = .ok stored) :
    validateEntry stored = .ok () ∧ 0 < stored.revision := by
  obtain ⟨⟨⟩, hvalid, hswap⟩ := bind_eq_ok.mp h
  unfold swapEntry at hswap
  obtain ⟨-, -, hswap⟩ := bind_eq_ok.mp hswap
  obtain ⟨revision, hrevision, hswap⟩ := bind_eq_ok.mp hswap
  cases hswap
  obtain ⟨heq, -⟩ := checkedAdd_eq_some.mp (okOr_eq_ok.mp hrevision)
  exact ⟨hvalid, heq ▸ Nat.succ_pos _⟩

/-- A call keeps the entries sound. -/
theorem Sound.call (h : Sound entries) (around : Surroundings) (asked : MemoryCall) :
    Sound ((⟨entries⟩ : InMemoryMemoryStore).call around asked).2.entries := by
  cases asked with
  | put entry =>
    show Sound ((⟨entries⟩ : InMemoryMemoryStore).put around entry).2.entries
    unfold InMemoryMemoryStore.put
    split
    · exact h
    · next stored hput => exact h.insert (putEntry_stored hput).1 (putEntry_stored hput).2
  | get namespace_ key => exact h
  | search query => exact h
  | delete namespace_ key => exact h.erase _
  | compareAndSwap entry expectedRevision =>
    show Sound ((⟨entries⟩ : InMemoryMemoryStore).compareAndSwap around entry expectedRevision).2.entries
    unfold InMemoryMemoryStore.compareAndSwap
    split
    · exact h
    · next stored hswap => exact h.insert (swapEntry_stored hswap).1 (swapEntry_stored hswap).2

/-! ### The store with a file -/

omit [Alphanumeric] in
theorem erase_of_not_contains {V : Type} {m : AddressMap V} {address : Address} (h : m.contains address = false) :
    m.erase address = m := by
  refine ExtTreeMap.ext_getElem? fun other => ?_
  rw [ExtTreeMap.getElem?_erase]
  split
  · next heq =>
    rw [← LawfulEqCmp.eq_of_compare heq]
    exact (ExtTreeMap.getElem?_eq_none_of_contains_eq_false h).symm
  · rfl

/-- **The store with a file answers as the one in memory does**, and keeps the same entries. -/
theorem json_call (file : List MemoryEntry) (entries : AddressMap MemoryEntry) (now : Nat) (asked : MemoryCall) :
    ((⟨file, entries⟩ : JsonFileMemoryStore).call ⟨now, none⟩ asked).1 =
        ((⟨entries⟩ : InMemoryMemoryStore).call ⟨now, none⟩ asked).1 ∧
      ((⟨file, entries⟩ : JsonFileMemoryStore).call ⟨now, none⟩ asked).2.entries =
        ((⟨entries⟩ : InMemoryMemoryStore).call ⟨now, none⟩ asked).2.entries := by
  cases asked with
  | put entry =>
    simp only [call, InMemoryMemoryStore.call, put, InMemoryMemoryStore.put]
    split
    · exact ⟨rfl, rfl⟩
    · exact ⟨rfl, rfl⟩
  | get namespace_ key => exact ⟨rfl, rfl⟩
  | search query => exact ⟨rfl, rfl⟩
  | delete namespace_ key =>
    simp only [call, InMemoryMemoryStore.call, delete,
      InMemoryMemoryStore.delete]
    cases hcontains : entries.contains (namespace_, key) with
    | true => exact ⟨rfl, rfl⟩
    | false => exact ⟨rfl, (erase_of_not_contains hcontains).symm⟩
  | compareAndSwap entry expectedRevision =>
    simp only [call, InMemoryMemoryStore.call, compareAndSwap,
      InMemoryMemoryStore.compareAndSwap]
    split
    · exact ⟨rfl, rfl⟩
    · exact ⟨rfl, rfl⟩

theorem answers_json (file : List MemoryEntry) (entries : AddressMap MemoryEntry) (calls : List (Nat × MemoryCall)) :
    answers call ⟨file, entries⟩ calls = answers InMemoryMemoryStore.call ⟨entries⟩ calls := by
  induction calls generalizing file entries with
  | nil => rfl
  | cons call rest ih =>
    obtain ⟨hanswer, hentries⟩ := json_call file entries call.1 call.2
    rw [answers, answers, hanswer]
    refine congrArg _ ((ih _ _).trans ?_)
    rw [hentries]

/-! ### SQLite -/

omit [Alphanumeric] in
theorem tableOf_empty : tableOf ∅ = .empty := by
  refine congrArg SqliteMemoryStore.mk (ExtTreeMap.ext_getElem? fun address => ?_)
  rw [ExtTreeMap.getElem?_map]
  rfl

omit [Alphanumeric] in
theorem tableOf_insert (entry : MemoryEntry) :
    (tableOf entries).rows.insert entry.address entry.row = (tableOf (entries.insert entry.address entry)).rows := by
  refine ExtTreeMap.ext_getElem? fun address => ?_
  simp only [tableOf, ExtTreeMap.getElem?_map, ExtTreeMap.getElem?_insert]
  split
  · rfl
  · rfl

omit [Alphanumeric] in
theorem tableOf_erase (address : Address) :
    (tableOf entries).rows.erase address = (tableOf (entries.erase address)).rows := by
  refine ExtTreeMap.ext_getElem? fun other => ?_
  simp only [tableOf, ExtTreeMap.getElem?_map, ExtTreeMap.getElem?_erase]
  split
  · rfl
  · rfl

/-- **SQLite answers all but searches as the store in memory does**, and keeps the rows of the same entries. -/
theorem sqlite_call (h : Sound entries) (now : Nat) (hasked : ∀ query, asked ≠ .search query) :
    (tableOf entries).call ⟨now, none⟩ asked =
      (((⟨entries⟩ : InMemoryMemoryStore).call ⟨now, none⟩ asked).1,
        tableOf ((⟨entries⟩ : InMemoryMemoryStore).call ⟨now, none⟩ asked).2.entries) := by
  cases asked with
  | put entry =>
    simp only [SqliteMemoryStore.call, InMemoryMemoryStore.call, SqliteMemoryStore.put, InMemoryMemoryStore.put,
      h.existing, ok_bind]
    split
    · rfl
    · next stored _ => exact congrArg (Prod.mk _) (congrArg SqliteMemoryStore.mk (tableOf_insert stored))
  | get namespace_ key =>
    simp only [SqliteMemoryStore.call, InMemoryMemoryStore.call, SqliteMemoryStore.get, h.existing]
    rfl
  | search query => exact absurd rfl (hasked query)
  | delete namespace_ key =>
    have hcontains : (tableOf entries).rows.contains (namespace_, key) = entries.contains (namespace_, key) :=
      ExtTreeMap.contains_map
    simp only [SqliteMemoryStore.call, InMemoryMemoryStore.call, SqliteMemoryStore.delete, InMemoryMemoryStore.delete,
      hcontains]
    exact congrArg (Prod.mk _) (congrArg SqliteMemoryStore.mk (tableOf_erase _))
  | compareAndSwap entry expectedRevision =>
    simp only [SqliteMemoryStore.call, InMemoryMemoryStore.call, SqliteMemoryStore.compareAndSwap,
      InMemoryMemoryStore.compareAndSwap, h.existing, ok_bind]
    split
    · rfl
    · next stored _ => exact congrArg (Prod.mk _) (congrArg SqliteMemoryStore.mk (tableOf_insert stored))

/-- Every search of some calls finds the same in all stores. -/
def FindsAlike (store : InMemoryMemoryStore) (calls : List (Nat × MemoryCall)) : Prop :=
  ∀ before now query after, calls = before ++ (now, .search query) :: after →
    SearchesAlike query (afterCalls InMemoryMemoryStore.call store before).entries

theorem findsAlike_cons (store : InMemoryMemoryStore) (now : Nat) (asked : MemoryCall) (rest : List (Nat × MemoryCall)) :
    FindsAlike store ((now, asked) :: rest) ↔
      (∀ query, asked = .search query → SearchesAlike query store.entries) ∧
        FindsAlike (store.call ⟨now, none⟩ asked).2 rest := by
  constructor
  · intro hall
    constructor
    · rintro query rfl
      exact hall [] now query rest rfl
    · rintro before later query after rfl
      exact hall ((now, asked) :: before) later query after rfl
  · rintro ⟨hfirst, hrest⟩ before later query after hsplit
    cases before with
    | nil =>
      obtain ⟨hcall, -⟩ := List.cons.inj hsplit
      exact hfirst query (congrArg Prod.snd hcall)
    | cons call before =>
      obtain ⟨rfl, hrest'⟩ := List.cons.inj hsplit
      exact hrest before later query after hrest'

theorem answers_sqlite_iff (h : Sound entries) (calls : List (Nat × MemoryCall)) :
    answers SqliteMemoryStore.call (tableOf entries) calls = answers InMemoryMemoryStore.call ⟨entries⟩ calls ↔
      FindsAlike ⟨entries⟩ calls := by
  induction calls generalizing entries with
  | nil => exact iff_of_true rfl fun before _ _ _ hsplit => by cases before <;> cases hsplit
  | cons call rest ih =>
    obtain ⟨now, asked⟩ := call
    rw [findsAlike_cons, answers, answers, List.cons.injEq]
    by_cases hasked : ∃ query, asked = .search query
    · obtain ⟨query, rfl⟩ := hasked
      have hstays : ((tableOf entries).call ⟨now, none⟩ (.search query)).2 = tableOf entries := rfl
      rw [hstays]
      refine and_congr ((searches_agree_iff h query).trans ?_) (ih h)
      exact ⟨fun halike other heq => by cases heq; exact halike, fun hall => hall query rfl⟩
    · have hother : ∀ query, asked ≠ .search query := fun query heq => hasked ⟨query, heq⟩
      rw [sqlite_call h now hother]
      refine and_congr (iff_of_true rfl fun query heq => absurd heq (hother query)) (ih (h.call ⟨now, none⟩ asked))

/-- **When the stores answer alike.** The store with a file always answers as the one in memory does. SQLite does
if every search, in the entries there are by then, finds the same in its order as by rank. A call that fails changes
nothing, in any of the stores. -/
theorem memoryStores_agree_iff (calls : List (Nat × MemoryCall)) :
    (answers call .empty calls = answers InMemoryMemoryStore.call .empty calls ∧
      answers SqliteMemoryStore.call .empty calls = answers InMemoryMemoryStore.call .empty calls ∧
      KeepsOnError InMemoryMemoryStore.call ∧ KeepsOnError call ∧
      KeepsOnError SqliteMemoryStore.call) ↔
      ∀ before now query after, calls = before ++ (now, .search query) :: after →
        SearchesAlike query (afterCalls InMemoryMemoryStore.call .empty before).entries := by
  have hsqlite := answers_sqlite_iff sound_empty calls
  rw [tableOf_empty] at hsqlite
  constructor
  · rintro ⟨-, halike, -⟩
    exact hsqlite.mp halike
  · intro halike
    exact ⟨answers_json [] ∅ calls, hsqlite.mpr halike, keepsOnError_inMemory, keepsOnError_json, keepsOnError_sqlite⟩

end

/-- Letters and digits of ASCII. -/
@[reducible] def asciiAlphanumeric : Alphanumeric := ⟨Char.isAlphanum⟩

/-- A note of an agent. -/
def noteOf (key value : String) (importance : Nat) : MemoryEntry where
  namespace_ := "agent"
  key := key
  value := .string value
  plane := .semantic
  revision := 0
  provenance := ⟨none, none, false⟩
  tags := ∅
  importance := importance
  createdUnixMs := 0
  updatedUnixMs := 0

/-- An important note with one of the words, and a less important one with both. -/
def fruitNotes : List (Nat × MemoryCall) :=
  [(0, .put (noteOf "a" "apple" 90)), (0, .put (noteOf "b" "apple pie" 10))]

def fruitQuery : MemoryQuery := ⟨"agent", "apple pie", ∅, 1, none⟩

/-- The notes that mention one of the words. -/
def fruitFound : List MemoryEntry :=
  let _ : Alphanumeric := asciiAlphanumeric
  (fruitQuery.selected (afterCalls InMemoryMemoryStore.call .empty fruitNotes).entries).filter fruitQuery.matches_

theorem length_fruitFound : fruitFound.length = 2 := by decide +kernel

/-- Where one note is asked for, the store in memory finds the one with both words, and SQLite the important one. -/
theorem memoryStores_differ : let _ : Alphanumeric := asciiAlphanumeric
    ¬ answers SqliteMemoryStore.call .empty (fruitNotes ++ [(0, .search fruitQuery)]) =
      answers InMemoryMemoryStore.call .empty (fruitNotes ++ [(0, .search fruitQuery)]) := by
  dsimp only
  intro hanswers
  rw [← tableOf_empty] at hanswers
  have halike := (@answers_sqlite_iff asciiAlphanumeric _ sound_empty _).mp hanswers fruitNotes 0 fruitQuery [] rfl
  unfold SearchesAlike at halike
  rw [if_neg (by decide)] at halike
  have hagree := halike.1 fruitFound[0] (List.getElem_mem (length_fruitFound ▸ Nat.zero_lt_two)) fruitFound[1]
    (List.getElem_mem (length_fruitFound ▸ Nat.one_lt_two))
  exact absurd (hagree (by decide +kernel) (by decide +kernel)) (by decide +kernel)

end AikitRuntime.Memory

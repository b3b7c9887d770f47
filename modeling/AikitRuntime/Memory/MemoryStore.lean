import AikitRuntime.Durability.Sha256
import AikitRuntime.Library.Counters
import AikitRuntime.Library.Refusals
import AikitRuntime.Library.SortedMaps
import AikitRuntime.Library.Sorting
import Mathlib.Data.List.Infix
import Mathlib.Data.String.Basic

/-!
# Memory stores

A memory store keeps entries, each under a namespace and a key, with a revision. Three stores are built in: one in
memory, one that also writes a file, and one in SQLite.

A search takes the words of a text, and finds the entries of a namespace with one of them. The first two stores rank
what they find by `rank_entries`; the third reads its rows in an order of SQL's.

What a call reads of its surroundings comes with the call: the clock, and whether the file or the transaction is
refused, in which case nothing of it is written. A column of JSON is the entry that it decodes to. The hash maps are
sorted here; `rankEntries_congr` says that a search cannot tell.
-/

namespace AikitRuntime.Memory

open Std
open Library Durability

/-- `char::is_alphanumeric`. -/
class Alphanumeric where
  isAlphanumeric : Char → Bool

export Alphanumeric (isAlphanumeric)

/-! ### Entries -/

/-- `MemoryPlane`. -/
inductive MemoryPlane where
  | working
  | episodic
  | semantic
  deriving DecidableEq

/-- `MemoryProvenance`. -/
structure MemoryProvenance where
  sourceRunId : Option String
  sourceEventSequence : Option Nat
  modelGenerated : Bool
  deriving DecidableEq

/-- `MemoryEntry`. -/
structure MemoryEntry where
  namespace_ : String
  key : String
  value : Value
  plane : MemoryPlane
  revision : Nat
  provenance : MemoryProvenance
  tags : BTreeSet
  importance : Nat
  createdUnixMs : Nat
  updatedUnixMs : Nat

/-- `MemoryQuery`. -/
structure MemoryQuery where
  namespace_ : String
  text : String
  tags : BTreeSet
  limit : Nat
  plane : Option MemoryPlane

/-- A namespace and a key. -/
abbrev Address : Type := String × String

def MemoryEntry.address (entry : MemoryEntry) : Address := (entry.namespace_, entry.key)

def addressCmp : Address → Address → Ordering :=
  compareLex (fun a b => keyCmp a.1 b.1) (fun a b => keyCmp a.2 b.2)

instance : TransCmp addressCmp := by
  have hfirst : TransCmp fun a b : Address => keyCmp a.1 b.1 :=
    { eq_swap := OrientedCmp.eq_swap, isLE_trans := TransCmp.isLE_trans }
  have hsecond : TransCmp fun a b : Address => keyCmp a.2 b.2 :=
    { eq_swap := OrientedCmp.eq_swap, isLE_trans := TransCmp.isLE_trans }
  exact inferInstanceAs (TransCmp (compareLex _ _))

instance : LawfulEqCmp addressCmp where
  eq_of_compare {a b} h := by
    obtain ⟨h1, h2⟩ := compareLex_eq_eq.mp h
    exact Prod.ext (keyCmp_eq_iff.mp h1) (keyCmp_eq_iff.mp h2)

/-- `HashMap<(String, String), V>`. -/
abbrev AddressMap (V : Type) : Type := ExtTreeMap Address V addressCmp

/-- The values of a map. -/
def valuesOf {V : Type} (m : AddressMap V) : List V := m.toList.map Prod.snd

def maxNamespaceBytes : Nat := 256

def maxKeyBytes : Nat := 512

/-- `validate_entry`. -/
def validateEntry (entry : MemoryEntry) : Except String Unit := do
  refuseIf (isBlank entry.namespace_ ∨ isBlank entry.key) "memory namespace and key must be non-empty"
  refuseIf (maxNamespaceBytes < entry.namespace_.utf8ByteSize ∨ maxKeyBytes < entry.key.utf8ByteSize)
    "memory namespace/key exceeds length limit"
  refuseIf (100 < entry.importance) "memory importance must be between 0 and 100"

/-- `normalize_persisted_entry`. -/
def normalizePersistedEntry (entry : MemoryEntry) : Except String MemoryEntry := do
  let entry := if entry.revision = 0 then { entry with revision := 1 } else entry
  let entry := if 100 < entry.importance then { entry with importance := 100 } else entry
  validateEntry entry
  pure entry

/-- `next_memory_revision`. -/
def nextMemoryRevision (revision : Nat) : Except String Nat :=
  okOr (checkedAdd revision 1) "memory revision overflow"

/-- What `put` stores, over what is there. -/
def putEntry (now : Nat) (existing : Option MemoryEntry) (entry : MemoryEntry) : Except String MemoryEntry :=
  match existing with
  | some existing => do
    let revision ← nextMemoryRevision existing.revision
    pure { entry with createdUnixMs := existing.createdUnixMs, revision, updatedUnixMs := now }
  | none => pure { entry with revision := 1, updatedUnixMs := now }

/-- What `compare_and_swap` stores, over what is there. -/
def swapEntry (now : Nat) (existing : Option MemoryEntry) (entry : MemoryEntry) (expectedRevision : Nat) :
    Except String MemoryEntry := do
  let actual := (existing.map MemoryEntry.revision).getD 0
  refuseIf (actual ≠ expectedRevision) s!"memory revision conflict: expected {expectedRevision}, found {actual}"
  let createdUnixMs := (existing.map MemoryEntry.createdUnixMs).getD entry.createdUnixMs
  let revision ← nextMemoryRevision actual
  pure { entry with createdUnixMs, revision, updatedUnixMs := now }

/-! ### Searches -/

section

variable [Alphanumeric]

/-- The words of a text, each as its characters. -/
def queryWords (text : String) : List (List Char) :=
  ((text.toList.splitOnP fun c => !isAlphanumeric c).filter fun word => !word.isEmpty).map (·.map Char.toLower)

/-- `format!("{} {}", entry.key, entry.value).to_ascii_lowercase()`. A value is shown as its JSON; its objects are
sorted. -/
def MemoryEntry.haystack (entry : MemoryEntry) : List Char :=
  (entry.key.toList ++ ' ' :: canonicalJson entry.value).map Char.toLower

/-- `haystack.contains(word)`. -/
def MemoryEntry.mentions (entry : MemoryEntry) (word : List Char) : Bool := word <:+: entry.haystack

/-- What all stores ask of an entry besides the words. -/
def MemoryQuery.selects (query : MemoryQuery) (entry : MemoryEntry) : Bool :=
  entry.namespace_ = query.namespace_ && query.plane.all (fun plane => entry.plane = plane) &&
    query.tags.isSubset entry.tags

/-- How many of the words an entry mentions. -/
def MemoryQuery.wordScore (query : MemoryQuery) (entry : MemoryEntry) : Nat :=
  (queryWords query.text).dedup.countP entry.mentions

/-- `query.tags.intersection(&entry.tags).count()`. -/
def MemoryQuery.tagScore (query : MemoryQuery) (entry : MemoryEntry) : Nat :=
  query.tags.elements.countP entry.tags.contains

def MemoryQuery.score (query : MemoryQuery) (entry : MemoryEntry) : Nat := query.wordScore entry + query.tagScore entry

/-- The higher importance first, then the later update, then by key. -/
def MemoryEntry.recency (entry : MemoryEntry) : ℕᵒᵈ ×ₗ ℕᵒᵈ ×ₗ String :=
  toLex (OrderDual.toDual entry.importance, toLex (OrderDual.toDual entry.updatedUnixMs, entry.key))

/-- The largest number of entries a search returns. -/
def MemoryQuery.bound (query : MemoryQuery) : Nat := min query.limit 100

/-- `rank_entries`. -/
def rankEntries (entries : List MemoryEntry) (query : MemoryQuery) : List MemoryEntry :=
  let found := (entries.filter query.selects).filter fun entry =>
    (queryWords query.text).isEmpty || 0 < query.score entry
  (sortByKey (scored query.score MemoryEntry.recency) found).take query.bound

/-- No word is asked for, or one of them is mentioned. -/
def MemoryQuery.matches_ (query : MemoryQuery) (entry : MemoryEntry) : Bool :=
  (queryWords query.text).isEmpty || (queryWords query.text).any entry.mentions

end

/-! ### Calls -/

/-- What a call reads of its surroundings: the clock, and what refuses it, if anything. -/
structure Surroundings where
  now : Nat
  refusal : Option String

/-- A call of `MemoryStore`. -/
inductive MemoryCall where
  | put (entry : MemoryEntry)
  | get (namespace_ key : String)
  | search (query : MemoryQuery)
  | delete (namespace_ key : String)
  | compareAndSwap (entry : MemoryEntry) (expectedRevision : Nat)

/-- What a call returns. -/
inductive MemoryAnswer where
  | stored
  | entry (found : Option MemoryEntry)
  | entries (found : List MemoryEntry)
  | deleted (existed : Bool)
  | swapped (revision : Nat)

/-- The outcome of a call, and the store after it. -/
abbrev Outcome (Store : Type) : Type := Except String MemoryAnswer × Store

/-- `InMemoryMemoryStore`. -/
structure InMemoryMemoryStore where
  entries : AddressMap MemoryEntry

namespace InMemoryMemoryStore

variable (store : InMemoryMemoryStore)

def empty : InMemoryMemoryStore := ⟨∅⟩

def put (around : Surroundings) (entry : MemoryEntry) : Outcome InMemoryMemoryStore :=
  match (do validateEntry entry; putEntry around.now store.entries[entry.address]? entry) with
  | .error error => (.error error, store)
  | .ok entry => (.ok .stored, ⟨store.entries.insert entry.address entry⟩)

def delete (namespace_ key : String) : Outcome InMemoryMemoryStore :=
  (.ok (.deleted (store.entries.contains (namespace_, key))), ⟨store.entries.erase (namespace_, key)⟩)

def compareAndSwap (around : Surroundings) (entry : MemoryEntry) (expectedRevision : Nat) :
    Outcome InMemoryMemoryStore :=
  match (do validateEntry entry; swapEntry around.now store.entries[entry.address]? entry expectedRevision) with
  | .error error => (.error error, store)
  | .ok entry => (.ok (.swapped entry.revision), ⟨store.entries.insert entry.address entry⟩)

/-- `impl MemoryStore for InMemoryMemoryStore`. -/
def call [Alphanumeric] (store : InMemoryMemoryStore) (around : Surroundings) : MemoryCall → Outcome InMemoryMemoryStore
  | .put entry => store.put around entry
  | .get namespace_ key => (.ok (.entry store.entries[(namespace_, key)]?), store)
  | .search query => (.ok (.entries (rankEntries (valuesOf store.entries) query)), store)
  | .delete namespace_ key => store.delete namespace_ key
  | .compareAndSwap entry expectedRevision => store.compareAndSwap around entry expectedRevision

end InMemoryMemoryStore

/-- `JsonFileMemoryStore`: the entries, and those in its file, in the order of their addresses. -/
structure JsonFileMemoryStore where
  file : List MemoryEntry
  entries : AddressMap MemoryEntry

namespace JsonFileMemoryStore

variable (store : JsonFileMemoryStore)

def empty : JsonFileMemoryStore := ⟨[], ∅⟩

/-- `self.persist(&next)?; *entries = next`. -/
def install (around : Surroundings) (next : AddressMap MemoryEntry) (answer : MemoryAnswer) :
    Outcome JsonFileMemoryStore :=
  match around.refusal with
  | some error => (.error error, store)
  | none => (.ok answer, ⟨valuesOf next, next⟩)

def put (around : Surroundings) (entry : MemoryEntry) : Outcome JsonFileMemoryStore :=
  match (do validateEntry entry; putEntry around.now store.entries[entry.address]? entry) with
  | .error error => (.error error, store)
  | .ok entry => store.install around (store.entries.insert entry.address entry) .stored

def delete (around : Surroundings) (namespace_ key : String) : Outcome JsonFileMemoryStore :=
  if store.entries.contains (namespace_, key) then
    store.install around (store.entries.erase (namespace_, key)) (.deleted true)
  else (.ok (.deleted false), store)

def compareAndSwap (around : Surroundings) (entry : MemoryEntry) (expectedRevision : Nat) :
    Outcome JsonFileMemoryStore :=
  match (do validateEntry entry; swapEntry around.now store.entries[entry.address]? entry expectedRevision) with
  | .error error => (.error error, store)
  | .ok entry => store.install around (store.entries.insert entry.address entry) (.swapped entry.revision)

/-- `impl MemoryStore for JsonFileMemoryStore`. -/
def call [Alphanumeric] (store : JsonFileMemoryStore) (around : Surroundings) : MemoryCall → Outcome JsonFileMemoryStore
  | .put entry => store.put around entry
  | .get namespace_ key => (.ok (.entry store.entries[(namespace_, key)]?), store)
  | .search query => (.ok (.entries (rankEntries (valuesOf store.entries) query)), store)
  | .delete namespace_ key => store.delete around namespace_ key
  | .compareAndSwap entry expectedRevision => store.compareAndSwap around entry expectedRevision

end JsonFileMemoryStore

/-- A row of `aikit_memory`, without its primary key. -/
structure MemoryRow where
  entryJson : MemoryEntry
  importance : Nat
  updatedMs : String

/-- `SqliteMemoryStore`. -/
structure SqliteMemoryStore where
  rows : AddressMap MemoryRow

/-- The row of an entry. -/
def MemoryEntry.row (entry : MemoryEntry) : MemoryRow := ⟨entry, entry.importance, entry.updatedUnixMs.repr⟩

namespace SqliteMemoryStore

variable (store : SqliteMemoryStore)

def empty : SqliteMemoryStore := ⟨∅⟩

/-- The row of an address, decoded. -/
def existing (address : Address) : Except String (Option MemoryEntry) :=
  match store.rows[address]? with
  | some row => (normalizePersistedEntry row.entryJson).map some
  | none => .ok none

/-- `INSERT … ON CONFLICT DO UPDATE`, and the commit. -/
def upsert (around : Surroundings) (entry : MemoryEntry) (answer : MemoryAnswer) : Outcome SqliteMemoryStore :=
  match around.refusal with
  | some error => (.error error, store)
  | none => (.ok answer, ⟨store.rows.insert entry.address entry.row⟩)

def put (around : Surroundings) (entry : MemoryEntry) : Outcome SqliteMemoryStore :=
  match (do validateEntry entry; let existing ← store.existing entry.address; putEntry around.now existing entry) with
  | .error error => (.error error, store)
  | .ok entry => store.upsert around entry .stored

def get (namespace_ key : String) : Outcome SqliteMemoryStore :=
  ((store.existing (namespace_, key)).map .entry, store)

/-- `ORDER BY min(importance, 100) DESC, length(updated_ms) DESC, updated_ms DESC, key ASC`. -/
def rowOrder (row : Address × MemoryRow) : ℕᵒᵈ ×ₗ (ℕᵒᵈ ×ₗ Stringᵒᵈ) ×ₗ String :=
  toLex (OrderDual.toDual (min row.2.importance 100),
    toLex (toLex (OrderDual.toDual row.2.updatedMs.length, OrderDual.toDual row.2.updatedMs), row.1.2))

/-- The rows of a namespace, in this order. -/
def selectRows (namespace_ : String) : List MemoryRow :=
  (sortByKey rowOrder (store.rows.toList.filter fun row => row.1.1 = namespace_)).map Prod.snd

/-- The loop of `search`, with what it has found so far. -/
def scan [Alphanumeric] (query : MemoryQuery) : List MemoryEntry → List MemoryRow → Except String (List MemoryEntry)
  | found, [] => .ok found
  | found, row :: rows => do
    let entry ← normalizePersistedEntry row.entryJson
    if query.tags.isSubset entry.tags = false then scan query found rows
    else if query.plane.any fun plane => plane ≠ entry.plane then scan query found rows
    else
      let found := if query.matches_ entry then found ++ [entry] else found
      if query.bound ≤ found.length then .ok found else scan query found rows

def search [Alphanumeric] (store : SqliteMemoryStore) (query : MemoryQuery) : Outcome SqliteMemoryStore :=
  ((scan query [] (store.selectRows query.namespace_)).map .entries, store)

def delete (around : Surroundings) (namespace_ key : String) : Outcome SqliteMemoryStore :=
  match around.refusal with
  | some error => (.error error, store)
  | none => (.ok (.deleted (store.rows.contains (namespace_, key))), ⟨store.rows.erase (namespace_, key)⟩)

def compareAndSwap (around : Surroundings) (entry : MemoryEntry) (expectedRevision : Nat) :
    Outcome SqliteMemoryStore :=
  match (do
    validateEntry entry
    let existing ← store.existing entry.address
    swapEntry around.now existing entry expectedRevision) with
  | .error error => (.error error, store)
  | .ok entry => store.upsert around entry (.swapped entry.revision)

/-- `impl MemoryStore for SqliteMemoryStore`. -/
def call [Alphanumeric] (store : SqliteMemoryStore) (around : Surroundings) : MemoryCall → Outcome SqliteMemoryStore
  | .put entry => store.put around entry
  | .get namespace_ key => store.get namespace_ key
  | .search query => store.search query
  | .delete namespace_ key => store.delete around namespace_ key
  | .compareAndSwap entry expectedRevision => store.compareAndSwap around entry expectedRevision

end SqliteMemoryStore

end AikitRuntime.Memory

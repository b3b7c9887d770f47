import AikitRuntime.Library.Paths
import AikitRuntime.Journal.MemoryStore

/-!
# Chains of deltas

A delta leads from the token it expects to its own token (`Follows`), so deltas in a row are a path
of tokens. Each step adds one to the sequence and raises the revision, and what a path reaches is
given by its deltas. `Reached base deltas token` says that a token is the one that the journal
`deltas`, from `base` at sequence zero, has at the token's own sequence.
-/

namespace AikitRuntime.Journal

open Library Durability A2aMapperDelta

section
variable {R : MapperRecords} {H : JournalHost R}

/-- A valid delta from the token it expects to its own. -/
structure Follows (H : JournalHost R) (a : A2aJournalToken) (delta : A2aMapperDelta R)
    (b : A2aJournalToken) : Prop where
  valid : delta.validate H = .ok ()
  expected : delta.expectedToken = a
  token : delta.token = .ok b

variable {a b c : A2aJournalToken} {delta : A2aMapperDelta R} {ds es : List (A2aMapperDelta R)}

theorem A2aMapperDelta.token_eq_ok (h : delta.token = .ok b) :
    b = ⟨delta.expectedToken.sequence + 1, delta.toRevision, delta.deltaHash⟩ ∧
      delta.expectedToken.sequence + 1 ≤ u64Max := by
  unfold token at h
  obtain ⟨sequence, hsequence, h⟩ := bind_eq_ok.mp h
  obtain ⟨rfl, hle⟩ := checkedAdd_eq_some.mp (okOr_eq_ok.mp hsequence)
  cases h
  exact ⟨rfl, hle⟩

/-- What `validate` lets pass, as far as the store relies on it. -/
structure A2aMapperDelta.Valid (H : JournalHost R) (delta : A2aMapperDelta R) : Prop where
  expected : delta.expectedToken.validate = .ok ()
  previous : delta.previousHash = delta.expectedToken.deltaHash
  revision : delta.fromRevision = delta.expectedToken.revision
  grows : delta.fromRevision < delta.toRevision
  digest : validateHash "delta hash" delta.deltaHash = .ok ()
  hash : delta.computeHash H = delta.deltaHash
  fits : H.encodedLen delta ≤ a2aMapperDeltaMaxBytes

theorem A2aMapperDelta.validate_eq_ok (h : delta.validate H = .ok ()) : delta.Valid H := by
  unfold validate at h
  obtain ⟨_, _, h⟩ := bind_eq_ok.mp h
  obtain ⟨_, _, h⟩ := bind_eq_ok.mp h
  obtain ⟨_, hexpected, h⟩ := bind_eq_ok.mp h
  obtain ⟨_, hprevious, h⟩ := bind_eq_ok.mp h
  obtain ⟨_, hrevision, h⟩ := bind_eq_ok.mp h
  obtain ⟨_, hgrows, h⟩ := bind_eq_ok.mp h
  obtain ⟨_, _, h⟩ := bind_eq_ok.mp h
  obtain ⟨_, _, h⟩ := bind_eq_ok.mp h
  obtain ⟨_, hdigest, h⟩ := bind_eq_ok.mp h
  obtain ⟨_, hhash, hfits⟩ := bind_eq_ok.mp h
  exact ⟨hexpected, not_not.mp (refuseIf_eq_ok.mp hprevious), not_not.mp (refuseIf_eq_ok.mp hrevision),
    Nat.lt_of_not_le (refuseIf_eq_ok.mp hgrows), hdigest, not_not.mp (refuseIf_eq_ok.mp hhash),
    Nat.le_of_not_lt (refuseIf_eq_ok.mp hfits)⟩

/-- What `A2aJournalToken::validate` lets pass. -/
theorem A2aJournalToken.validate_eq_ok :
    a.validate = .ok () ↔ isSha256Digest a.deltaHash = true ∧ a.sequence ≤ a.revision := by
  unfold A2aJournalToken.validate validateHash
  rw [bind_eq_ok, exists_unit, refuseIf_eq_ok, refuseIf_eq_ok, Bool.not_eq_false, Nat.not_lt]

theorem genesis_validate : (A2aJournalToken.genesis H).validate = .ok () :=
  A2aJournalToken.validate_eq_ok.mpr ⟨H.isDigest _, Nat.le_refl 0⟩

theorem validateHash_stableHash (field : String) (material : HashMaterial R) :
    validateHash field (H.stableHash material) = .ok () :=
  refuseIf_of_not (by rw [H.isDigest]; nofun)

/-! ### One step -/

theorem Follows.eq (h : Follows H a delta b) (h' : Follows H a delta c) : b = c := by
  have heq := h.token.symm.trans h'.token
  cases heq
  rfl

theorem Follows.sequence (h : Follows H a delta b) : b.sequence = a.sequence + 1 := by
  rw [(token_eq_ok h.token).1, h.expected]

theorem Follows.revision_lt (h : Follows H a delta b) : a.revision < b.revision := by
  have hvalid := validate_eq_ok h.valid
  rw [(token_eq_ok h.token).1, ← h.expected, ← hvalid.revision]
  exact hvalid.grows

theorem Follows.revision_eq (h : Follows H a delta b) :
    b.revision = delta.toRevision ∧ a.revision = delta.fromRevision := by
  have hvalid := validate_eq_ok h.valid
  rw [(token_eq_ok h.token).1, ← h.expected, hvalid.revision]
  exact ⟨rfl, rfl⟩

/-- The token of a delta that is applied is valid. -/
theorem Follows.validate (h : Follows H a delta b) (ha : a.validate = .ok ()) :
    b.validate = .ok () := by
  have hvalid := validate_eq_ok h.valid
  have hle := (A2aJournalToken.validate_eq_ok.mp ha).2
  have hsequence := h.sequence
  have hrevision := h.revision_lt
  refine A2aJournalToken.validate_eq_ok.mpr ⟨?_, by omega⟩
  rw [(token_eq_ok h.token).1]
  exact Bool.not_eq_false _ ▸ refuseIf_eq_ok.mp hvalid.digest

/-! ### Chains -/

/-- Deltas in a row, from a token to a token. -/
abbrev Chain (H : JournalHost R) (a : A2aJournalToken) (ds : List (A2aMapperDelta R))
    (b : A2aJournalToken) : Prop :=
  Path (Follows H) a ds b

theorem Chain.eq (h : Chain H a ds b) (h' : Chain H a ds c) : b = c :=
  Path.unique (R := Follows H) (fun _ _ _ _ hstep hstep' => hstep.eq hstep') h h'

theorem Chain.eq_of_nil (h : Chain H a [] b) : a = b := by
  cases h
  rfl

theorem Chain.sequence (h : Chain H a ds b) : b.sequence = a.sequence + ds.length := by
  induction h with
  | nil => rfl
  | cons hstep _ ih =>
    rw [ih, hstep.sequence, List.length_cons]
    omega

theorem Chain.revision_le (h : Chain H a ds b) : a.revision ≤ b.revision := by
  induction h with
  | nil => exact Nat.le_refl _
  | cons hstep _ ih => exact Nat.le_trans (Nat.le_of_lt hstep.revision_lt) ih

theorem Chain.validate (h : Chain H a ds b) (ha : a.validate = .ok ()) : b.validate = .ok () :=
  h.invariant (P := fun token => token.validate = .ok ())
    (fun _ _ _ _ hstep hfrom => hstep.validate hfrom) ha

/-- A chain through a delta: what is before it, the delta, and what is after it. -/
theorem Chain.through {i : Nat} (h : Chain H a ds b) (hi : ds[i]? = some delta) :
    ∃ t u, Chain H a (ds.take i) t ∧ Follows H t delta u ∧ Chain H a (ds.take (i + 1)) u ∧
      Chain H u (ds.drop (i + 1)) b := by
  obtain ⟨hlt, hget⟩ := List.getElem?_eq_some_iff.mp hi
  have hsplit : ds = ds.take i ++ delta :: ds.drop (i + 1) := by
    rw [← hget, ← List.drop_eq_getElem_cons hlt, List.take_append_drop]
  rw [hsplit] at h
  obtain ⟨t, hbefore, hrest⟩ := h.exists_mid
  cases hrest with
  | @cons _ u _ _ _ hstep hafter =>
    refine ⟨t, u, hbefore, hstep, ?_, hafter⟩
    rw [← List.take_append_getElem hlt, hget]
    exact hbefore.append (.single hstep)

/-- The revisions of a chain are in order. -/
theorem Chain.pairwise (h : Chain H a ds b) :
    ds.Pairwise (fun d e => d.toRevision < e.toRevision) ∧
      ∀ d ∈ ds, a.revision < d.toRevision := by
  induction h with
  | nil => exact ⟨.nil, nofun⟩
  | @cons a u b d ds hstep _ ih =>
    have hlt := hstep.revision_lt
    rw [hstep.revision_eq.1] at ih
    refine ⟨List.pairwise_cons.mpr ⟨ih.2, ih.1⟩, fun e he => ?_⟩
    rw [hstep.revision_eq.1] at hlt
    rcases List.mem_cons.mp he with rfl | hin
    · exact hlt
    · exact Nat.lt_trans hlt (ih.2 e hin)

/-- A token is the one that a journal has at its sequence. -/
structure Reached (H : JournalHost R) (base : A2aJournalToken) (ds : List (A2aMapperDelta R))
    (token : A2aJournalToken) : Prop where
  le : token.sequence ≤ ds.length
  chain : Chain H base (ds.take token.sequence) token

variable {base token : A2aJournalToken}

theorem Reached.eq (h : Reached H base ds a) (h' : Reached H base ds b)
    (hsequence : a.sequence = b.sequence) : a = b := by
  have hchain := h'.chain
  rw [← hsequence] at hchain
  exact h.chain.eq hchain

theorem Reached.append (h : Reached H base ds token) : Reached H base (ds ++ es) token := by
  refine ⟨?_, ?_⟩
  · have hle := h.le
    rw [List.length_append]
    omega
  · rw [List.take_append_of_le_length h.le]
    exact h.chain

/-- The two ends of a journal are reached. -/
theorem Chain.reached_head (h : Chain H base ds token) (hbase : base.sequence = 0) :
    Reached H base ds token := by
  have hsequence := h.sequence
  rw [hbase, Nat.zero_add] at hsequence
  refine ⟨Nat.le_of_eq hsequence, ?_⟩
  rw [hsequence, List.take_length]
  exact h

theorem reached_base (ds : List (A2aMapperDelta R)) (hbase : base.sequence = 0) :
    Reached H base ds base := by
  refine ⟨by omega, ?_⟩
  rw [hbase]
  exact .nil base

/-- So is the token of a delta in it. -/
theorem Chain.reached_token {i : Nat} (h : Chain H base ds token) (hbase : base.sequence = 0)
    (hi : ds[i]? = some delta) :
    ∃ t, delta.token = .ok t ∧ t.sequence = i + 1 ∧ Reached H base ds t := by
  obtain ⟨_, t, hbefore, hstep, hchain, -⟩ := h.through hi
  have hlt := (List.getElem?_eq_some_iff.mp hi).1
  have hsequence : t.sequence = i + 1 := by
    rw [hchain.sequence, hbase, List.length_take]
    omega
  refine ⟨t, hstep.token, hsequence, by omega, ?_⟩
  rw [hsequence]
  exact hchain

/-- Between two tokens of a journal lies a part of it. -/
theorem Reached.chain_between (h : Reached H base ds a) (h' : Reached H base ds b)
    (hle : a.sequence ≤ b.sequence) :
    Chain H a ((ds.take b.sequence).drop a.sequence) b := by
  have hchain := h'.chain
  rw [← List.take_append_drop a.sequence (ds.take b.sequence), List.take_take,
    Nat.min_eq_left hle] at hchain
  obtain ⟨mid, hfirst, hrest⟩ := hchain.exists_mid
  have hmid := h.chain.eq hfirst
  subst hmid
  exact hrest

end

end AikitRuntime.Journal

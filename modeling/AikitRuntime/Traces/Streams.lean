import AikitRuntime.Streaming.EncoderRuns
import AikitRuntime.Traces.Assertions

/-!
# The assertions about streams

The encoder's streams against the two assertions about them. The numbers are always in order.
The blocks are balanced exactly when the encoder never gives up on a delta while a block is
open: that ends the stream, and nothing closes the block any more.
-/

namespace AikitRuntime.Traces

open Library Durability Streaming StreamEventEncoder Method

section
variable {v w : StreamView} {kind : StreamEventKind} {kinds : List StreamEventKind}
  {check : BlockCheck} {e e' : StreamEventEncoder} {c : Nat} {delta : StreamDelta}

/-! ### A stream that follows the lifecycle -/

/-- The check has the open blocks of a view, and found nothing wrong. -/
structure BlockCheck.Follows (check : BlockCheck) (v : StreamView) : Prop where
  opened : ∀ b, b ∈ check.opened ↔ b ∈ v.opened
  valid : check.valid = true

theorem BlockCheck.Follows.step (hcheck : check.Follows v) (hv : v.Sound)
    (h : Streaming.Follows v kind w) : (check.step kind).Follows w := by
  cases h with
  | responseStart => exact ⟨hcheck.opened, hcheck.valid⟩
  | @blockStart blockId _ _ _ hfresh =>
    have hclosed : blockId ∉ check.opened := fun hb => hfresh (hv ((hcheck.opened blockId).mp hb))
    refine ⟨fun b => ?_, ?_⟩
    · show b ∈ insert blockId check.opened ↔ b ∈ insert blockId v.opened
      rw [Finset.mem_insert, Set.mem_insert_iff, hcheck.opened]
    · simp [BlockCheck.step, hcheck.valid, hclosed]
  | @blockDelta blockId _ _ hopen =>
    have hmem : blockId ∈ check.opened := (hcheck.opened blockId).mpr hopen
    exact ⟨hcheck.opened, by simp [BlockCheck.step, hcheck.valid, hmem]⟩
  | @blockEnd blockId _ _ hopen =>
    have hmem : blockId ∈ check.opened := (hcheck.opened blockId).mpr hopen
    refine ⟨fun b => ?_, by simp [BlockCheck.step, hcheck.valid, hmem]⟩
    show b ∈ check.opened.erase blockId ↔ b ∈ v.opened ∧ b ≠ blockId
    rw [Finset.mem_erase, hcheck.opened, and_comm]
  | passedOn _ hkind | terminal _ hkind =>
    cases kind <;> cases hkind <;> exact ⟨hcheck.opened, hcheck.valid⟩

theorem BlockCheck.Follows.run (hcheck : check.Follows v) (hv : v.Sound) (h : Stream v kinds w) :
    (kinds.foldl BlockCheck.step check).Follows w := by
  induction h generalizing check with
  | nil => exact hcheck
  | cons hstep _ ih => exact ih (hcheck.step hv hstep) (hstep.sound hv)

theorem BlockCheck.follows_start : BlockCheck.start.Follows .start :=
  ⟨fun _ => iff_of_false (Finset.notMem_empty _) (Set.notMem_empty _), rfl⟩

/-- **A stream that follows the lifecycle is balanced when it leaves no block open.** -/
theorem blocksBalanced_iff (h : Stream .start kinds w) :
    blocksBalanced kinds = true ↔ w.opened = ∅ := by
  have hcheck := BlockCheck.follows_start.run StreamView.sound_start h
  unfold blocksBalanced
  rw [Bool.and_eq_true, decide_eq_true_eq, and_iff_right hcheck.valid,
    Finset.eq_empty_iff_forall_notMem, Set.eq_empty_iff_forall_notMem]
  exact forall_congr' fun b => not_congr (hcheck.opened b)

/-! ### A push that gives up -/

/-- An encoder that is not done, does not take the delta, and has a block open. -/
structure Abandons (e : StreamEventEncoder) (delta : StreamDelta) : Prop where
  running : e.terminated = false
  refuses : ¬ e.Fits delta
  leavesOpen : e.openBlocks ≠ []

/-- An encoder that is done has no block open. -/
def Tidy (e : StreamEventEncoder) : Prop := e.terminated = true → e.openBlocks = []

theorem tidy_of_running (h : e.terminated = false) : Tidy e := fun hover => by
  rw [h] at hover
  cases hover

/-- What a delta writes closes the blocks when it ends the stream. -/
theorem tidy_of_writes (h : Writes e kinds e') (hrun : e.terminated = false) : Tidy e' := by
  cases h with
  | ends =>
    refine fun _ => List.eq_nil_iff_forall_not_mem.mpr fun b hb => ?_
    rcases mem_openBlocks.mp hb with h | h | ⟨id, h⟩ <;> cases h
  | _ => exact tidy_of_running hrun

variable {events : List StreamEvent}

/-- **An encoder stays tidy exactly as long as a push abandons nothing.** -/
theorem tidy_of_pushed {r : EStateM.Result EncoderFault StreamEventEncoder (List StreamEvent)}
    (h : Pushed e c delta r) (hr : r = .ok events e') :
    Tidy e' ↔ Tidy e ∧ ¬ Abandons (e.withCount c) delta := by
  cases h with
  | ignored hover =>
    cases hr
    refine (and_iff_left fun h => ?_).symm
    have hrun : e.terminated = false := h.running
    rw [hover] at hrun
    cases hrun
  | encoded hfits hrun hwrites =>
    cases hr
    have htidy := tidy_of_writes hwrites hrun
    exact iff_of_true htidy ⟨tidy_of_running hrun, fun h => h.refuses hfits⟩
  | refused hrun hfits =>
    cases hr
    constructor
    · exact fun h => ⟨tidy_of_running hrun, fun habandons => habandons.leavesOpen (h rfl)⟩
    · rintro ⟨-, hkeeps⟩ -
      by_contra hopen
      exact hkeeps ⟨hrun, hfits, hopen⟩
  | silenced hrun hfits =>
    cases hr
    constructor
    · exact fun h => ⟨tidy_of_running hrun, fun habandons => habandons.leavesOpen (h rfl)⟩
    · rintro ⟨-, hkeeps⟩ -
      by_contra hopen
      exact hkeeps ⟨hrun, hfits, hopen⟩

/-! ### The end of a stream -/

/-- The delta ends a stream. -/
def IsLast : StreamDelta → Prop
  | .messageStop _ | .error .. => True
  | _ => False

/-- A delta that ends a stream, once it is encoded, has ended it. -/
theorem terminated_of_tryPush (hlast : IsLast delta)
    (h : (tryPush delta).run e = .ok events e') : e'.terminated = true := by
  have hencode : ∃ x, (encode delta).run x = .ok events e' := by
    unfold tryPush at h
    rw [run_read_bind] at h
    obtain ⟨_, _, -, h⟩ := run_bind_eq_ok.mp h
    obtain ⟨_, _, -, h⟩ := run_bind_eq_ok.mp h
    obtain ⟨_, _, -, h⟩ := run_bind_eq_ok.mp h
    exact ⟨_, h⟩
  obtain ⟨x, hx⟩ := hencode
  cases delta with
  | messageStop stopReason =>
    obtain ⟨_, _, -, hx⟩ := run_bind_eq_ok.mp hx
    obtain ⟨_, _, -, hx⟩ := run_bind_eq_ok.mp hx
    obtain ⟨_, _, -, hx⟩ := run_bind_eq_ok.mp hx
    cases hx
    rfl
  | error message info =>
    obtain ⟨_, _, -, hx⟩ := run_bind_eq_ok.mp hx
    obtain ⟨_, _, -, hx⟩ := run_bind_eq_ok.mp hx
    cases hx
    rfl
  | _ => cases hlast

theorem terminated_of_push (hs : e.Sound) (hlast : IsLast delta)
    (h : (push delta).run (e.withCount c) = .ok events e') : e'.terminated = true := by
  have hpushed := run_push (c := c) delta hs
  have htried := run_tryPush (c := c) delta hs
  have hpush := push_eq delta (e.withCount c)
  rw [h] at hpushed hpush
  generalize hr : (tryPush delta).run (e.withCount c) = r at htried hpush
  cases htried with
  | encoded =>
    cases hpush
    exact terminated_of_tryPush hlast hr
  | rejected hfits =>
    generalize hr' : EStateM.Result.ok events e' = r' at hpushed
    cases hpushed with
    | ignored hover =>
      cases hr'
      exact hover
    | encoded hfits' => exact absurd hfits' hfits
    | refused | silenced =>
      cases hr'
      rfl

/-! ### A whole run -/

/-- No push of the run abandons a block. -/
def NeverAbandons (deltas : List StreamDelta) (e : StreamEventEncoder) : Prop :=
  ∀ pre delta post, deltas = pre ++ delta :: post → ¬ Abandons (afterPushing pre e) delta

/-- A push keeps the encoder tidy, unless it abandons a block. -/
theorem push_tidy (delta : StreamDelta) (hs : e.Sound) (hv : e.Sees v) :
    ∃ kinds, ∃ e' : StreamEventEncoder, ∃ w,
      (push delta).run (e.withCount c) = .ok (stamp e.responseId c kinds) (e'.withCount (c + kinds.length)) ∧
      e'.responseId = e.responseId ∧ e'.Sound ∧ e'.Sees w ∧ Stream v kinds w ∧
      (Tidy e' ↔ Tidy e ∧ ¬ Abandons (e.withCount c) delta) := by
  have hpushed := run_push (c := c) delta hs
  obtain ⟨kinds, e₁, u, hpush, hid, hs₁, hu, hkinds, -⟩ := hpushed.stream hs hv
  rw [hpush] at hpushed
  have htidy : Tidy (e₁.withCount (c + kinds.length)) ↔ Tidy e ∧ ¬ Abandons (e.withCount c) delta :=
    tidy_of_pushed hpushed rfl
  exact ⟨kinds, e₁, u, hpush, hid, hs₁, hu, hkinds, htidy⟩

/-- A run whose last delta ends the stream is over. -/
theorem terminated_of_pushAll (deltas : List StreamDelta) (hlast : IsLast delta) (hs : e.Sound)
    (hv : e.Sees v)
    (h : (pushAll (deltas ++ [delta])).run (e.withCount c) = .ok events e') :
    e'.terminated = true := by
  induction deltas generalizing e c v events with
  | nil =>
    replace h : ((push delta) >>= fun first => pushAll [] >>= fun more =>
        pure (first ++ more)).run (e.withCount c) = .ok events e' := h
    obtain ⟨first, e₁, hfirst, hdone⟩ := run_bind_eq_ok.mp h
    cases hdone
    exact terminated_of_push hs hlast hfirst
  | cons d rest ih =>
    obtain ⟨kinds, e₁, u, hpush, -, hs₁, hu, -, -⟩ := (run_push (c := c) d hs).stream hs hv
    replace h : ((push d) >>= fun first => pushAll (rest ++ [delta]) >>= fun more =>
        pure (first ++ more)).run (e.withCount c) = .ok events e' := h
    rw [run_bind_ok hpush] at h
    obtain ⟨more, e₂, hmore, hdone⟩ := run_bind_eq_ok.mp h
    cases hdone
    exact ih hs₁ hu hmore

end

/-- **A stream that is fed to its end is numbered in order**, and its blocks are balanced exactly
when no push gives up on a delta with a block open. -/
theorem stream_passes (responseId : String) (deltas : List StreamDelta) (delta : StreamDelta)
    (hlast : IsLast delta) : ∃ events e,
      (pushAll (deltas ++ [delta])).run (new responseId) = .ok events e ∧
      ∀ input : TraceInput, input.streamEvents = events →
        Passes input .streamSequenceMonotonic ∧
        (Passes input .streamBlocksBalanced ↔ NeverAbandons (deltas ++ [delta]) (new responseId)) := by
  have hnew : (new responseId).withCount 0 = new responseId := rfl
  obtain ⟨kinds, e, w, hrun, hw, hstream, htidy⟩ :=
    pushAll_spec (T := fun e _ => Tidy e) (B := Abandons) (c := 0) push_tidy (deltas ++ [delta])
      (sound_new responseId) (sees_new responseId)
  have hover : (e.withCount (0 + kinds.length)).terminated = true :=
    terminated_of_pushAll deltas hlast (sound_new responseId) (sees_new responseId) hrun
  rw [hnew] at hrun htidy
  refine ⟨_, _, hrun, ?_⟩
  intro input hinput
  constructor
  · show consecutive (input.streamEvents.map _) = true
    rw [hinput, consecutive_iff, map_sequence_stamp, List.length_range']
  · show blocksBalanced (input.streamEvents.map _) = true ↔ _
    rw [hinput, map_kind_stamp, blocksBalanced_iff hstream, hw.opened_eq_empty]
    rw [and_iff_right (tidy_of_running rfl)] at htidy
    unfold NeverAbandons
    rw [← htidy]
    exact ⟨fun h _ => h, fun h => h hover⟩

end AikitRuntime.Traces

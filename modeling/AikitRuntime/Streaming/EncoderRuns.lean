import Mathlib.Data.List.Nodup
import AikitRuntime.Streaming.EncoderSteps

/-!
# The streams of the encoder

The encoder keeps its own view of the stream in its slots (`Sees`), and every push follows the
lifecycle: whatever deltas come, in whatever order, the events that it emits are numbered one
after the other, no block starts twice, and every delta or end is of an open block.

One promise is not kept. A delta that does not fit ends the stream with an error event, and the
blocks that are open then are not closed first, as they are for an error that a delta brings.
-/

namespace AikitRuntime.Streaming

open Library Durability Method

namespace StreamEventEncoder

variable {e e' : StreamEventEncoder} {c : Nat} {v : StreamView} {kinds : List StreamEventKind}
  {b : String}

/-- The slots of the encoder hold what a reader of its stream remembers. The encoder may be done
without an event that says so. -/
structure Sees (e : StreamEventEncoder) (v : StreamView) : Prop where
  started : ∀ b, b ∈ v.started ↔ b ∈ e.startedBlocks
  opened : ∀ b, b ∈ v.opened ↔ b ∈ e.openBlocks
  responded : v.responded ↔ e.responseStarted = true
  ended : v.ended → e.terminated = true

theorem mem_openBlocks : b ∈ e.openBlocks ↔ e.activeText = some b ∨ e.activeReasoning = some b ∨
    ∃ id : String, e.activeTools[id]? = some b := by
  simp only [openBlocks, List.mem_append, Option.mem_toList, BTreeMap.mem_values, or_assoc]

theorem toolBlockId_injective (responseId : String) : Function.Injective (toolBlockId responseId) := by
  intro a b h
  have heq : toString a = toString b := by simpa [toolBlockId, String.append_right_inj] using h
  exact heq

/-- The blocks of the tools are distinct, since their identities are made of the tools' own. -/
theorem nodup_tools {tools : BTreeMap String} {responseId : String}
    (h : ∀ id b : String, tools[id]? = some b → b = toolBlockId responseId id) :
    tools.values.Nodup := by
  have hkeys : (tools.toList.map Prod.fst).Nodup := by
    rw [List.Nodup, List.pairwise_map]
    exact Std.ExtTreeMap.distinct_keys_toList.imp fun hne heq => hne (keyCmp_eq_iff.mpr heq)
  have hvalues : tools.values = (tools.toList.map Prod.fst).map (toolBlockId responseId) := by
    rw [BTreeMap.values, List.map_map]
    exact List.map_congr_left fun x hx => h x.1 x.2 (BTreeMap.mem_toList.mp hx)
  rw [hvalues]
  exact List.Nodup.map (toolBlockId_injective responseId) hkeys

/-- The slots hold distinct blocks. -/
theorem Sound.nodup (hs : e.Sound) : e.openBlocks.Nodup := by
  have hslot (slot : Option String) : slot.toList.Nodup := by
    cases slot <;> simp
  simp only [openBlocks, List.nodup_append, hslot, nodup_tools hs.tools, List.mem_append,
    Option.mem_toList, BTreeMap.mem_values, true_and, forall_exists_index]
  refine ⟨fun b hb a ha heq => hs.apart b hb (heq ▸ ha), fun b hb a id hid heq => ?_⟩
  subst heq
  rcases hb with hb | hb
  · exact (hs.toolsApart id b hid).1 hb
  · exact (hs.toolsApart id b hid).2 hb

/-! ### Sound encoders -/

theorem sound_new (responseId : String) : (new responseId).Sound where
  nextBlock_le n hn := by
    cases hn
    decide
  started b hb := by
    rcases mem_openBlocks.mp hb with h | h | ⟨id, h⟩ <;> cases h
  tools id b h := by cases h
  apart b h := by cases h
  toolsApart id b h := by cases h

variable {next : Option Nat}

/-- Taking an identity leaves the slots alone. -/
theorem Sound.taking {label : String} (hs : e.Sound)
    (hnew : e.Generates label b next) : (e.taking b next).Sound where
  nextBlock_le n hn := by
    obtain ⟨_, k, _, _, _, _, _, hnext⟩ := hnew
    have hn' : checkedAdd k 1 = some n := hnext ▸ hn
    exact (checkedAdd_eq_some.mp hn').1 ▸ (checkedAdd_eq_some.mp hn').2
  started a ha := Std.ExtTreeMap.mem_insert.mpr (.inr (hs.started a ha))
  tools := hs.tools
  apart := hs.apart
  toolsApart := hs.toolsApart

/-- A block that was not started is in no slot. -/
theorem Sound.not_open (hs : e.Sound) (hfresh : b ∉ e.startedBlocks) :
    e.activeText ≠ some b ∧ e.activeReasoning ≠ some b ∧ ∀ id : String, e.activeTools[id]? ≠ some b := by
  have hclosed := mt mem_openBlocks.mpr fun hb => hfresh (hs.started b hb)
  push Not at hclosed
  exact hclosed

variable {a : String}

theorem mem_taking (next : Option Nat) :
    a ∈ (e.taking b next).startedBlocks ↔ a = b ∨ a ∈ e.startedBlocks := by
  rw [taking, Std.ExtTreeMap.mem_insert, keyCmp_eq_iff, eq_comm]

theorem mem_openBlocks_text (hnone : e.activeText = none) :
    a ∈ ({ e.taking b next with activeText := some b }).openBlocks ↔ a = b ∨ a ∈ e.openBlocks := by
  rw [mem_openBlocks, mem_openBlocks, hnone]
  simp [taking, eq_comm]

theorem mem_openBlocks_reasoning (hnone : e.activeReasoning = none) :
    a ∈ ({ e.taking b next with activeReasoning := some b }).openBlocks ↔ a = b ∨ a ∈ e.openBlocks := by
  rw [mem_openBlocks, mem_openBlocks, hnone]
  simp [taking, eq_comm, or_left_comm]

/-- The block of a tool that has not started is not in the map. -/
theorem Sound.not_tool {id : String} (hs : e.Sound)
    (hfresh : toolBlockId e.responseId id ∉ e.startedBlocks) : e.activeTools[id]? = none := by
  obtain hnone | ⟨b, hopen⟩ := Option.eq_none_or_eq_some e.activeTools[id]?
  · exact hnone
  · have hb := hs.tools id b hopen
    subst hb
    exact absurd hopen ((hs.not_open hfresh).2.2 id)

theorem mem_openBlocks_tool {id : String} (hs : e.Sound)
    (hfresh : toolBlockId e.responseId id ∉ e.startedBlocks) :
    a ∈ ({ e.taking (toolBlockId e.responseId id) next with
      activeTools := e.activeTools.insert id (toolBlockId e.responseId id) }).openBlocks ↔
        a = toolBlockId e.responseId id ∨ a ∈ e.openBlocks := by
  have hnone := hs.not_tool hfresh
  have hinsert : (∃ k : String, (e.activeTools.insert id (toolBlockId e.responseId id))[k]? = some a) ↔
      a = toolBlockId e.responseId id ∨ ∃ k : String, e.activeTools[k]? = some a := by
    constructor
    · rintro ⟨k, hk⟩
      rcases BTreeMap.get_insert_eq_some hk with ⟨_, heq⟩ | ⟨_, hold⟩
      · exact .inl heq.symm
      · exact .inr ⟨k, hold⟩
    · rintro (rfl | ⟨k, hk⟩)
      · exact ⟨id, BTreeMap.get_insert_self⟩
      · exact ⟨k, BTreeMap.get_insert_of_get hnone hk⟩
  rw [mem_openBlocks, mem_openBlocks]
  show _ ∨ _ ∨ (∃ k : String, (e.activeTools.insert id (toolBlockId e.responseId id))[k]? = some a) ↔ _
  rw [hinsert]
  simp only [taking]
  tauto

theorem Writes.responseId (h : Writes e kinds e') : e'.responseId = e.responseId := by
  cases h <;> rfl

/-- **What a delta writes keeps the encoder sound.** -/
theorem Writes.sound (h : Writes e kinds e') (hs : e.Sound) : e'.Sound := by
  cases h with
  | response => exact ⟨hs.nextBlock_le, hs.started, hs.tools, hs.apart, hs.toolsApart⟩
  | goesOn | passedOn => exact hs
  | @textOpens b next delta hnone hnew =>
    obtain ⟨_, hreasoning, htools⟩ := hs.not_open hnew.fresh
    refine ⟨(hs.taking hnew).nextBlock_le, fun a ha => ?_, hs.tools, fun a ha => ?_, fun id a ha => ?_⟩
    · exact (mem_taking next).mpr (((mem_openBlocks_text hnone).mp ha).imp_right (hs.started a))
    · cases ha
      exact hreasoning
    · refine ⟨fun heq => ?_, (hs.toolsApart id a ha).2⟩
      cases heq
      exact htools id ha
  | @reasoningOpens b next delta hnone hnew =>
    obtain ⟨htext, _, htools⟩ := hs.not_open hnew.fresh
    refine ⟨(hs.taking hnew).nextBlock_le, fun a ha => ?_, hs.tools, fun a ha heq => ?_,
      fun id a ha => ⟨(hs.toolsApart id a ha).1, fun heq => ?_⟩⟩
    · exact (mem_taking next).mpr (((mem_openBlocks_reasoning hnone).mp ha).imp_right (hs.started a))
    · cases heq
      exact htext ha
    · cases heq
      exact htools id ha
  | reasoningEnds hopen =>
    refine ⟨hs.nextBlock_le, fun a ha => hs.started a (mem_openBlocks.mpr ?_), hs.tools,
      fun a _ => nofun, fun id a ha => ⟨(hs.toolsApart id a ha).1, nofun⟩⟩
    rcases mem_openBlocks.mp ha with h | h | h
    · exact .inl h
    · cases h
    · exact .inr (.inr h)
  | oneShot hnew => exact hs.taking hnew
  | @toolOpens id name hnew =>
    obtain ⟨htext, hreasoning, _⟩ := hs.not_open hnew
    refine ⟨hs.nextBlock_le, fun a ha => ?_, fun k a ha => ?_, hs.apart, fun k a ha => ?_⟩
    · exact (mem_taking e.nextBlock).mpr (((mem_openBlocks_tool hs hnew).mp ha).imp_right (hs.started a))
    · rcases BTreeMap.get_insert_eq_some ha with ⟨rfl, rfl⟩ | ⟨_, hold⟩
      · rfl
      · exact hs.tools k a hold
    · rcases BTreeMap.get_insert_eq_some ha with ⟨rfl, rfl⟩ | ⟨_, hold⟩
      · exact ⟨htext, hreasoning⟩
      · exact hs.toolsApart k a hold
  | ends hkind =>
    refine ⟨hs.nextBlock_le, fun a ha => ?_, fun id a ha => ?_, fun a ha => ?_, fun id a ha => ?_⟩
    · rcases mem_openBlocks.mp ha with h | h | ⟨id, h⟩ <;> cases h
    · cases ha
    · cases ha
    · cases ha

/-! ### Writing follows the lifecycle -/

theorem sees_new (responseId : String) : (new responseId).Sees .start where
  started b := by
    refine iff_of_false (Set.notMem_empty b) fun h => ?_
    cases h
  opened b := by
    refine iff_of_false (Set.notMem_empty b) fun h => ?_
    rcases mem_openBlocks.mp h with h | h | ⟨id, h⟩ <;> cases h
  responded := by simp [StreamView.start, new]
  ended h := h.elim

/-- A view of an encoder is sound. -/
theorem Sees.not_over (h : e.Sees v) (hrun : e.terminated = false) : ¬ v.ended := by
  intro hover
  have htrue := h.ended hover
  rw [hrun] at htrue
  cases htrue

theorem Sees.opened_eq_empty (h : e.Sees v) : v.opened = ∅ ↔ e.openBlocks = [] := by
  rw [Set.eq_empty_iff_forall_notMem, List.eq_nil_iff_forall_not_mem]
  exact forall_congr' fun b => not_congr (h.opened b)

/-- The counters are not part of the view. -/
theorem Sees.of_same (h : e.Sees v) (hstarted : e'.startedBlocks = e.startedBlocks)
    (hopened : e'.openBlocks = e.openBlocks) (hresponded : e'.responseStarted = e.responseStarted)
    (hover : e.terminated = true → e'.terminated = true) : e'.Sees v := by
  refine ⟨?_, ?_, ?_, fun h' => hover (h.ended h')⟩
  · rw [hstarted]
    exact h.started
  · rw [hopened]
    exact h.opened
  · rw [hresponded]
    exact h.responded

/-- A block that starts is in both views. -/
theorem Sees.opening (h : e.Sees v)
    (hstarted : ∀ a, a ∈ e'.startedBlocks ↔ a = b ∨ a ∈ e.startedBlocks)
    (hopened : ∀ a, a ∈ e'.openBlocks ↔ a = b ∨ a ∈ e.openBlocks)
    (hresponded : e'.responseStarted = e.responseStarted) (hrun : ¬ v.ended) :
    e'.Sees { v with started := insert b v.started, opened := insert b v.opened } where
  started a := by rw [Set.mem_insert_iff, h.started, hstarted]
  opened a := by rw [Set.mem_insert_iff, h.opened, hopened]
  responded := by rw [hresponded]; exact h.responded
  ended hover := absurd hover hrun

/-- **What a delta writes follows the view**, and a stream that it ends has no block open. -/
theorem Writes.stream (h : Writes e kinds e') (hs : e.Sound) (hrun : e.terminated = false)
    (hv : e.Sees v) :
    ∃ w, Stream v kinds w ∧ e'.Sees w ∧ (w.ended → e'.openBlocks = []) := by
  have hover := hv.not_over hrun
  cases h with
  | response hfirst =>
    have hfirst' : ¬ v.responded := mt hv.responded.mp (by rw [hfirst]; nofun)
    refine ⟨_, .single (.responseStart hover hfirst'), ⟨hv.started, hv.opened, ?_, hv.ended⟩, ?_⟩
    · exact ⟨fun _ => rfl, fun _ => trivial⟩
    · exact fun h => absurd h hover
  | goesOn hopen =>
    exact ⟨v, .single (.blockDelta hover ((hv.opened _).mpr hopen)), hv, fun h => absurd h hover⟩
  | @textOpens b next delta hnone hnew =>
    have hfresh : b ∉ v.started := mt (hv.started b).mp hnew.fresh
    refine ⟨_, .cons (.blockStart hover hfresh) (.single (.blockDelta hover (Set.mem_insert b _))),
      hv.opening (fun a => mem_taking next) (fun a => mem_openBlocks_text hnone) rfl hover, ?_⟩
    exact fun h => absurd h hover
  | @reasoningOpens b next delta hnone hnew =>
    have hfresh : b ∉ v.started := mt (hv.started b).mp hnew.fresh
    refine ⟨_, .cons (.blockStart hover hfresh) (.single (.blockDelta hover (Set.mem_insert b _))),
      hv.opening (fun a => mem_taking next) (fun a => mem_openBlocks_reasoning hnone) rfl hover, ?_⟩
    exact fun h => absurd h hover
  | @reasoningEnds b value hopen =>
    have hb : b ∈ v.opened := (hv.opened b).mpr (mem_openBlocks.mpr (.inr (.inl hopen)))
    refine ⟨_, .single (.blockEnd hover hb), ⟨hv.started, fun a => ?_, hv.responded, hv.ended⟩,
      fun h => absurd h hover⟩
    have hrest : a ∈ ({ e with activeReasoning := none }).openBlocks ↔
        e.activeText = some a ∨ ∃ id : String, e.activeTools[id]? = some a := by
      rw [mem_openBlocks]
      simp
    show a ∈ v.opened ∧ a ≠ b ↔ _
    rw [hv.opened, mem_openBlocks, hrest, hopen, Option.some.injEq]
    constructor
    · rintro ⟨h | h | h, hne⟩
      · exact .inl h
      · exact absurd h.symm hne
      · exact .inr h
    · rintro (h | ⟨id, h⟩)
      · exact ⟨.inl h, fun heq => hs.apart a h (heq ▸ hopen)⟩
      · exact ⟨.inr (.inr ⟨id, h⟩), fun heq => (hs.toolsApart id a h).2 (heq ▸ hopen)⟩
  | @oneShot label b next blockKind value hnew =>
    have hfresh : b ∉ v.started := mt (hv.started b).mp hnew.fresh
    refine ⟨_, .cons (.blockStart hover hfresh) (.single (.blockEnd hover (Set.mem_insert b _))),
      ⟨fun a => ?_, fun a => ?_, hv.responded, hv.ended⟩, fun h => absurd h hover⟩
    · rw [mem_taking, ← hv.started]
      rfl
    · have hclosed : b ∉ v.opened := fun hb => hnew.fresh (hs.started b ((hv.opened b).mp hb))
      refine Iff.trans ?_ (hv.opened a)
      show (a = b ∨ a ∈ v.opened) ∧ a ≠ b ↔ _
      constructor
      · exact fun ⟨h, hne⟩ => h.resolve_left hne
      · exact fun h => ⟨.inr h, fun heq => hclosed (heq ▸ h)⟩
  | @toolOpens id name hnew =>
    have hfresh : toolBlockId e.responseId id ∉ v.started := mt (hv.started _).mp hnew
    refine ⟨_, .single (.blockStart hover hfresh),
      hv.opening (fun a => mem_taking e.nextBlock) (fun a => mem_openBlocks_tool hs hnew) rfl hover, ?_⟩
    exact fun h => absurd h hover
  | passedOn hkind =>
    exact ⟨v, .single (.passedOn hover hkind), hv, fun h => absurd h hover⟩
  | ends hkind =>
    have hempty (a : String) : a ∉ ({ e.closed with terminated := true }).openBlocks := by
      intro ha
      rcases mem_openBlocks.mp ha with h | h | ⟨id, h⟩ <;> cases h
    have hends := Stream.blockEnds hover hs.nodup fun b hb => (hv.opened b).mpr hb
    refine ⟨_, hends.append (.single (.terminal hover hkind)),
      ⟨hv.started, fun a => ?_, hv.responded, fun _ => rfl⟩, fun _ => ?_⟩
    · refine iff_of_false (fun ha => ha.2 ?_) (hempty a)
      exact (hv.opened a).mp ha.1
    · exact List.eq_nil_iff_forall_not_mem.mpr hempty

/-- **A push keeps the encoder sound, and its events follow the view.** What is over is over with
no block open, unless it was not, or the push strands one. -/
theorem Pushed.stream {delta : StreamDelta}
    {r : EStateM.Result EncoderFault StreamEventEncoder (List StreamEvent)}
    (h : Pushed e c delta r) (hs : e.Sound) (hv : e.Sees v) :
    ∃ kinds, ∃ e' : StreamEventEncoder, ∃ w, r = .ok (stamp e.responseId c kinds) (e'.withCount (c + kinds.length)) ∧
      e'.responseId = e.responseId ∧ e'.Sound ∧ e'.Sees w ∧ Stream v kinds w ∧
      ((w.ended → w.opened = ∅) ↔
        (v.ended → v.opened = ∅) ∧ ¬ (e.withCount c).Strands delta) := by
  have hsound {next : Option Nat} {done : Bool} (hnext : ∀ n, next = some n → n ≤ u64Max) :
      ({ e with nextBlock := next, terminated := done }).Sound :=
    ⟨hnext, hs.started, hs.tools, hs.apart, hs.toolsApart⟩
  cases h with
  | @ignored next hover hnext =>
    refine ⟨[], { e with nextBlock := next }, v, rfl, rfl, hsound hnext,
      hv.of_same rfl rfl rfl id, .nil v, ?_⟩
    have hstrands : ¬ (e.withCount c).Strands delta := fun h => by
      have hrun : e.terminated = false := h.running
      rw [hover] at hrun
      cases hrun
    exact (and_iff_left hstrands).symm
  | encoded hfits hrun hwrites hroom =>
    obtain ⟨w, hstream, hw, hclosed⟩ := hwrites.stream hs hrun hv
    refine ⟨_, _, w, rfl, hwrites.responseId, hwrites.sound hs, hw, hstream, ?_⟩
    refine iff_of_true (fun hover => ?_) ⟨fun h => absurd h (hv.not_over hrun), fun h => h.refuses hfits⟩
    refine Set.eq_empty_of_forall_notMem fun b hb => ?_
    have hb' := (hw.opened b).mp hb
    rw [hclosed hover] at hb'
    cases hb'
  | @refused message info next hrun hfits hroom hnext =>
    have hover := hv.not_over hrun
    refine ⟨_, { e with nextBlock := next, terminated := true }, _, rfl, rfl, hsound hnext, ?_,
      .single (.terminal hover (show (StreamEventKind.error message info).isTerminal = true from rfl)), ?_⟩
    · exact ⟨hv.started, hv.opened, hv.responded, fun _ => rfl⟩
    · constructor
      · intro hempty
        exact ⟨fun h => absurd h hover, fun h => h.leavesOpen (hv.opened_eq_empty.mp (hempty trivial))⟩
      · rintro ⟨-, hstrands⟩ -
        by_contra hopen
        exact hstrands ⟨hrun, hfits, ensureSequenceCapacity_withCount.mpr (.inr hroom),
          mt hv.opened_eq_empty.mpr hopen⟩
  | @silenced next hrun hfits hfull hnext =>
    refine ⟨[], { e with nextBlock := next, terminated := true }, v, rfl, rfl, hsound hnext,
      hv.of_same rfl rfl rfl fun _ => rfl, .nil v, (and_iff_left fun h => hfull ?_).symm⟩
    exact (ensureSequenceCapacity_withCount.mp h.announces).resolve_left nofun

/-! ### A whole run -/

/-- The encoder after it was fed some deltas. -/
def afterPushing (deltas : List StreamDelta) (e : StreamEventEncoder) : StreamEventEncoder :=
  after ((pushAll deltas).run e)

/-- No push leaves a block open at the end of the stream. -/
def NeverStrands (deltas : List StreamDelta) (e : StreamEventEncoder) : Prop :=
  ∀ pre delta post, deltas = pre ++ delta :: post → ¬ (afterPushing pre e).Strands delta

section

variable {T : StreamEventEncoder → StreamView → Prop} {B : StreamEventEncoder → StreamDelta → Prop}

/-- What holds of no push of a run, holds neither of the first nor of one after it. -/
theorem never_cons {delta : StreamDelta} {rest : List StreamDelta} {events : List StreamEvent}
    (h : (push delta).run e = .ok events e') :
    (∀ pre delta' post, delta :: rest = pre ++ delta' :: post → ¬ B (afterPushing pre e) delta') ↔
      ¬ B e delta ∧ ∀ pre delta' post, rest = pre ++ delta' :: post → ¬ B (afterPushing pre e') delta' := by
  have hafter (pre : List StreamDelta) :
      afterPushing (delta :: pre) e = afterPushing pre e' := by
    show after ((push delta >>= _).run e) = after ((pushAll pre).run e')
    rw [run_bind_ok h, EStateM.run_bind]
    cases (pushAll pre).run e' <;> rfl
  constructor
  · intro hnever
    refine ⟨hnever [] delta rest rfl, fun pre delta' post heq => ?_⟩
    rw [← hafter]
    exact hnever (delta :: pre) delta' post (by rw [heq]; rfl)
  · rintro ⟨hfirst, hrest⟩ pre delta' post heq
    cases pre with
    | nil =>
      cases heq
      exact hfirst
    | cons d pre =>
      cases heq
      rw [hafter]
      exact hrest pre delta' post rfl

/-- A run follows the view. What every push keeps but a bad one, a run keeps without a bad push. -/
theorem pushAll_spec
    (hpush : ∀ {e : StreamEventEncoder} {c : Nat} {v : StreamView} (delta : StreamDelta), e.Sound → e.Sees v →
      ∃ kinds, ∃ e' : StreamEventEncoder, ∃ w,
        (push delta).run (e.withCount c) = .ok (stamp e.responseId c kinds) (e'.withCount (c + kinds.length)) ∧
        e'.responseId = e.responseId ∧ e'.Sound ∧ e'.Sees w ∧ Stream v kinds w ∧
        (T e' w ↔ T e v ∧ ¬ B (e.withCount c) delta))
    (deltas : List StreamDelta) (hs : e.Sound) (hv : e.Sees v) :
    ∃ kinds, ∃ e' : StreamEventEncoder, ∃ w,
      (pushAll deltas).run (e.withCount c) =
        .ok (stamp e.responseId c kinds) (e'.withCount (c + kinds.length)) ∧ e'.Sees w ∧ Stream v kinds w ∧
      (T e' w ↔ T e v ∧ ∀ pre delta post, deltas = pre ++ delta :: post →
        ¬ B (afterPushing pre (e.withCount c)) delta) := by
  induction deltas generalizing e c v with
  | nil => exact ⟨[], e, v, rfl, hv, .nil v, (and_iff_left fun pre _ _ heq => by cases pre <;> cases heq).symm⟩
  | cons delta rest ih =>
    obtain ⟨kinds, e₁, u, hfirst, hid, hs₁, hu, hkinds, hkeeps⟩ := hpush (c := c) delta hs hv
    obtain ⟨more, e₂, w, hrest, hw, hmore, hkeeps'⟩ := ih (c := c + kinds.length) hs₁ hu
    refine ⟨kinds ++ more, e₂, w, ?_, hw, Path.append hkinds hmore, ?_⟩
    · show (push delta >>= _).run _ = _
      rw [run_bind_ok hfirst, run_bind_ok hrest, stamp_append, List.length_append, hid, Nat.add_assoc]
      rfl
    · rw [hkeeps', hkeeps, never_cons hfirst, and_assoc]

end

end StreamEventEncoder

open StreamEventEncoder

/-- **A well-formed stream of events.** -/
structure WellFormed (events : List StreamEvent) : Prop where
  consecutive : events.map (·.sequence) = List.range' 1 events.length
  distinct : (events.map (·.eventId)).Nodup
  startedOnce : ∀ b, events.countP (fun event => event.kind.startOf = some b) ≤ 1
  refers : ∀ pre event post b, events = pre ++ event :: post → event.kind.refersTo = some b →
    (∃ earlier ∈ pre, earlier.kind.startOf = some b) ∧ ¬ ∃ earlier ∈ pre, earlier.kind.endOf = some b
  respondsOnce : events.countP (·.kind.isResponseStart) ≤ 1
  last : ∀ pre event post, events = pre ++ event :: post → event.kind.isTerminal = true → post = []
  closed : ∀ pre event post b, events = pre ++ event :: post → event.kind.isTerminal = true →
    (∃ earlier ∈ pre, earlier.kind.startOf = some b) →
    pre.countP (fun earlier => earlier.kind.endOf = some b) = 1

section
variable {events pre post : List StreamEvent} {event : StreamEvent} {w : StreamView} {r b : String}
  {kinds : List StreamEventKind}

theorem starts_map : Starts (events.map (·.kind)) b ↔ ∃ event ∈ events, event.kind.startOf = some b := by
  simp [Starts]

theorem ends_map : Ends (events.map (·.kind)) b ↔ ∃ event ∈ events, event.kind.endOf = some b := by
  simp [Ends]

/-- The view of a stream just before its last event. -/
theorem Stream.before_terminal (h : Stream .start ((pre ++ event :: post).map (·.kind)) w)
    (hevent : event.kind.isTerminal = true) :
    ∃ u, Stream .start (pre.map (·.kind)) u ∧ w.ended ∧ ∀ b, b ∈ w.opened ↔ b ∈ u.opened := by
  rw [List.map_append, List.map_cons] at h
  have hpost := Stream.last_of_terminal h hevent
  rw [hpost] at h
  obtain ⟨u, hpre, hlast⟩ := h.exists_mid
  cases hlast with
  | cons hstep hnil =>
    cases hnil
    refine ⟨u, hpre, hstep.ended.2.mpr hevent, fun b => ?_⟩
    rw [hstep.opened]
    cases hkind : event.kind <;> rw [hkind] at hevent <;> cases hevent <;>
      simp [StreamEventKind.startOf, StreamEventKind.endOf]

/-- **A numbered stream is well formed when it is over with no block open.** -/
theorem wellFormed_stamp (h : Stream .start kinds w) :
    WellFormed (stamp r 0 kinds) ↔ (w.ended → w.opened = ∅) := by
  have hlength : (stamp r 0 kinds).length = kinds.length := by
    rw [← List.length_map (·.kind), map_kind_stamp]
  have hkinds : (stamp r 0 kinds).map (·.kind) = kinds := map_kind_stamp r 0 kinds
  generalize hevents : stamp r 0 kinds = events at hlength hkinds
  have hstream : Stream .start (events.map (·.kind)) w := hkinds.symm ▸ h
  constructor
  · intro hwell hover
    have hterminal : ∃ k ∈ events.map (·.kind), k.isTerminal = true :=
      ((Stream.ended hstream).mp hover).resolve_left id
    obtain ⟨_, hk, hterminal⟩ := hterminal
    obtain ⟨event, hevent, rfl⟩ := List.mem_map.mp hk
    obtain ⟨pre, post, rfl⟩ := List.append_of_mem hevent
    obtain ⟨u, hpre, -, hopened⟩ := Stream.before_terminal hstream hterminal
    refine Set.eq_empty_of_forall_notMem fun b hb => ?_
    obtain ⟨hstarts, hends⟩ := Stream.of_opened hpre ((hopened b).mp hb)
    have hone := hwell.closed pre event post b rfl hterminal (starts_map.mp hstarts)
    refine hends (ends_map.mpr ?_)
    have hpos : 0 < pre.countP fun earlier => earlier.kind.endOf = some b := by omega
    simpa using List.countP_pos_iff.mp hpos
  · intro hclosed
    refine ⟨?_, ?_, fun b => ?_, ?_, ?_, ?_, ?_⟩
    · rw [hlength, ← hevents]
      exact map_sequence_stamp r 0 kinds
    · rw [← hevents, map_eventId_stamp]
      exact List.Nodup.map (eventIdOf_injective r) List.nodup_range'
    · have honce := Stream.started_once hstream (b := b)
      rwa [List.countP_map] at honce
    · rintro pre event post b rfl hrefers
      rw [List.map_append, List.map_cons] at hstream
      obtain ⟨u, hpre, hopen⟩ := Stream.refers hstream hrefers
      obtain ⟨hstarts, hends⟩ := Stream.of_opened hpre hopen
      exact ⟨starts_map.mp hstarts, mt ends_map.mpr hends⟩
    · have honce := (Stream.response_once hstream).1
      rwa [List.countP_map] at honce
    · rintro pre event post rfl hevent
      rw [List.map_append, List.map_cons] at hstream
      exact List.map_eq_nil_iff.mp (Stream.last_of_terminal hstream hevent)
    · rintro pre event post b rfl hevent hstarts
      obtain ⟨u, hpre, hover, hopened⟩ := Stream.before_terminal hstream hevent
      have hb : b ∉ u.opened := fun hb => by
        have hmem := (hopened b).mpr hb
        rw [hclosed hover] at hmem
        exact hmem
      have hone := Stream.ended_once hpre hb (starts_map.mpr hstarts)
      rwa [List.countP_map] at hone

end

/-- What is asked of every run of an encoder. -/
def StreamsWellFormed : Prop :=
  ∀ (responseId : String) (deltas : List StreamDelta), ∃ events e,
    (pushAll deltas).run (new responseId) = .ok events e ∧ WellFormed events

/-- **A run of the encoder never panics, and its events are well formed exactly when no delta that
does not fit comes while a block is open.** -/
theorem wellFormed_iff (responseId : String) (deltas : List StreamDelta) :
    ∃ events e, (pushAll deltas).run (new responseId) = .ok events e ∧
      (WellFormed events ↔ NeverStrands deltas (new responseId)) := by
  have hnew : (new responseId).withCount 0 = new responseId := rfl
  obtain ⟨kinds, e, w, hrun, -, hstream, hclosed⟩ :=
    pushAll_spec (T := fun _ v => v.ended → v.opened = ∅) (B := Strands) (c := 0)
      (fun delta hs hv => (run_push delta hs).stream hs hv) deltas (sound_new responseId) (sees_new responseId)
  rw [hnew] at hrun hclosed
  refine ⟨_, _, hrun, ?_⟩
  rw [wellFormed_stamp hstream, hclosed]
  exact and_iff_right fun hover => hover.elim

/-- The deltas of a response that starts twice, with a text block open the second time. -/
def startedTwice : List StreamDelta :=
  [.messageStart "m", .textDelta "a", .messageStart "m"]

/-- The events of that run: the text block is started and goes on, and is not ended. -/
theorem strandsText :
    ∃ events e, (pushAll startedTwice).run (new "r") = .ok events e ∧
      ∃ error, events.getLast? = some error ∧ error.kind.isTerminal ∧
        (∃ event ∈ events.dropLast, event.kind.startOf = some "r-text-1") ∧
        ∀ event ∈ events.dropLast, event.kind.endOf = none := by
  decide +kernel

/-- **Not every run is well formed**: the error event that answers the second start of the
response comes while the text block is open. -/
theorem not_streamsWellFormed : ¬ StreamsWellFormed := by
  intro h
  obtain ⟨events, e, hrun, hwell⟩ := h "r" startedTwice
  obtain ⟨events', e', hrun', error, hlast, herror, hstart, hends⟩ := strandsText
  rw [hrun] at hrun'
  cases hrun'
  have hone := hwell.closed events.dropLast error [] "r-text-1" (List.dropLast_append_getLast? _ hlast).symm herror hstart
  have hnone : events.dropLast.countP (fun earlier => earlier.kind.endOf = some "r-text-1") = 0 :=
    List.countP_eq_zero.mpr fun event hevent => by simp [hends event hevent]
  rw [hnone] at hone
  cases hone

end AikitRuntime.Streaming

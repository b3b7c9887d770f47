import AikitRuntime.ExternalAgent.JsonRpc
import AikitRuntime.Library.Utf8
import Mathlib.Data.List.Induction

/-!
# What an external agent writes to its standard error

`capture_stderr` keeps the last bytes of what an agent writes there, for diagnostics. Each read that has a keyword of a
credential in it is replaced by a marker.

Here the bytes that are kept may know where they are in the stream: `Octet` is a byte, with or without its place, and a
byte of the marker has none. What is kept is the same.
-/

namespace AikitRuntime.ExternalAgent

open Library

def maxAgentStderrTailBytes : Nat := 64 * 2 ^ 10

/-- The size of the buffer of `capture_stderr`. -/
def stderrBufferBytes : Nat := 8 * 2 ^ 10

/-! ### The code -/

/-- A byte, or a byte and more. -/
class Octet (α : Type) where
  value : α → UInt8
  /-- A byte that was not read. -/
  plain : UInt8 → α
  value_plain : ∀ b, value (plain b) = b

instance : Octet UInt8 := ⟨id, id, fun _ => rfl⟩

/-- A byte, and its place in the stream. -/
instance : Octet (UInt8 × Option Nat) := ⟨Prod.fst, (·, none), fun _ => rfl⟩

/-- `text.contains(pattern)`. -/
def containsText (text pattern : List Char) : Bool := text.tails.any pattern.isPrefixOf

def sensitiveKeywords : List String :=
  ["authorization", "api_key", "apikey", "access_token", "refresh_token", "password", "secret"]

/-- One of the keywords is in the bytes, in any case. -/
def isSensitive (bytes : List UInt8) : Bool :=
  let lower := (Utf8.lossy bytes).map Char.toLower
  sensitiveKeywords.any fun pattern => containsText lower pattern.toList

structure StderrTail (α : Type) where
  bytes : List α
  truncated : Bool
  deriving DecidableEq

variable {α : Type} [Octet α]

def redactedMarker : List UInt8 := Utf8.asciiBytes "[sensitive stderr line redacted]\n".toList

/-- `redact_stderr`. -/
def redactStderr (bytes : List α) : List α :=
  if isSensitive (bytes.map Octet.value) then redactedMarker.map Octet.plain else bytes

/-- `StderrTail::push`. -/
def StderrTail.push (tail : StderrTail α) (bytes : List α) : StderrTail α :=
  let bytes := redactStderr bytes
  if maxAgentStderrTailBytes ≤ bytes.length then
    { bytes := bytes.drop (bytes.length - maxAgentStderrTailBytes), truncated := true }
  else
    let overflow := tail.bytes.length + bytes.length - maxAgentStderrTailBytes
    if 0 < overflow then
      { bytes := tail.bytes.drop (min overflow tail.bytes.length) ++ bytes, truncated := true }
    else { tail with bytes := tail.bytes ++ bytes }

/-- `StderrTail::render`. -/
def StderrTail.render (tail : StderrTail UInt8) : List Char :=
  (if tail.truncated then "[earlier stderr truncated]\n".toList else []) ++ Utf8.lossy tail.bytes

/-- `capture_stderr`, after some reads. -/
def captureStderr (reads : List (List α)) : StderrTail α := reads.foldl StderrTail.push ⟨[], false⟩

/-! ### Places -/

/-- What a read brings, with its places. -/
def placed (offset : Nat) (read : List UInt8) : List (UInt8 × Option Nat) :=
  (read.zipIdx offset).map fun entry => (entry.1, some entry.2)

/-- All reads, with their places. -/
def placedReads : Nat → List (List UInt8) → List (List (UInt8 × Option Nat))
  | _, [] => []
  | offset, read :: reads => placed offset read :: placedReads (offset + read.length) reads

@[simp] theorem placed_value (offset : Nat) (read : List UInt8) : (placed offset read).map Octet.value = read := by
  unfold placed
  rw [List.map_map]
  exact List.zipIdx_map_fst offset read

theorem length_placed (offset : Nat) (read : List UInt8) : (placed offset read).length = read.length := by
  simp [placed]

variable {i : Nat} {read : List UInt8}

theorem mem_placed {offset : Nat} {b : UInt8} :
    (b, some i) ∈ placed offset read ↔ offset ≤ i ∧ read[i - offset]? = some b := by
  unfold placed
  simp only [List.mem_map, Prod.mk.injEq, Option.some.injEq, Prod.exists]
  constructor
  · rintro ⟨c, j, hmem, rfl, rfl⟩
    exact List.mk_mem_zipIdx_iff_le_and_getElem?_sub.mp hmem
  · intro h
    exact ⟨b, i, List.mk_mem_zipIdx_iff_le_and_getElem?_sub.mpr h, rfl, rfl⟩

/-- What is kept, without the places. -/
def StderrTail.forget (tail : StderrTail α) : StderrTail UInt8 := ⟨tail.bytes.map Octet.value, tail.truncated⟩

theorem redactStderr_value (bytes : List α) :
    (redactStderr bytes).map Octet.value = redactStderr (bytes.map Octet.value) := by
  have hid : (bytes.map Octet.value).map (@Octet.value UInt8 _) = bytes.map Octet.value := List.map_id _
  unfold redactStderr
  rw [hid]
  split
  · rw [List.map_map]
    exact List.map_congr_left fun b _ => Octet.value_plain b
  · rfl

theorem length_redactStderr (bytes : List α) :
    (redactStderr bytes).length = (redactStderr (bytes.map Octet.value)).length := by
  rw [← redactStderr_value, List.length_map]

theorem forget_push (tail : StderrTail α) (bytes : List α) :
    (tail.push bytes).forget = tail.forget.push (bytes.map Octet.value) := by
  have hlength : (tail.forget).bytes.length = tail.bytes.length := List.length_map _
  unfold StderrTail.push
  dsimp only
  rw [← length_redactStderr, hlength]
  split
  · simp [StderrTail.forget, redactStderr_value, List.map_drop]
  · split
    · simp [StderrTail.forget, redactStderr_value, List.map_drop]
    · simp [StderrTail.forget, redactStderr_value]

theorem forget_foldl (tail : StderrTail α) (reads : List (List α)) :
    (reads.foldl StderrTail.push tail).forget = (reads.map (List.map Octet.value)).foldl StderrTail.push tail.forget := by
  induction reads generalizing tail with
  | nil => rfl
  | cons read reads ih => rw [List.map_cons, List.foldl_cons, List.foldl_cons, ih, forget_push]

/-- **The places change nothing.** -/
theorem captureStderr_value (reads : List (List α)) :
    (captureStderr reads).forget = captureStderr (reads.map (List.map Octet.value)) := forget_foldl _ reads

/-! ### The bound -/

theorem length_push_le (tail : StderrTail α) (bytes : List α) : (tail.push bytes).bytes.length ≤ maxAgentStderrTailBytes := by
  unfold StderrTail.push
  dsimp only
  split
  · rw [List.length_drop]
    omega
  · split
    · rw [List.length_append, List.length_drop]
      omega
    · rw [List.length_append]
      omega

/-- **What is kept is bounded.** -/
theorem length_captureStderr (reads : List (List α)) : (captureStderr reads).bytes.length ≤ maxAgentStderrTailBytes := by
  induction reads using List.reverseRecOn with
  | nil => exact Nat.zero_le _
  | append_singleton reads read =>
    unfold captureStderr
    rw [List.foldl_append]
    exact length_push_le _ _

/-! ### Lines -/

/-- The line around a place: a newline belongs to the line that it ends. -/
def lineAt (stream : List UInt8) (i : Nat) : List UInt8 :=
  ((stream.take i).reverse.takeWhile (· ≠ newline)).reverse ++ (stream.drop i).takeWhile (· ≠ newline)

/-- The byte at the place is one of a line with a keyword. -/
def IsSecret (stream : List UInt8) (i : Nat) : Prop :=
  (∃ b, stream[i]? = some b ∧ b ≠ newline) ∧ isSensitive (lineAt stream i) = true

/-- The bytes of the stream that are kept after some reads. -/
def shownPlaces (reads : List (List UInt8)) : List (Option Nat) :=
  (captureStderr (placedReads 0 reads)).bytes.map Prod.snd

/-- Nothing that is kept at any time is of a line with a keyword. -/
def Hides (reads : List (List UInt8)) : Prop :=
  ∀ shown later, reads = shown ++ later → ∀ i, some i ∈ shownPlaces shown → ¬ IsSecret reads.flatten i

/-- Each read with a byte of such a line has a keyword as well. -/
def Redacts (reads : List (List UInt8)) : Prop :=
  ∀ before read after, reads = before ++ read :: after →
    ∀ i, before.flatten.length ≤ i → i < before.flatten.length + read.length → IsSecret reads.flatten i →
      isSensitive read = true

theorem placedReads_append (offset : Nat) (reads more : List (List UInt8)) :
    placedReads offset (reads ++ more) = placedReads offset reads ++ placedReads (offset + reads.flatten.length) more := by
  induction reads generalizing offset with
  | nil => rfl
  | cons read reads ih =>
    rw [List.cons_append, placedReads, ih, placedReads, List.cons_append, List.flatten_cons, List.length_append,
      Nat.add_assoc]

theorem placedReads_value (offset : Nat) (reads : List (List UInt8)) :
    (placedReads offset reads).map (List.map Octet.value) = reads := by
  induction reads generalizing offset with
  | nil => rfl
  | cons read reads ih => rw [placedReads, List.map_cons, placed_value, ih]

theorem captureStderr_concat (reads : List (List α)) (read : List α) :
    captureStderr (reads ++ [read]) = (captureStderr reads).push read := by
  unfold captureStderr
  rw [List.foldl_append]
  rfl

variable {a : α} {bytes : List α} {tail : StderrTail α}

/-- A byte that is kept was kept before, or it is of what was pushed. -/
theorem mem_push (h : a ∈ (tail.push bytes).bytes) :
    a ∈ tail.bytes ∨ a ∈ redactStderr bytes := by
  unfold StderrTail.push at h
  dsimp only at h
  split at h
  · dsimp only at h
    exact .inr (List.mem_of_mem_drop h)
  · split at h
    · exact (List.mem_append.mp h).imp_left fun hold => List.mem_of_mem_drop hold
    · exact List.mem_append.mp h

/-- All of a read that fits in the buffer is kept, unless it is redacted. -/
theorem subset_push (hfits : bytes.length ≤ stderrBufferBytes)
    (h : isSensitive (bytes.map Octet.value) = false) (ha : a ∈ bytes) : a ∈ (tail.push bytes).bytes := by
  have hbytes : redactStderr bytes = bytes := by
    unfold redactStderr
    rw [h]
    rfl
  have hsmall : ¬ maxAgentStderrTailBytes ≤ bytes.length := by
    unfold stderrBufferBytes at hfits
    unfold maxAgentStderrTailBytes
    omega
  unfold StderrTail.push
  dsimp only
  rw [hbytes, if_neg hsmall]
  split <;> exact List.mem_append_right _ ha

/-- A place that is kept is one of a read that was not redacted. -/
theorem exists_of_shown {reads : List (List UInt8)} (h : some i ∈ shownPlaces reads) :
    ∃ before read after, reads = before ++ read :: after ∧ isSensitive read = false ∧
      before.flatten.length ≤ i ∧ i < before.flatten.length + read.length := by
  induction reads using List.reverseRecOn with
  | nil => cases h
  | append_singleton reads read ih =>
    unfold shownPlaces at h
    rw [placedReads_append, Nat.zero_add] at h
    obtain ⟨⟨b, place⟩, hmem, rfl⟩ := List.mem_map.mp h
    have hpush : placedReads reads.flatten.length [read] = [placed reads.flatten.length read] := rfl
    rw [hpush, captureStderr_concat] at hmem
    rcases mem_push hmem with hold | hnew
    · obtain ⟨before, read', after, rfl, hrest⟩ := ih (List.mem_map.mpr ⟨_, hold, rfl⟩)
      exact ⟨before, read', after ++ [read], by simp, hrest⟩
    · unfold redactStderr at hnew
      rw [placed_value] at hnew
      split at hnew
      · obtain ⟨c, -, hc⟩ := List.mem_map.mp hnew
        cases hc
      · next hsensitive =>
        obtain ⟨hle, hget⟩ := mem_placed.mp hnew
        obtain ⟨hlt, -⟩ := List.getElem?_eq_some_iff.mp hget
        exact ⟨reads, read, [], rfl, Bool.not_eq_true _ ▸ hsensitive, hle, by omega⟩

/-- What a read that is not redacted brings is kept for the moment. -/
theorem shown_of_read {before : List (List UInt8)}
    (hfits : read.length ≤ stderrBufferBytes) (h : isSensitive read = false) (hle : before.flatten.length ≤ i)
    (hlt : i < before.flatten.length + read.length) : some i ∈ shownPlaces (before ++ [read]) := by
  unfold shownPlaces
  rw [placedReads_append, Nat.zero_add]
  have hpush : placedReads before.flatten.length [read] = [placed before.flatten.length read] := rfl
  rw [hpush, captureStderr_concat]
  have hget : (read[i - before.flatten.length], some i) ∈ placed before.flatten.length read :=
    mem_placed.mpr ⟨hle, List.getElem?_eq_getElem (by omega)⟩
  refine List.mem_map.mpr ⟨_, subset_push ?_ ?_ hget, rfl⟩
  · rw [length_placed]
    exact hfits
  · rw [placed_value]
    exact h

/-- **What is kept of an agent's standard error.** It is bounded, and never has a byte of a line with a keyword if and
only if each read with such a byte has a keyword as well. -/
theorem hides_iff (reads : List (List UInt8)) (hreads : ∀ read ∈ reads, read.length ≤ stderrBufferBytes) :
    ((∀ shown later, reads = shown ++ later →
        (captureStderr shown).bytes.length ≤ maxAgentStderrTailBytes ∧
          (captureStderr shown).bytes = (captureStderr (placedReads 0 shown)).bytes.map Prod.fst) ∧
      Hides reads) ↔ Redacts reads := by
  constructor
  · rintro ⟨-, hhides⟩ before read after rfl i hle hlt hsecret
    by_contra hsensitive
    refine hhides (before ++ [read]) after (by simp) i (shown_of_read ?_ ?_ hle hlt) hsecret
    · exact hreads read (List.mem_append_right _ List.mem_cons_self)
    · exact Bool.not_eq_true _ ▸ hsensitive
  · intro hredacts
    refine ⟨fun shown later _ => ⟨length_captureStderr shown, ?_⟩, ?_⟩
    · have hvalue := congrArg StderrTail.bytes (captureStderr_value (placedReads 0 shown))
      rw [placedReads_value] at hvalue
      exact hvalue.symm
    · rintro shown later rfl i hshown hsecret
      obtain ⟨before, read, after, rfl, hsensitive, hle, hlt⟩ := exists_of_shown hshown
      rw [hredacts before read (after ++ later) (by simp) i hle hlt hsecret] at hsensitive
      cases hsensitive

/-- A line with a keyword, and one without. -/
def wholeLines : List (List UInt8) := [Utf8.asciiBytes "password=hunter2\n".toList, Utf8.asciiBytes "ready\n".toList]

theorem hides_iff_wholeLines : Hides wholeLines := by
  refine ((hides_iff wholeLines (by decide +kernel)).mpr ?_).2
  intro before read after heq i hle hlt hsecret
  match before, heq with
  | [], heq =>
    obtain ⟨rfl, -⟩ := List.cons.inj heq
    decide +kernel
  | [first], heq =>
    obtain ⟨rfl, hrest⟩ := List.cons.inj heq
    obtain ⟨rfl, -⟩ := List.cons.inj hrest
    have hclear : ∀ i < 23, 17 ≤ i → isSensitive (lineAt wholeLines.flatten i) = false := by decide +kernel
    have hlow : 17 ≤ i := hle
    exact Bool.noConfusion (hsecret.2.symm.trans (hclear i hlt hlow))
  | first :: second :: rest, heq =>
    obtain ⟨-, hrest⟩ := List.cons.inj heq
    obtain ⟨-, hrest⟩ := List.cons.inj hrest
    cases rest <;> cases hrest

/-- A keyword that is cut in two. -/
def cutKeyword : List (List UInt8) := [Utf8.asciiBytes "pass".toList, Utf8.asciiBytes "word=hunter2\n".toList]

/-- The first read is kept, although its line has a keyword. -/
theorem cutKeyword_shown : ¬ ∀ reads : List (List UInt8), (∀ read ∈ reads, read.length ≤ stderrBufferBytes) →
    Hides reads := by
  intro h
  have hhides := h cutKeyword (by decide)
  refine hhides [Utf8.asciiBytes "pass".toList] [Utf8.asciiBytes "word=hunter2\n".toList] rfl 0 (by decide +kernel) ⟨⟨0x70, ?_, ?_⟩, ?_⟩
  · decide
  · decide
  · decide +kernel

end AikitRuntime.ExternalAgent

import AikitRuntime.Durability.Canonical
import AikitRuntime.Library.Utf8

/-!
# Evaluating digests

A closed statement about a run that hashes is settled by evaluating the run, and there the words of
`hexSha256` and the characters of the texts are what takes the time. `quickDigest` computes the same
digests with plain numbers: a word is a natural number below `2 ^ 32`, a round takes its eight words
and the window of the schedule as arguments, and a text of one-byte characters is read off its bytes.
-/

namespace AikitRuntime.Durability

open Library

/-! ### Rounds over numbers -/

namespace Quick

def add (a b : Nat) : Nat := Nat.mod (Nat.add a b) 4294967296

def rotateRight (w n : Nat) : Nat :=
  Nat.lor (Nat.shiftRight w n) (Nat.mod (Nat.shiftLeft w (Nat.sub 32 n)) 4294967296)

/-- The next word of the schedule, from four words of the window. -/
def nextWord (w0 w1 w9 w14 : Nat) : Nat :=
  add (add (add w0 (Nat.xor (Nat.xor (rotateRight w1 7) (rotateRight w1 18)) (Nat.shiftRight w1 3))) w9)
    (Nat.xor (Nat.xor (rotateRight w14 17) (rotateRight w14 19)) (Nat.shiftRight w14 10))

def sum1 (e f g h k word : Nat) : Nat :=
  add (add (add (add h (Nat.xor (Nat.xor (rotateRight e 6) (rotateRight e 11)) (rotateRight e 25)))
    (Nat.xor (Nat.land e f) (Nat.land (Nat.sub 4294967295 e) g))) k) word

def sum0 (a b c : Nat) : Nat :=
  add (Nat.xor (Nat.xor (rotateRight a 2) (rotateRight a 13)) (rotateRight a 22))
    (Nat.xor (Nat.xor (Nat.land a b) (Nat.land a c)) (Nat.land b c))

theorem add_toNat (a b : UInt32) : add a.toNat b.toNat = (a + b).toNat := (UInt32.toNat_add a b).symm

theorem rotateRight_toNat (w n : UInt32) (h : 0 < n.toNat) (h' : n.toNat < 32) :
    rotateRight w.toNat n.toNat = (Sha256.rotateRight w n).toNat := by
  have hleft : (32 - n).toNat = 32 - n.toNat := UInt32.toNat_sub_of_le _ _ (by
    rw [UInt32.le_iff_toNat_le]
    exact Nat.le_of_lt h')
  unfold rotateRight Sha256.rotateRight
  rw [UInt32.toNat_or, UInt32.toNat_shiftRight, UInt32.toNat_shiftLeft, hleft, Nat.mod_eq_of_lt h',
    Nat.mod_eq_of_lt (show 32 - n.toNat < 32 by omega)]
  rfl

theorem not_toNat (w : UInt32) : Nat.sub 4294967295 w.toNat = (~~~w).toNat := by
  rw [UInt32.toNat_not]
  rfl

theorem nextWord_toNat (w0 w1 w2 w3 w4 w5 w6 w7 w8 w9 w10 w11 w12 w13 w14 w15 : UInt32) :
    nextWord w0.toNat w1.toNat w9.toNat w14.toNat =
      (Sha256.nextWord [w0, w1, w2, w3, w4, w5, w6, w7, w8, w9, w10, w11, w12, w13, w14, w15]).toNat := by
  have hrotate (w n : UInt32) (h : 0 < n.toNat) (h' : n.toNat < 32) := rotateRight_toNat w n h h'
  unfold nextWord Sha256.nextWord
  rw [show rotateRight w1.toNat 7 = _ from hrotate w1 7 (by decide) (by decide),
    show rotateRight w1.toNat 18 = _ from hrotate w1 18 (by decide) (by decide),
    show rotateRight w14.toNat 17 = _ from hrotate w14 17 (by decide) (by decide),
    show rotateRight w14.toNat 19 = _ from hrotate w14 19 (by decide) (by decide)]
  simp only [List.getD_cons_zero, List.getD_cons_succ, ← add_toNat, UInt32.toNat_xor, UInt32.toNat_shiftRight]
  rfl

theorem sum1_toNat (e f g h k word : UInt32) :
    sum1 e.toNat f.toNat g.toNat h.toNat k.toNat word.toNat =
      (h + (Sha256.rotateRight e 6 ^^^ Sha256.rotateRight e 11 ^^^ Sha256.rotateRight e 25) +
        ((e &&& f) ^^^ (~~~e &&& g)) + k + word).toNat := by
  unfold sum1
  rw [show rotateRight e.toNat 6 = _ from rotateRight_toNat e 6 (by decide) (by decide),
    show rotateRight e.toNat 11 = _ from rotateRight_toNat e 11 (by decide) (by decide),
    show rotateRight e.toNat 25 = _ from rotateRight_toNat e 25 (by decide) (by decide), not_toNat]
  simp only [← add_toNat, UInt32.toNat_xor, UInt32.toNat_and]
  rfl

theorem sum0_toNat (a b c : UInt32) :
    sum0 a.toNat b.toNat c.toNat =
      ((Sha256.rotateRight a 2 ^^^ Sha256.rotateRight a 13 ^^^ Sha256.rotateRight a 22) +
        ((a &&& b) ^^^ (a &&& c) ^^^ (b &&& c))).toNat := by
  unfold sum0
  rw [show rotateRight a.toNat 2 = _ from rotateRight_toNat a 2 (by decide) (by decide),
    show rotateRight a.toNat 13 = _ from rotateRight_toNat a 13 (by decide) (by decide),
    show rotateRight a.toNat 22 = _ from rotateRight_toNat a 22 (by decide) (by decide)]
  simp only [← add_toNat, UInt32.toNat_xor, UInt32.toNat_and]
  rfl

/-- The words of a hash and the window, as arguments. -/
abbrev Rounds : Type :=
  Nat → Nat → Nat → Nat → Nat → Nat → Nat → Nat → Nat → Nat → Nat → Nat → Nat → Nat → Nat → Nat → Nat → Nat → Nat →
    Nat → Nat → Nat → Nat → Nat → Sha256.Words

/-- The rounds, by the recursor: the kernel evaluates it at once. -/
def rounds (ks : List Nat) : Rounds :=
  @List.rec Nat (fun _ => Rounds)
    (fun a b c d e f g h _ _ _ _ _ _ _ _ _ _ _ _ _ _ _ _ =>
      ⟨.ofNat a, .ofNat b, .ofNat c, .ofNat d, .ofNat e, .ofNat f, .ofNat g, .ofNat h⟩)
    (fun k _ later a b c d e f g h w0 w1 w2 w3 w4 w5 w6 w7 w8 w9 w10 w11 w12 w13 w14 w15 =>
      (fun sum => later (add (sum0 a b c) sum) a b c (add d sum) e f g
        w1 w2 w3 w4 w5 w6 w7 w8 w9 w10 w11 w12 w13 w14 w15 (nextWord w0 w1 w9 w14)) (sum1 e f g h k w0))
    ks

/-- **The rounds over numbers** are the rounds with the schedule. -/
theorem rounds_numbers (ks : List UInt32) (w : Sha256.Words)
    (w0 w1 w2 w3 w4 w5 w6 w7 w8 w9 w10 w11 w12 w13 w14 w15 : UInt32) :
    rounds (ks.map UInt32.toNat) w.a.toNat w.b.toNat w.c.toNat w.d.toNat w.e.toNat w.f.toNat w.g.toNat w.h.toNat
        w0.toNat w1.toNat w2.toNat w3.toNat w4.toNat w5.toNat w6.toNat w7.toNat w8.toNat w9.toNat w10.toNat w11.toNat
        w12.toNat w13.toNat w14.toNat w15.toNat =
      Sha256.rounds w ks (Sha256.schedule ks.length
        [w0, w1, w2, w3, w4, w5, w6, w7, w8, w9, w10, w11, w12, w13, w14, w15]) := by
  induction ks generalizing w w0 w1 w2 w3 w4 w5 w6 w7 w8 w9 w10 w11 w12 w13 w14 w15 with
  | nil => simp [rounds, Sha256.rounds]
  | cons k ks ih =>
    have hnext := nextWord_toNat w0 w1 w2 w3 w4 w5 w6 w7 w8 w9 w10 w11 w12 w13 w14 w15
    have hround := ih (Sha256.round w k w0) w1 w2 w3 w4 w5 w6 w7 w8 w9 w10 w11 w12 w13 w14 w15
      (Sha256.nextWord [w0, w1, w2, w3, w4, w5, w6, w7, w8, w9, w10, w11, w12, w13, w14, w15])
    have hfirst : add (sum0 w.a.toNat w.b.toNat w.c.toNat)
        (sum1 w.e.toNat w.f.toNat w.g.toNat w.h.toNat k.toNat w0.toNat) = (Sha256.round w k w0).a.toNat := by
      rw [sum0_toNat, sum1_toNat, add_toNat]
      rfl
    have hfifth : add w.d.toNat (sum1 w.e.toNat w.f.toNat w.g.toNat w.h.toNat k.toNat w0.toNat) =
        (Sha256.round w k w0).e.toNat := by
      rw [sum1_toNat, add_toNat]
      rfl
    rw [← hnext, ← hfirst, ← hfifth] at hround
    exact hround

/-- One chunk. -/
def compress (hash : Sha256.Words) (w0 w1 w2 w3 w4 w5 w6 w7 w8 w9 w10 w11 w12 w13 w14 w15 : UInt32) : Sha256.Words :=
  (fun w : Sha256.Words => ⟨hash.a + w.a, hash.b + w.b, hash.c + w.c, hash.d + w.d,
    hash.e + w.e, hash.f + w.f, hash.g + w.g, hash.h + w.h⟩)
    (rounds (Sha256.k.map UInt32.toNat) hash.a.toNat hash.b.toNat hash.c.toNat hash.d.toNat hash.e.toNat hash.f.toNat
      hash.g.toNat hash.h.toNat w0.toNat w1.toNat w2.toNat w3.toNat w4.toNat w5.toNat w6.toNat w7.toNat w8.toNat w9.toNat w10.toNat w11.toNat
      w12.toNat w13.toNat w14.toNat w15.toNat)

theorem compress_eq (hash : Sha256.Words) (w0 w1 w2 w3 w4 w5 w6 w7 w8 w9 w10 w11 w12 w13 w14 w15 : UInt32) :
    compress hash w0 w1 w2 w3 w4 w5 w6 w7 w8 w9 w10 w11 w12 w13 w14 w15 =
      Sha256.compress hash [w0, w1, w2, w3, w4, w5, w6, w7, w8, w9, w10, w11, w12, w13, w14, w15] := by
  unfold compress Sha256.compress
  rw [rounds_numbers]
  rfl

/-- `Sha256.digestChunks`. -/
def digestChunks : Nat → Sha256.Words → List UInt32 → Sha256.Words
  | 0, hash, _ => hash
  | _, hash, [] => hash
  | count + 1, hash, w0 :: w1 :: w2 :: w3 :: w4 :: w5 :: w6 :: w7 :: w8 :: w9 :: w10 :: w11 :: w12 :: w13 :: w14 ::
      w15 :: words =>
    digestChunks count (compress hash w0 w1 w2 w3 w4 w5 w6 w7 w8 w9 w10 w11 w12 w13 w14 w15) words
  | count, hash, words => Sha256.digestChunks count hash words

theorem digestChunks_eq (count : Nat) (hash : Sha256.Words) (words : List UInt32) :
    digestChunks count hash words = Sha256.digestChunks count hash words := by
  fun_induction digestChunks count hash words with
  | case1 => rfl
  | case2 => simp [Sha256.digestChunks]
  | case3 count hash w0 w1 w2 w3 w4 w5 w6 w7 w8 w9 w10 w11 w12 w13 w14 w15 words ih =>
    rw [ih, compress_eq]
    rfl
  | case4 => rfl

/-! ### Texts -/

theorem utf8_eq (chars : List Char) : utf8 chars = chars.flatMap String.utf8EncodeChar := by
  unfold utf8
  rw [String.toUTF8, toList_eq, Utf8.bytes_eq, String.toList_ofList]

theorem utf8Encode_eq (chars : List Char) : List.utf8Encode chars = ⟨⟨chars.flatMap String.utf8EncodeChar⟩⟩ := by
  rw [List.utf8Encode]
  exact ByteArray.ext List.data_toByteArray

/-- `String.ofList`, by its bytes. -/
def ofChars (chars : List Char) : String :=
  ⟨⟨⟨chars.flatMap String.utf8EncodeChar⟩⟩, utf8Encode_eq chars ▸ ByteArray.isValidUTF8_utf8Encode⟩

theorem ofChars_eq (chars : List Char) : ofChars chars = String.ofList chars := by
  rw [← String.toByteArray_inj, String.toByteArray_ofList, utf8Encode_eq]
  rfl

theorem ofChars_append (text : String) (chars : List Char) :
    ofChars (text.toList ++ chars) = text ++ String.ofList chars := by
  rw [ofChars_eq, String.ofList_append, String.ofList_toList]

/-- `hashField`. -/
def field (text : String) : List UInt8 :=
  Sha256.toBeBytes text.toByteArray.data.toList.length ++ text.toByteArray.data.toList

theorem field_eq (text : String) : field text = hashField text := by
  unfold field hashField
  rw [String.toUTF8, toList_eq]

/-! ### Digests -/

/-- `Sha256.hexWord`. -/
def hexWord (w : UInt32) : List Char :=
  (fun n : Nat => [Sha256.hexDigit (n / 268435456 % 16), Sha256.hexDigit (n / 16777216 % 16),
    Sha256.hexDigit (n / 1048576 % 16), Sha256.hexDigit (n / 65536 % 16), Sha256.hexDigit (n / 4096 % 16),
    Sha256.hexDigit (n / 256 % 16), Sha256.hexDigit (n / 16 % 16), Sha256.hexDigit (n % 16)]) w.toNat

theorem hexWord_eq (w : UInt32) : hexWord w = Sha256.hexWord w := by
  show _ = [Sha256.hexDigit (w.toNat / 16 ^ 7 % 16), Sha256.hexDigit (w.toNat / 16 ^ 6 % 16),
    Sha256.hexDigit (w.toNat / 16 ^ 5 % 16), Sha256.hexDigit (w.toNat / 16 ^ 4 % 16),
    Sha256.hexDigit (w.toNat / 16 ^ 3 % 16), Sha256.hexDigit (w.toNat / 16 ^ 2 % 16),
    Sha256.hexDigit (w.toNat / 16 ^ 1 % 16), Sha256.hexDigit (w.toNat / 16 ^ 0 % 16)]
  rw [pow_zero, Nat.div_one]
  rfl

/-- `hexSha256`. -/
def hex (input : List UInt8) : List Char :=
  let words := Sha256.toWords (Sha256.pad input)
  let hash := digestChunks words.length Sha256.initial words
  hexWord hash.a ++ (hexWord hash.b ++ (hexWord hash.c ++ (hexWord hash.d ++ (hexWord hash.e ++ (hexWord hash.f ++
    (hexWord hash.g ++ hexWord hash.h))))))

theorem hex_eq (input : List UInt8) : hex input = hexSha256 input := by
  unfold hex hexSha256
  simp only [digestChunks_eq, hexWord_eq, List.flatMap_cons, List.flatMap_nil, List.append_nil]

/-- What the text of a digest starts with. -/
def digestLabel : List Char := ['s', 'h', 'a', '2', '5', '6', ':']

theorem label_eq (chars : List Char) : ofChars (digestLabel ++ chars) = "sha256:" ++ String.ofList chars :=
  ofChars_append "sha256:" chars

theorem identifier_eq (ns : String) (digits : List Char) :
    ofChars (Utf8.charsOf ns ++ '_' :: digits) = ns ++ "_" ++ String.ofList digits := by
  rw [Utf8.charsOf_eq, ofChars_append, String.append_assoc, String.ofList_cons]
  rfl

end Quick

/-- The digest of the source, quick to evaluate. -/
@[reducible] def quickDigest : Digest where
  stableIdentifier ns parts :=
    Quick.ofChars (Utf8.charsOf ns ++ '_' :: Quick.hex ((ns :: parts).flatMap Quick.field))
  stableInputHash value :=
    Quick.ofChars (Quick.digestLabel ++ Quick.hex ((canonicalJson value).flatMap String.utf8EncodeChar))
  canonicalDigest payload :=
    Quick.ofChars (Quick.digestLabel ++ Quick.hex (payload.json.flatMap String.utf8EncodeChar))
  stableIdentifier_valid ns parts h := by
    rw [Quick.identifier_eq, Quick.hex_eq, funext Quick.field_eq]
    exact sha256.stableIdentifier_valid ns parts h

/-- **The digest of the source is the quick one.** -/
theorem sha256_eq_quick : sha256 = quickDigest := by
  have hfield : Quick.field = hashField := funext Quick.field_eq
  unfold sha256 quickDigest
  simp only [Quick.identifier_eq, Quick.label_eq, Quick.hex_eq, Quick.utf8_eq, hfield]

end AikitRuntime.Durability

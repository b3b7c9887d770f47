import AikitRuntime.Journal.Records
import AikitRuntime.Durability.Sha256

/-!
# Names and digests

The names of restores are distinct and pass `validate_id`. A digest can be any number below
`16 ^ 64`, written out in hexadecimal, and `digest` is one way to do so. It is what a host is made
of here when one has to be shown: a number for each record, and its digest as the hash.
-/

namespace AikitRuntime.Journal

open Library Durability

/-- A text has at most four bytes for each character. -/
theorem utf8ByteSize_le (chars : List Char) : (String.ofList chars).utf8ByteSize ≤ 4 * chars.length := by
  induction chars with
  | nil => decide
  | cons c chars ih =>
    have hsplit : String.ofList (c :: chars) = String.singleton c ++ String.ofList chars := by
      rw [← String.toList_inj]
      simp
    have hone := c.utf8Size_le_four
    rw [hsplit, String.utf8ByteSize_append, String.utf8ByteSize_singleton, List.length_cons]
    omega

/-- A text that is neither empty nor long, and has no control characters. -/
theorem validateId_ofList {field : String} {chars : List Char} (hne : chars ≠ [])
    (hlength : chars.length ≤ 128) (hcontrol : chars.any isControl = false) :
    validateId field (String.ofList chars) = .ok () := by
  have hsize := utf8ByteSize_le chars
  refine refuseIf_of_not ?_
  rintro (hempty | hlong | hbad)
  · rw [← String.toList_inj, String.toList_ofList] at hempty
    exact hne hempty
  · unfold a2aMapperJournalIdMaxBytes at hlong
    omega
  · rw [hasControl_eq, String.toList_ofList, hcontrol] at hbad
    cases hbad

/-! ### The names of restores -/

/-- The name of a restore. -/
def restoreName (n : Nat) : String := s!"a2a-restore-{n}"

theorem restoreName_toList (n : Nat) :
    (restoreName n).toList = "a2a-restore-".toList ++ Nat.toDigits 10 n := by
  show ("a2a-restore-" ++ n.repr).toList = _
  rw [String.toList_append, Nat.toList_repr]

theorem restoreName_injective {n m : Nat} (h : restoreName n = restoreName m) : n = m := by
  have hlist := congrArg String.toList h
  rw [restoreName_toList, restoreName_toList, List.append_cancel_left_eq] at hlist
  have hvalue := congrArg (fun chars => Nat.ofDigitChars 10 chars 0) hlist
  simpa [Nat.ofDigitChars_toDigits] using hvalue

theorem isControl_of_isDigit {c : Char} (h : c.isDigit = true) : isControl c = false := by
  unfold Char.isDigit at h
  simp only [Bool.and_eq_true, decide_eq_true_iff, UInt32.le_iff_toNat_le] at h
  unfold isControl
  have hlow : 48 ≤ c.toNat := h.1
  have hhigh : c.toNat ≤ 57 := h.2
  simp only [Bool.or_eq_false_iff, Bool.and_eq_false_iff, decide_eq_false_iff_not]
  omega

theorem validateId_restoreName {n : Nat} (h : n ≤ u64Max) (field : String) :
    validateId field (restoreName n) = .ok () := by
  have hdigits : (Nat.toDigits 10 n).length ≤ 20 := by
    refine (Nat.length_toDigits_le_iff (by decide) (by decide)).mpr ?_
    exact Nat.lt_of_le_of_lt h (by decide)
  rw [← String.ofList_toList (s := restoreName n), restoreName_toList]
  refine validateId_ofList ?_ ?_ ?_
  · simp
  · rw [List.length_append]
    have hname : "a2a-restore-".toList.length = 12 := by decide
    omega
  · rw [List.any_append, Bool.or_eq_false_iff]
    refine ⟨by decide, List.any_eq_false.mpr fun c hc => ?_⟩
    rw [isControl_of_isDigit (Nat.isDigit_of_mem_toDigits (by decide) (by decide) hc)]
    nofun

/-! ### Digests -/

/-- The digits of a number in hexadecimal, the lowest first. -/
def hexDigits (count n : Nat) : List Char :=
  (List.range count).map fun i => Sha256.hexDigit (n / 16 ^ i % 16)

/-- A number as a digest. -/
def digest (n : Nat) : String := String.ofList ("sha256:".toList ++ hexDigits 64 n)

theorem length_hexDigits (count n : Nat) : (hexDigits count n).length = count := by
  simp [hexDigits]

theorem isHexDigit_hexDigit : ∀ d < 16, isHexDigit (Sha256.hexDigit d) = true := by decide

theorem isControl_hexDigit : ∀ d < 16, isControl (Sha256.hexDigit d) = false := by decide

theorem hexDigit_injective : ∀ d < 16, ∀ e < 16, Sha256.hexDigit d = Sha256.hexDigit e → d = e := by
  decide

theorem isSha256Digest_digest (n : Nat) : isSha256Digest (digest n) = true := by
  have hall : (hexDigits 64 n).all isHexDigit = true := by
    refine List.all_eq_true.mpr fun c hc => ?_
    obtain ⟨i, -, rfl⟩ := List.mem_map.mp hc
    exact isHexDigit_hexDigit _ (Nat.mod_lt _ (by decide))
  have htake : ("sha256:".toList ++ hexDigits 64 n).take 7 = "sha256:".toList :=
    List.take_left' (by decide)
  have hdrop : ("sha256:".toList ++ hexDigits 64 n).drop 7 = hexDigits 64 n :=
    List.drop_left' (by decide)
  unfold isSha256Digest digest
  dsimp only
  rw [String.toList_ofList, htake, hdrop, length_hexDigits, hall]
  rfl

theorem validateId_digest (field : String) (n : Nat) : validateId field (digest n) = .ok () := by
  refine validateId_ofList ?_ ?_ ?_
  · simp
  · rw [List.length_append, length_hexDigits]
    decide
  · rw [List.any_append, Bool.or_eq_false_iff]
    refine ⟨by decide, List.any_eq_false.mpr fun c hc => ?_⟩
    obtain ⟨i, -, rfl⟩ := List.mem_map.mp hc
    rw [isControl_hexDigit _ (Nat.mod_lt _ (by decide))]
    nofun

/-- A number is known by its lowest digits. -/
theorem mod_eq_of_digits {n m : Nat} (count : Nat)
    (h : ∀ i < count, n / 16 ^ i % 16 = m / 16 ^ i % 16) : n % 16 ^ count = m % 16 ^ count := by
  induction count with
  | zero => rw [Nat.pow_zero, Nat.mod_one, Nat.mod_one]
  | succ count ih =>
    rw [Nat.mod_pow_succ, Nat.mod_pow_succ, ih fun i hi => h i (Nat.lt_succ_of_lt hi),
      h count (Nat.lt_succ_self count)]

theorem mod_eq_of_hexDigits {n m count : Nat} (h : hexDigits count n = hexDigits count m) :
    n % 16 ^ count = m % 16 ^ count := by
  refine mod_eq_of_digits count fun i hi => ?_
  have hget := congrArg (fun chars : List Char => chars[i]?) h
  simp only [hexDigits, List.getElem?_map, List.getElem?_range hi, Option.map_some,
    Option.some.injEq] at hget
  exact hexDigit_injective _ (Nat.mod_lt _ (by decide)) _ (Nat.mod_lt _ (by decide)) hget

theorem digest_injective {n m : Nat} (hn : n < 16 ^ 64) (hm : m < 16 ^ 64)
    (h : digest n = digest m) : n = m := by
  have hlist : hexDigits 64 n = hexDigits 64 m := List.append_cancel_left (String.ofList_injective h)
  have hmod := mod_eq_of_hexDigits hlist
  rwa [Nat.mod_eq_of_lt hn, Nat.mod_eq_of_lt hm] at hmod

end AikitRuntime.Journal

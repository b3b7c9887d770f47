import AikitRuntime.Library.Calendar
import AikitRuntime.Library.Refusals

/-!
# Timestamps on the wire

A task's status timestamp is written as RFC 3339 in UTC, and `statusTimestampAfter` is read as RFC 3339 with any
offset. Both go between a count of milliseconds and a date of the proleptic Gregorian calendar. Arithmetic on `i64`,
an index into bytes and a slice of a text panic where Rust's do: `Checked` is a computation that may end so.

A text is read by its bytes. A slice must begin and end between characters, and a byte that is no digit may be inside
one only where the text is not ASCII.
-/

namespace AikitRuntime.A2a

open Library Library.Calendar

/-! ### Computations that may panic -/

/-- How a call ends that gives no value. -/
inductive Fault where
  | error (text : String)
  | panicked
  deriving DecidableEq

abbrev Checked : Type → Type := Except Fault

/-- The value of an operation on `i64`, which panics when it overflows. -/
def i64 (n : Int) : Checked Int := if -2 ^ 63 ≤ n ∧ n < 2 ^ 63 then .ok n else .error .panicked

/-- The value of a checked operation on `i64`. -/
def checkedI64 (n : Int) : Option Int := if -2 ^ 63 ≤ n ∧ n < 2 ^ 63 then some n else none

/-- `n as i64`, of a `u64`. -/
def asI64 (n : Nat) : Int := if n < 2 ^ 63 then n else n - 2 ^ 64

/-- What is divided for an era: a division that truncates rounds a negative number up. -/
def eraDividend (n last : Int) : Checked Int := if 0 ≤ n then pure n else i64 (n - last)

/-! ### Writing -/

/-! The date of `unix_millis_rfc3339`, from the days since the epoch. -/

/-- `era` and `day_of_era`. -/
def writtenEra (shifted : Int) : Checked (Int × Int) := do
  let dividend ← eraDividend shifted 146096
  let era := dividend.tdiv 146097
  let dayOfEra ← i64 (shifted - (← i64 (era * 146097)))
  pure (era, dayOfEra)

/-- `year_of_era`. -/
def writtenYearOfEra (dayOfEra : Int) : Checked Int := do
  let years ← i64 (dayOfEra - dayOfEra.tdiv 1460)
  let years ← i64 (years + dayOfEra.tdiv 36524)
  let years ← i64 (years - dayOfEra.tdiv 146096)
  pure (years.tdiv 365)

/-- `day_of_year`. -/
def writtenDayOfYear (dayOfEra yearOfEra : Int) : Checked Int := do
  let elapsed ← i64 ((← i64 (365 * yearOfEra)) + yearOfEra.tdiv 4)
  let elapsed ← i64 (elapsed - yearOfEra.tdiv 100)
  i64 (dayOfEra - elapsed)

/-- `month_prime`. -/
def writtenMonthPrime (dayOfYear : Int) : Checked Int := do
  let fifths ← i64 ((← i64 (5 * dayOfYear)) + 2)
  pure (fifths.tdiv 153)

/-- `day`. -/
def writtenDay (dayOfYear monthPrime : Int) : Checked Int := do
  let fifths ← i64 ((← i64 (153 * monthPrime)) + 2)
  i64 ((← i64 (dayOfYear - fifths.tdiv 5)) + 1)

/-- `year`, `month` and `day`. -/
def civilFromDays (days : Int) : Checked (Int × Int × Int) := do
  let shifted ← i64 (days + 719468)
  let (era, dayOfEra) ← writtenEra shifted
  let yearOfEra ← writtenYearOfEra dayOfEra
  let year ← i64 (yearOfEra + (← i64 (era * 400)))
  let dayOfYear ← writtenDayOfYear dayOfEra yearOfEra
  let monthPrime ← writtenMonthPrime dayOfYear
  let day ← writtenDay dayOfYear monthPrime
  let month ← i64 (monthPrime + if monthPrime < 10 then 3 else -9)
  let year ← i64 (year + if month ≤ 2 then 1 else 0)
  pure (year, month, day)

/-- `{n:0width}`. -/
def zeroPadded (width : Nat) : Int → List Char
  | .ofNat n => List.replicate (width - (Nat.toDigits 10 n).length) '0' ++ Nat.toDigits 10 n
  | .negSucc n =>
    '-' :: (List.replicate (width - 1 - (Nat.toDigits 10 (n + 1)).length) '0' ++ Nat.toDigits 10 (n + 1))

/-- `unix_millis_rfc3339`. -/
def unixMillisRfc3339 (unixMs : Nat) : Checked String := do
  let seconds := unixMs / 1000
  let millis := unixMs % 1000
  let days := asI64 (seconds / 86400)
  let secondsOfDay := seconds % 86400
  let (year, month, day) ← civilFromDays days
  let hour := secondsOfDay / 3600
  let minute := secondsOfDay % 3600 / 60
  let second := secondsOfDay % 60
  pure (String.ofList (zeroPadded 4 year ++ '-' :: zeroPadded 2 month ++ '-' :: zeroPadded 2 day ++
    'T' :: zeroPadded 2 hour ++ ':' :: zeroPadded 2 minute ++ ':' :: zeroPadded 2 second ++
    '.' :: zeroPadded 3 millis ++ ['Z']))

/-! ### Texts as bytes -/

/-- `bytes[i]`. -/
def byteAt (bytes : List UInt8) (i : Nat) : Checked UInt8 := okOr bytes[i]? .panicked

/-- `u8::is_ascii_digit`. -/
def isAsciiDigit (b : UInt8) : Bool := 0x30 ≤ b && b ≤ 0x39

/-- `str::is_char_boundary`. -/
def isCharBoundary (bytes : List UInt8) (i : Nat) : Bool :=
  i = 0 || i = bytes.length || bytes[i]?.any fun b => b < 0x80 || 0xc0 ≤ b

/-- `str::get` of a range. -/
def strGet (bytes : List UInt8) (start stop : Nat) : Option (List UInt8) :=
  if start ≤ stop ∧ isCharBoundary bytes start ∧ isCharBoundary bytes stop then
    some ((bytes.drop start).take (stop - start))
  else none

/-- The number that digits write. -/
def decimalValue (digits : List UInt8) : Nat := digits.foldl (fun n b => 10 * n + (b.toNat - 0x30)) 0

/-- `parse::<i64>()`, of a text of digits. -/
def parseI64 (digits : List UInt8) : Option Int :=
  if digits = [] ∨ 2 ^ 63 ≤ decimalValue digits then none else some (decimalValue digits)

/-! ### Reading -/

section
variable (bytes : List UInt8) (invalid : Fault)

/-- The closure `digits`. -/
def digits (start stop : Nat) : Checked Int := do
  let slice ← okOr (strGet bytes start stop) invalid
  if slice.all isAsciiDigit then okOr (parseI64 slice) invalid else .error invalid

/-- The days of a month. -/
def daysInMonth (year month : Int) : Int :=
  let leapYear := (year.tmod 4 = 0 ∧ year.tmod 100 ≠ 0) ∨ year.tmod 400 = 0
  if month ∈ [1, 3, 5, 7, 8, 10, 12] then 31
  else if month ∈ [4, 6, 9, 11] then 30
  else if leapYear then 29 else 28

/-- The loop over the digits of a fraction. -/
def skipDigits : List UInt8 → Nat → Nat
  | [], stop => stop
  | b :: rest, stop => if isAsciiDigit b then skipDigits rest (stop + 1) else stop

/-- The milliseconds of a fraction: its first three digits, or as many as there are. -/
def paddedFraction (fraction : List UInt8) : List UInt8 :=
  fraction.take 3 ++ List.replicate (3 - fraction.length) 0x30

/-- The optional fraction: its milliseconds, and where it ends. -/
def readFraction (cursor : Nat) : Checked (Int × Nat) :=
  if bytes[cursor]? = some 0x2e then do
    let fractionStart := cursor + 1
    let fractionEnd := skipDigits (bytes.drop fractionStart) fractionStart
    refuseIf (fractionEnd = fractionStart) invalid
    let fraction ← okOr (strGet bytes fractionStart fractionEnd) .panicked
    let millis ← okOr (parseI64 (paddedFraction fraction)) invalid
    pure (millis, fractionEnd)
  else pure (0, cursor)

/-- The offset, in minutes. -/
def readOffset (cursor : Nat) : Checked Int :=
  match bytes[cursor]? with
  | none => .error invalid
  | some sign =>
    if (sign = 0x5a ∨ sign = 0x7a) ∧ cursor + 1 = bytes.length then pure 0
    else if (sign = 0x2b ∨ sign = 0x2d) ∧ cursor + 6 = bytes.length then do
      refuseIf ((← byteAt bytes (cursor + 3)) ≠ 0x3a) invalid
      let offsetHour ← digits bytes invalid (cursor + 1) (cursor + 3)
      let offsetMinute ← digits bytes invalid (cursor + 4) (cursor + 6)
      refuseIf (23 < offsetHour ∨ 59 < offsetMinute) invalid
      let magnitude ← i64 ((← i64 (offsetHour * 60)) + offsetMinute)
      if sign = 0x2d then i64 (-magnitude) else pure magnitude
    else .error invalid

/-! The days since the epoch. -/

/-- `era` and `year_of_era`. -/
def readEra (adjustedYear : Int) : Checked (Int × Int) := do
  let dividend ← eraDividend adjustedYear 399
  let era := dividend.tdiv 400
  let yearOfEra ← i64 (adjustedYear - (← i64 (era * 400)))
  pure (era, yearOfEra)

/-- `month_prime`. -/
def readMonthPrime (month : Int) : Checked Int := if 2 < month then i64 (month - 3) else i64 (month + 9)

/-- `day_of_year`. -/
def readDayOfYear (month day : Int) : Checked Int := do
  let monthPrime ← readMonthPrime month
  let fifths ← i64 ((← i64 (153 * monthPrime)) + 2)
  i64 ((← i64 (fifths.tdiv 5 + day)) - 1)

/-- `day_of_era`. -/
def readDayOfEra (yearOfEra dayOfYear : Int) : Checked Int := do
  let elapsed ← i64 ((← i64 (yearOfEra * 365)) + yearOfEra.tdiv 4)
  let elapsed ← i64 (elapsed - yearOfEra.tdiv 100)
  i64 (elapsed + dayOfYear)

/-- `days`. -/
def daysFromCivil (year month day : Int) : Checked Int := do
  let adjustedYear ← i64 (year - if month ≤ 2 then 1 else 0)
  let (era, yearOfEra) ← readEra adjustedYear
  let dayOfYear ← readDayOfYear month day
  let dayOfEra ← readDayOfEra yearOfEra dayOfYear
  i64 ((← i64 ((← i64 (era * 146097)) + dayOfEra)) - 719468)

/-- The milliseconds of a day before a time of it. -/
def timeMillis (hour minute second millis : Int) : Checked Int := do
  let timeMs ← i64 ((← i64 (hour * 3600000)) + (← i64 (minute * 60000)))
  i64 ((← i64 (timeMs + (← i64 (second * 1000)))) + millis)

/-- The end of `parse_rfc3339_unix_millis`: the milliseconds since the epoch. -/
def toUnixMillis (days hour minute second millis offsetMinutes : Int) : Checked Nat := do
  let dayMs ← okOr (checkedI64 (days * 86400000)) invalid
  let timeMs ← timeMillis hour minute second millis
  let total ← okOr (checkedI64 (dayMs + timeMs)) invalid
  let total ← okOr (checkedI64 (total - (← i64 (offsetMinutes * 60000)))) invalid
  -- `u64::try_from(…).unwrap_or(0)`
  pure total.toNat

end

/-- `parse_rfc3339_unix_millis`. -/
def parseRfc3339UnixMillis (value : String) : Checked Nat := do
  let invalid := Fault.error s!"statusTimestampAfter is not a valid RFC 3339 timestamp: {value}"
  let bytes := value.toUTF8.toList
  refuseIf (bytes.length < 20) invalid
  refuseIf ((← byteAt bytes 4) ≠ 0x2d) invalid
  refuseIf ((← byteAt bytes 7) ≠ 0x2d) invalid
  let separator ← byteAt bytes 10
  refuseIf (¬ (separator = 0x54 ∨ separator = 0x74)) invalid
  refuseIf ((← byteAt bytes 13) ≠ 0x3a) invalid
  refuseIf ((← byteAt bytes 16) ≠ 0x3a) invalid
  let year ← digits bytes invalid 0 4
  let month ← digits bytes invalid 5 7
  let day ← digits bytes invalid 8 10
  let hour ← digits bytes invalid 11 13
  let minute ← digits bytes invalid 14 16
  let second ← digits bytes invalid 17 19
  refuseIf (¬ (1 ≤ month ∧ month ≤ 12)) invalid
  refuseIf (¬ (1 ≤ day ∧ day ≤ daysInMonth year month)) invalid
  refuseIf (23 < hour ∨ 59 < minute ∨ 59 < second) invalid
  let (millis, cursor) ← readFraction bytes invalid 19
  let offsetMinutes ← readOffset bytes invalid cursor
  let days ← daysFromCivil year month day
  toUnixMillis invalid days hour minute second millis offsetMinutes

/-! ### Arithmetic that does not overflow -/

theorem i64_ok {n : Int} (hlow : -2 ^ 63 ≤ n) (hhigh : n < 2 ^ 63) : i64 n = .ok n := if_pos ⟨hlow, hhigh⟩

theorem writtenEra_eq {shifted : Int} (hpos : 0 ≤ shifted) (hlt : shifted < 2 ^ 41) :
    writtenEra shifted = .ok (shifted / 146097, dayOfEra shifted) := by
  have hdividend : eraDividend shifted 146096 = .ok shifted := if_pos hpos
  unfold writtenEra dayOfEra
  rw [hdividend, ok_bind]
  simp (disch := omega) only [i64_ok, ok_bind, Int.tdiv_eq_ediv_of_nonneg]
  rw [Int.emod_def, Int.mul_comm]
  rfl

variable {day : Int}

theorem writtenYearOfEra_eq (hpos : 0 ≤ day) (hlt : day < 146097) :
    writtenYearOfEra day = .ok (yearOfEra day) := by
  unfold writtenYearOfEra yearOfEra
  simp (disch := omega) only [i64_ok, ok_bind, Int.tdiv_eq_ediv_of_nonneg]
  rfl

variable {year : Int}

theorem writtenDayOfYear_eq (hday : 0 ≤ day ∧ day < 146097) (hyear : 0 ≤ year ∧ year < 400) :
    writtenDayOfYear day year = .ok (day - marchYearStart year) := by
  unfold writtenDayOfYear marchYearStart
  simp (disch := omega) only [i64_ok, ok_bind, Int.tdiv_eq_ediv_of_nonneg]
  rw [show year / 400 = 0 by omega, Int.add_zero]

theorem writtenMonthPrime_eq (hday : 0 ≤ day ∧ day ≤ 365) :
    writtenMonthPrime day = .ok ((5 * day + 2) / 153) := by
  unfold writtenMonthPrime
  simp (disch := omega) only [i64_ok, ok_bind, Int.tdiv_eq_ediv_of_nonneg]
  rfl

theorem writtenDay_eq {month : Int} (hday : 0 ≤ day ∧ day ≤ 365) (hmonth : 0 ≤ month ∧ month ≤ 11) :
    writtenDay day month = .ok (day - marchMonthStart month + 1) := by
  unfold writtenDay marchMonthStart
  simp (disch := omega) only [i64_ok, ok_bind, Int.tdiv_eq_ediv_of_nonneg]

theorem civilFromDays_eq {days : Int} (hpos : 0 ≤ days) (hlt : days < 2 ^ 40) :
    civilFromDays days = .ok (civilYear (days + 719468), civilMonth (days + 719468), civilDay (days + 719468)) := by
  obtain ⟨shifted, hshifted⟩ : ∃ shifted, shifted = days + 719468 := ⟨_, rfl⟩
  have hday : 0 ≤ dayOfEra shifted ∧ dayOfEra shifted < 146097 := by unfold dayOfEra; omega
  obtain ⟨hyear, hyearLt, hdoy, hdoyLe, -⟩ := dayOfYear_spec shifted
  have hprime : 0 ≤ monthPrime shifted ∧ monthPrime shifted ≤ 11 := by unfold monthPrime; omega
  rw [← hshifted]
  unfold civilFromDays
  rw [i64_ok (by omega) (by omega), ok_bind, ← hshifted, writtenEra_eq (by omega) (by omega), ok_bind]
  dsimp only
  rw [writtenYearOfEra_eq hday.1 hday.2, ok_bind, i64_ok (by omega) (by omega), ok_bind,
    i64_ok (by omega) (by omega), ok_bind, writtenDayOfYear_eq hday ⟨hyear, hyearLt⟩, ok_bind, ← dayOfYear,
    writtenMonthPrime_eq ⟨hdoy, hdoyLe⟩, ok_bind, ← monthPrime, writtenDay_eq ⟨hdoy, hdoyLe⟩ hprime, ok_bind]
  have hmonth : -12 < monthPrime shifted + (if monthPrime shifted < 10 then 3 else -9) ∧
      monthPrime shifted + (if monthPrime shifted < 10 then 3 else -9) < 20 := by
    split <;> omega
  rw [i64_ok (by omega) (by omega), ok_bind, ← civilMonth, i64_ok (by split <;> omega) (by split <;> omega), ok_bind]
  rfl

/-! ### Days from a date -/

theorem readEra_eq (hlow : -1 ≤ year) (hhigh : year < 10000) :
    readEra year = .ok (year / 400, year % 400) := by
  obtain ⟨dividend, hdividend, hdiv⟩ : ∃ dividend, eraDividend year 399 = .ok dividend ∧
      dividend.tdiv 400 = year / 400 := by
    unfold eraDividend
    split
    · exact ⟨year, rfl, Int.tdiv_eq_ediv_of_nonneg (by omega)⟩
    · obtain rfl : year = -1 := by omega
      exact ⟨_, i64_ok (by omega) (by omega), rfl⟩
  unfold readEra
  rw [hdividend, ok_bind]
  dsimp only
  rw [hdiv, i64_ok (by omega) (by omega), ok_bind, i64_ok (by omega) (by omega), ok_bind,
    show year - year / 400 * 400 = year % 400 by omega]
  rfl

variable {month : Nat}

theorem readMonthPrime_eq (hmonth : 1 ≤ month ∧ month ≤ 12) :
    readMonthPrime month = .ok (marchMonth month) := by
  unfold readMonthPrime marchMonth
  split
  · rw [if_pos (by omega)]
    exact i64_ok (by omega) (by omega)
  · rw [if_neg (by omega)]
    exact i64_ok (by omega) (by omega)

theorem readDayOfYear_eq {day : Nat} (hmonth : 1 ≤ month ∧ month ≤ 12) (hday : 1 ≤ day ∧ day ≤ 31) :
    readDayOfYear month day = .ok (marchMonthStart (marchMonth month) + (day - 1)) := by
  have hrange : 0 ≤ marchMonth month ∧ marchMonth month ≤ 11 := by
    unfold marchMonth
    split <;> omega
  unfold readDayOfYear marchMonthStart
  rw [readMonthPrime_eq hmonth, ok_bind]
  simp (disch := omega) only [i64_ok, ok_bind, Int.tdiv_eq_ediv_of_nonneg]
  rw [Int.add_sub_assoc]

theorem readDayOfEra_eq (hyear : 0 ≤ year ∧ year < 400) (hday : 0 ≤ day ∧ day < 400) :
    readDayOfEra year day = .ok (marchYearStart year + day) := by
  unfold readDayOfEra marchYearStart
  simp (disch := omega) only [i64_ok, ok_bind, Int.tdiv_eq_ediv_of_nonneg]
  rw [show year / 400 = 0 by omega, Int.add_zero, Int.mul_comm]

/-- **The days since the epoch**, of a date that a timestamp can write. -/
theorem daysFromCivil_eq {year day : Nat} (hyear : year < 10000) (hdate : ValidDate year month day) :
    daysFromCivil year month day = .ok (dayNumber year month day - dayNumber 1970 1 1) := by
  have hday : day ≤ 31 := Nat.le_trans hdate.day_le (by unfold monthLength; split <;> split <;> omega)
  have hepoch : (dayNumber 1970 1 1 : Int) = 719528 := by decide +kernel
  have hmarch : -1 ≤ marchYear year month ∧ marchYear year month < 10000 := by
    unfold marchYear
    split <;> omega
  have hmonthStart : 0 ≤ marchMonthStart (marchMonth month) ∧ marchMonthStart (marchMonth month) ≤ 340 := by
    have := hdate.month_le
    have := hdate.month_pos
    unfold marchMonthStart marchMonth
    split <;> omega
  have hyearStart : 0 ≤ marchYearStart (marchYear year month % 400) ∧
      marchYearStart (marchYear year month % 400) < 146097 := by
    unfold marchYearStart
    omega
  have hadjusted : ((year : Int) - if (month : Int) ≤ 2 then 1 else 0) = marchYear year month := by
    unfold marchYear
    split <;> split <;> omega
  have hpos := hdate.day_pos
  unfold daysFromCivil
  rw [hadjusted, i64_ok (by omega) (by omega), ok_bind, readEra_eq hmarch.1 hmarch.2, ok_bind]
  dsimp only
  rw [readDayOfYear_eq ⟨hdate.month_pos, hdate.month_le⟩ ⟨hdate.day_pos, hday⟩, ok_bind,
    readDayOfEra_eq (by omega) (by omega), ok_bind, i64_ok (by omega) (by omega), ok_bind,
    i64_ok (by omega) (by omega), ok_bind, i64_ok (by omega) (by omega),
    dayNumber_eq hdate.month_pos hdate.month_le hdate.day_pos, hepoch]
  have hsplit := marchYearStart_era (marchYear year month % 400) (marchYear year month / 400)
  rw [show marchYear year month % 400 + marchYear year month / 400 * 400 = marchYear year month by omega] at hsplit
  rw [Except.ok.injEq]
  omega

end AikitRuntime.A2a

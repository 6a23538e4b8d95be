import Mathlib.Data.List.Lex
import Mathlib.Data.Nat.Log
import Mathlib.Data.String.Basic
import Mathlib.Tactic.Ring

/-!
# Timestamps and the text they are selected as

A `timestamptz` is kept as its UTC fields, from the year down to the microsecond,
and compared by them in this order.  The text `to_char` makes of it compares the
same way as long as the year has four digits.
-/

namespace Corvus.Db

def isLeapYear (year : Nat) : Bool :=
  year % 4 == 0 && (year % 100 != 0 || year % 400 == 0)

def daysIn (year month : Nat) : Nat :=
  if month = 2 then if isLeapYear year then 29 else 28
  else if month = 4 ∨ month = 6 ∨ month = 9 ∨ month = 11 then 30
  else 31

/-- A day of our era that a `timestamptz` can hold. -/
def IsDate (year month day : Nat) : Prop :=
  (1 ≤ year ∧ year ≤ 294276) ∧ (1 ≤ month ∧ month ≤ 12) ∧ 1 ≤ day ∧ day ≤ daysIn year month

instance (year month day : Nat) : Decidable (IsDate year month day) :=
  inferInstanceAs (Decidable (_ ∧ _))

structure Timestamp where
  year : Nat
  month : Nat
  day : Nat
  hour : Nat
  minute : Nat
  second : Nat
  micro : Nat
  isDate : IsDate year month day := by decide
  hour_lt : hour < 24 := by decide
  minute_lt : minute < 60 := by decide
  second_lt : second < 60 := by decide
  micro_lt : micro < 1000000 := by decide
  deriving DecidableEq

/-! ## Decimal digits -/

/-- The last `count` decimal digits of a number. -/
def decimalDigits : Nat → Nat → List Char
  | 0, _ => []
  | count + 1, number =>
      Char.ofNat (48 + number / 10 ^ count % 10) :: decimalDigits count number

def decimalValue (chars : List Char) : Nat :=
  chars.foldl (fun value char => 10 * value + (char.toNat - 48)) 0

/-- All digits of a number, at least `width` of them. -/
def padded (width number : Nat) : List Char :=
  decimalDigits (max width (Nat.log 10 number + 1)) number

@[simp] theorem length_decimalDigits (count number : Nat) :
    (decimalDigits count number).length = count := by
  induction count with
  | zero => rfl
  | succ count ih => simp [decimalDigits, ih]

theorem mem_decimalDigits {count number : Nat} {char : Char}
    (member : char ∈ decimalDigits count number) :
    ∃ digit < 10, char = Char.ofNat (48 + digit) := by
  induction count with
  | zero => cases member
  | succ count ih =>
      rcases List.mem_cons.mp member with rfl | later
      · exact ⟨_, Nat.mod_lt _ (by decide), rfl⟩
      · exact ih later

theorem digit_toNat : ∀ digit < 10, (Char.ofNat (48 + digit)).toNat = 48 + digit := by
  decide

theorem digit_lt_iff : ∀ left < 10, ∀ right < 10,
    (Char.ofNat (48 + left) < Char.ofNat (48 + right) ↔ left < right) := by
  decide

theorem digit_eq_iff : ∀ left < 10, ∀ right < 10,
    (Char.ofNat (48 + left) = Char.ofNat (48 + right) ↔ left = right) := by
  decide

theorem foldl_decimalDigits (count number start : Nat) :
    (decimalDigits count number).foldl (fun value char => 10 * value + (char.toNat - 48))
      start = start * 10 ^ count + number % 10 ^ count := by
  induction count generalizing start with
  | zero => simp [decimalDigits, Nat.mod_one]
  | succ count ih =>
      rw [decimalDigits, List.foldl_cons, ih, digit_toNat _ (Nat.mod_lt _ (by decide)),
        Nat.mod_pow_succ, Nat.add_sub_cancel_left, pow_succ]
      ring

theorem decimalValue_decimalDigits {count number : Nat} (fits : number < 10 ^ count) :
    decimalValue (decimalDigits count number) = number := by
  rw [decimalValue, foldl_decimalDigits, Nat.zero_mul, Nat.zero_add, Nat.mod_eq_of_lt fits]

/-- A number has all its digits in its padded form. -/
theorem lt_pow_padded (width number : Nat) :
    number < 10 ^ max width (Nat.log 10 number + 1) :=
  Nat.lt_of_lt_of_le (Nat.lt_pow_succ_log_self (by decide) number)
    (Nat.pow_le_pow_right (by decide) (Nat.le_max_right _ _))

theorem decimalValue_padded (width number : Nat) :
    decimalValue (padded width number) = number :=
  decimalValue_decimalDigits (lt_pow_padded width number)

/-- A number that fits the width takes exactly that many digits. -/
theorem padded_eq {width number : Nat} (fits : number < 10 ^ width) (positive : width ≠ 0) :
    padded width number = decimalDigits width number := by
  have enough : Nat.log 10 number + 1 ≤ width := Nat.log_lt_of_lt_pow' positive fits
  rw [padded, Nat.max_eq_left enough]

/-- Digits compare as the numbers do. -/
theorem decimalDigits_lt_iff {count left right : Nat} :
    decimalDigits count left < decimalDigits count right ↔
      left % 10 ^ count < right % 10 ^ count := by
  induction count with
  | zero => simp [decimalDigits, Nat.mod_one]
  | succ count ih =>
      have leftDigit : left / 10 ^ count % 10 < 10 := Nat.mod_lt _ (by decide)
      have rightDigit : right / 10 ^ count % 10 < 10 := Nat.mod_lt _ (by decide)
      have leftRest : left % 10 ^ count < 10 ^ count := Nat.mod_lt _ (Nat.pow_pos (by decide))
      have rightRest : right % 10 ^ count < 10 ^ count := Nat.mod_lt _ (Nat.pow_pos (by decide))
      rw [decimalDigits, decimalDigits, List.cons_lt_cons_iff,
        digit_lt_iff _ leftDigit _ rightDigit, digit_eq_iff _ leftDigit _ rightDigit, ih,
        Nat.mod_pow_succ, Nat.mod_pow_succ]
      rcases Nat.lt_trichotomy (left / 10 ^ count % 10) (right / 10 ^ count % 10) with
        less | same | more
      · have step := Nat.mul_le_mul_left (10 ^ count) less
        rw [Nat.mul_succ] at step
        omega
      · rw [same]
        omega
      · have step := Nat.mul_le_mul_left (10 ^ count) more
        rw [Nat.mul_succ] at step
        omega

/-- Lists whose first parts have one length compare part by part. -/
theorem append_lt_append_iff {left right leftRest rightRest : List Char}
    (sameLength : left.length = right.length) :
    left ++ leftRest < right ++ rightRest ↔
      left < right ∨ left = right ∧ leftRest < rightRest := by
  induction left generalizing right with
  | nil =>
      cases right with
      | nil => simp
      | cons char right => cases sameLength
  | cons char left ih =>
      cases right with
      | nil => cases sameLength
      | cons other right =>
          have rest := ih (Nat.succ.inj sameLength)
          simp only [List.cons_append, List.cons_lt_cons_iff, rest, List.cons.injEq]
          tauto

theorem decimalDigits_inj {count left right : Nat} :
    decimalDigits count left = decimalDigits count right ↔
      left % 10 ^ count = right % 10 ^ count := by
  constructor
  · intro same
    have notLess := mt decimalDigits_lt_iff.mpr (not_lt_of_ge (ge_of_eq same))
    have notMore := mt decimalDigits_lt_iff.mpr (not_lt_of_ge (le_of_eq same))
    omega
  · intro same
    have notLess := mt decimalDigits_lt_iff.mp (not_lt_of_ge (ge_of_eq same))
    have notMore := mt decimalDigits_lt_iff.mp (not_lt_of_ge (le_of_eq same))
    exact le_antisymm (not_lt.mp notMore) (not_lt.mp notLess)

/-- Numbers that fit one width compare and agree as their padded forms do. -/
theorem padded_lt_iff {width left right : Nat} (leftFits : left < 10 ^ width)
    (rightFits : right < 10 ^ width) (positive : width ≠ 0) {leftRest rightRest : List Char} :
    padded width left ++ leftRest < padded width right ++ rightRest ↔
      left < right ∨ left = right ∧ leftRest < rightRest := by
  rw [padded_eq leftFits positive, padded_eq rightFits positive,
    append_lt_append_iff (by simp), decimalDigits_lt_iff, decimalDigits_inj,
    Nat.mod_eq_of_lt leftFits, Nat.mod_eq_of_lt rightFits]

namespace Timestamp

/-- The fields in the order in which they decide. -/
def fields (time : Timestamp) : List Nat :=
  [time.year, time.month, time.day, time.hour, time.minute, time.second, time.micro]

theorem fields_injective : Function.Injective fields := by
  intro left right same
  cases left
  cases right
  simpa [fields] using same

instance : LinearOrder Timestamp :=
  LinearOrder.lift' fields fields_injective

theorem lt_iff {left right : Timestamp} : left < right ↔ left.fields < right.fields :=
  Iff.rfl

/-- `to_char(column AT TIME ZONE 'UTC', 'YYYY-MM-DD"T"HH24:MI:SS.US"Z"')`.  Years
beyond 9999 take more than four digits. -/
def toChar (time : Timestamp) : String :=
  String.ofList
    (padded 4 time.year ++ '-' :: (padded 2 time.month ++ '-' :: (padded 2 time.day ++
      'T' :: (padded 2 time.hour ++ ':' :: (padded 2 time.minute ++
        ':' :: (padded 2 time.second ++ '.' :: (padded 6 time.micro ++ ['Z'])))))))

theorem daysIn_le (year month : Nat) : daysIn year month ≤ 31 := by
  unfold daysIn
  split_ifs <;> decide

/-- All fields but the year and the microseconds take two digits. -/
theorem two_digits (time : Timestamp) :
    time.month < 10 ^ 2 ∧ time.day < 10 ^ 2 ∧ time.hour < 10 ^ 2 ∧ time.minute < 10 ^ 2 ∧
      time.second < 10 ^ 2 := by
  obtain ⟨_, ⟨_, _⟩, _, _⟩ := time.isDate
  have := daysIn_le time.year time.month
  have := time.hour_lt
  have := time.minute_lt
  have := time.second_lt
  omega

/-- The text holds digits and the separators of its pattern only. -/
theorem toChar_chars {time : Timestamp} {char : Char} (member : char ∈ time.toChar.toList) :
    char ∈ ['-', 'T', ':', '.', 'Z'] ∨ ∃ digit < 10, char = Char.ofNat (48 + digit) := by
  simp only [toChar, String.toList_ofList, List.mem_append, List.mem_cons, List.not_mem_nil,
    or_false] at member ⊢
  have digits : ∀ {width number : Nat}, char ∈ padded width number →
      ∃ digit < 10, char = Char.ofNat (48 + digit) := mem_decimalDigits
  grind

/-- With four-digit years the text sorts as the timestamps do. -/
theorem toChar_lt_iff {left right : Timestamp} (leftYear : left.year < 10000)
    (rightYear : right.year < 10000) :
    left.toChar.toList < right.toChar.toList ↔ left < right := by
  have same : ∀ (char : Char) (leftRest rightRest : List Char),
      char :: leftRest < char :: rightRest ↔ leftRest < rightRest := by
    simp
  obtain ⟨leftMonth, leftDay, leftHour, leftMinute, leftSecond⟩ := left.two_digits
  obtain ⟨rightMonth, rightDay, rightHour, rightMinute, rightSecond⟩ := right.two_digits
  rw [toChar, toChar, String.toList_ofList, String.toList_ofList,
    padded_lt_iff leftYear rightYear (by decide), same,
    padded_lt_iff leftMonth rightMonth (by decide), same,
    padded_lt_iff leftDay rightDay (by decide), same,
    padded_lt_iff leftHour rightHour (by decide), same,
    padded_lt_iff leftMinute rightMinute (by decide), same,
    padded_lt_iff leftSecond rightSecond (by decide), same,
    padded_lt_iff left.micro_lt right.micro_lt (by decide), lt_iff]
  simp only [fields, List.cons_lt_cons_iff, lt_self_iff_false]

/-! ## Reading the text back -/

/-- The timestamp with the given fields, if they are in range. -/
def ofFields (year month day hour minute second micro : Nat) : Option Timestamp :=
  if valid : IsDate year month day ∧ hour < 24 ∧ minute < 60 ∧ second < 60 ∧
      micro < 1000000 then
    some ⟨year, month, day, hour, minute, second, micro, valid.1, valid.2.1, valid.2.2.1,
      valid.2.2.2.1, valid.2.2.2.2⟩
  else none

theorem ofFields_self (time : Timestamp) :
    ofFields time.year time.month time.day time.hour time.minute time.second time.micro =
      some time := by
  simp [ofFields, time.isDate, time.hour_lt, time.minute_lt, time.second_lt, time.micro_lt]

/-- The timestamp a text in the selected form stands for.  The year takes what the
other fields leave. -/
def ofText (text : String) : Option Timestamp :=
  let rest := text.toList.drop (text.toList.length - 23)
  ofFields (decimalValue (text.toList.take (text.toList.length - 23)))
    (decimalValue ((rest.drop 1).take 2)) (decimalValue ((rest.drop 4).take 2))
    (decimalValue ((rest.drop 7).take 2)) (decimalValue ((rest.drop 10).take 2))
    (decimalValue ((rest.drop 13).take 2)) (decimalValue ((rest.drop 16).take 6))

theorem ofText_toChar (time : Timestamp) : ofText time.toChar = some time := by
  obtain ⟨month, day, hour, minute, second⟩ := time.two_digits
  have two : (2 : Nat) ≠ 0 := by decide
  have micro : time.micro < 10 ^ 6 := time.micro_lt
  have textEq : time.toChar.toList = padded 4 time.year ++
      ('-' :: (decimalDigits 2 time.month ++ '-' :: (decimalDigits 2 time.day ++
      'T' :: (decimalDigits 2 time.hour ++ ':' :: (decimalDigits 2 time.minute ++
        ':' :: (decimalDigits 2 time.second ++ '.' ::
          (decimalDigits 6 time.micro ++ ['Z']))))))) := by
    rw [toChar, String.toList_ofList, padded_eq month two, padded_eq day two,
      padded_eq hour two, padded_eq minute two, padded_eq second two,
      padded_eq micro (by decide)]
  have lengthEq : time.toChar.toList.length - 23 = (padded 4 time.year).length := by
    simp [textEq]
  unfold ofText
  rw [lengthEq, textEq, List.take_left, List.drop_left, decimalValue_padded]
  have monthEq := decimalValue_decimalDigits month
  have dayEq := decimalValue_decimalDigits day
  have hourEq := decimalValue_decimalDigits hour
  have minuteEq := decimalValue_decimalDigits minute
  have secondEq := decimalValue_decimalDigits second
  have microEq := decimalValue_decimalDigits micro
  simp only [decimalDigits] at monthEq dayEq hourEq minuteEq secondEq microEq
  simp only [decimalDigits, List.cons_append, List.nil_append, List.drop_succ_cons,
    List.drop_zero, List.take_succ_cons, List.take_zero, monthEq, dayEq, hourEq, minuteEq,
    secondEq, microEq]
  exact ofFields_self time

end Timestamp

end Corvus.Db

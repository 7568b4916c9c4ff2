import TabSpec.Text.Digit
import TabSpec.Text.Integer

/-! Integers as texts. What is read lies within its bounds, and an integer within the bounds is read
back from the text that it is written as. -/
namespace TabSpec.Text

variable {range : IntegerRange}

/-! ### Within the bounds -/

theorem IntegerRange.contains_iff {value : Int} :
    range.contains value = true ↔ range.least ≤ value ∧ value ≤ range.greatest := by
  simp [contains]

/-- Reading on from a value within the bounds does not leave them. -/
theorem contains_of_readDigits {base : Nat} {negative : Bool} {digits : List Char} {first value : Int}
    (begins : range.contains first = true)
    (read : readDigits range base negative first digits = .ok value) :
    range.contains value = true := by
  induction digits generalizing first with
  | nil =>
    obtain rfl := Except.ok.inj read
    exact begins
  | cons c rest ih =>
    simp only [readDigits] at read
    split at read
    · cases read
    · rename_i digit _
      generalize (if negative then first * base - digit else first * base + digit) = next at read
      split at read
      · cases read
      · rename_i small
        split at read
        · cases read
        · rename_i large
          exact ih (IntegerRange.contains_iff.mpr ⟨Int.not_lt.mp large, Int.not_lt.mp small⟩) read

theorem contains_of_readInteger {base : Nat} {text : List Char} {value : Int}
    (zero : range.contains 0 = true) (read : readInteger range base text = .ok value) :
    range.contains value = true := by
  unfold readInteger at read
  split at read
  · cases read
  · cases read
  · cases read
  · exact contains_of_readDigits zero read
  · split at read
    · exact contains_of_readDigits zero read
    · cases read
  · exact contains_of_readDigits zero read

/-! ### Digits read back -/

theorem digitValue?_of_isDigit {c : Char} (digit : c.isDigit = true) :
    digitValue? 10 c = some (c.toNat - 48) := by
  have most : c.toNat ≤ 57 := (Char.isDigit_iff_toNat.mp digit).2
  have small : c.toNat - 48 < 10 := by omega
  simp [digitValue?, digit, small]

/-- A number is at least what is read of it so far. -/
theorem le_ofDigitChars (digits : List Char) (value : Nat) :
    value ≤ Nat.ofDigitChars 10 digits value := by
  induction digits generalizing value with
  | nil => simp
  | cons c rest ih =>
    rw [Nat.ofDigitChars_cons]
    have further := ih (10 * value + (c.toNat - '0'.toNat))
    omega

/-- A number with its sign. -/
def signed (negative : Bool) (value : Nat) : Int := if negative then -value else value

theorem contains_signed {negative : Bool} {small large : Nat} (zero : range.contains 0 = true)
    (within : range.contains (signed negative large) = true) (le : small ≤ large) :
    range.contains (signed negative small) = true := by
  rw [IntegerRange.contains_iff] at zero within ⊢
  cases negative <;> simp only [signed] at within ⊢ <;> grind

/-- Digits are read as the number that they write, if it lies within the bounds. -/
theorem readDigits_of_isDigit {negative : Bool} {digits : List Char} {value : Nat}
    (all : ∀ c ∈ digits, c.isDigit = true) (zero : range.contains 0 = true)
    (within : range.contains (signed negative (Nat.ofDigitChars 10 digits value)) = true) :
    readDigits range 10 negative (signed negative value) digits =
      .ok (signed negative (Nat.ofDigitChars 10 digits value)) := by
  induction digits generalizing value with
  | nil => simp [readDigits]
  | cons c rest ih =>
    have found := digitValue?_of_isDigit (all c List.mem_cons_self)
    rw [Nat.ofDigitChars_cons] at within ⊢
    have here := contains_signed zero within (le_ofDigitChars _ _)
    obtain ⟨least, greatest⟩ := IntegerRange.contains_iff.mp here
    have next : (if negative then signed negative value * (10 : Nat) - (c.toNat - 48 : Nat)
        else signed negative value * (10 : Nat) + (c.toNat - 48 : Nat)) =
          signed negative (10 * value + (c.toNat - '0'.toNat)) := by
      cases negative <;> simp [signed] <;> omega
    simp only [readDigits, found]
    rw [next, if_neg (Int.not_lt.mpr greatest), if_neg (Int.not_lt.mpr least)]
    exact ih (fun d member => all d (List.mem_cons_of_mem c member)) within

theorem of_digitValue? {c : Char} {digit : Nat} (read : digitValue? 10 c = some digit) :
    c.isDigit = true ∧ digit = c.toNat - 48 := by
  obtain ⟨found, small⟩ := Option.filter_eq_some_iff.mp read
  by_cases decimal : c.isDigit = true
  · rw [if_pos decimal] at found
    exact ⟨decimal, (Option.some.inj found).symm⟩
  · -- Letters stand for ten and more.
    have lower : c.isLower = true → 97 ≤ c.toNat := fun bounds =>
      of_decide_eq_true (Bool.and_eq_true_iff.mp bounds).1
    have upper : c.isUpper = true → 65 ≤ c.toNat := fun bounds => (of_decide_eq_true bounds).1
    grind

theorem of_readDigits {negative : Bool} {digits : List Char} {value : Nat} {result : Int}
    (read : readDigits range 10 negative (signed negative value) digits = .ok result) :
    (∀ c ∈ digits, c.isDigit = true) ∧ result = signed negative (Nat.ofDigitChars 10 digits value) := by
  induction digits generalizing value with
  | nil => exact ⟨by simp, (Except.ok.inj read).symm⟩
  | cons c rest ih =>
    simp only [readDigits] at read
    split at read
    · cases read
    · rename_i digit found
      obtain ⟨decimal, rfl⟩ := of_digitValue? found
      have next : (if negative then signed negative value * (10 : Nat) - (c.toNat - 48 : Nat)
          else signed negative value * (10 : Nat) + (c.toNat - 48 : Nat)) =
            signed negative (10 * value + (c.toNat - '0'.toNat)) := by
        cases negative <;> simp [signed] <;> omega
      rw [next] at read
      split at read
      · cases read
      · split at read
        · cases read
        · obtain ⟨all, same⟩ := ih read
          rw [Nat.ofDigitChars_cons]
          exact ⟨List.forall_mem_cons.mpr ⟨decimal, all⟩, same⟩

/-- Digits are read exactly if they are decimal and write a number within the bounds. -/
theorem readDigits_eq_ok_iff {negative : Bool} {digits : List Char} {result : Int}
    (zero : range.contains 0 = true) :
    readDigits range 10 negative 0 digits = .ok result ↔ (∀ c ∈ digits, c.isDigit = true) ∧
      result = signed negative (Nat.ofDigitChars 10 digits 0) ∧ range.contains result = true := by
  have start : signed negative 0 = 0 := by cases negative <;> rfl
  constructor
  · intro read
    obtain ⟨all, same⟩ := of_readDigits (start ▸ read)
    exact ⟨all, same, contains_of_readDigits zero read⟩
  · rintro ⟨all, rfl, within⟩
    exact start ▸ readDigits_of_isDigit all zero within

/-! ### Written integers -/

/-- How an integer is written: a minus sign if it is negative, and the digits behind it. -/
theorem toList_toString (value : Int) :
    (toString value).toList =
      (if value < 0 then ['-'] else []) ++ Nat.toDigits 10 value.natAbs := by
  rw [Int.toString_eq_repr, Int.repr_eq_if]
  by_cases negative : value < 0
  · rw [if_neg (Int.not_le.mpr negative), if_pos negative, String.toList_append, Nat.toList_repr]
    congr 2
    omega
  · rw [if_pos (Int.not_lt.mp negative), if_neg negative, Nat.toList_repr]
    congr 1
    omega

theorem toList_toString_of_neg {value : Int} (negative : value < 0) :
    (toString value).toList = '-' :: Nat.toDigits 10 value.natAbs := by
  rw [toList_toString, if_pos negative]
  rfl

theorem toList_toString_of_nonneg {value : Int} (positive : 0 ≤ value) :
    (toString value).toList = Nat.toDigits 10 value.natAbs := by
  rw [toList_toString, if_neg (Int.not_lt.mpr positive)]
  rfl

/-- An integer is written with digits and a minus sign only. -/
theorem not_mem_toString {c : Char} (minus : c ≠ '-') (other : c.isDigit = false) (value : Int) :
    c ∉ (toString value).toList := by
  rw [toList_toString]
  intro member
  rcases List.mem_append.mp member with sign | digit
  · split at sign
    · exact minus (List.mem_singleton.mp sign)
    · cases sign
  · rw [Nat.isDigit_of_mem_toDigits (by decide) (by decide) digit] at other
    cases other

theorem isDecimalDigit_of_isDigit {c : Char} (digit : c.isDigit = true) : isDecimalDigit c = true := by
  have bounds : 48 ≤ c.toNat ∧ c.toNat ≤ 57 := Char.isDigit_iff_toNat.mp digit
  refine List.any_eq_true.mpr ⟨0x30, by decide, ?_⟩
  simp only [Bool.and_eq_true, decide_eq_true_eq]
  omega

/-- The minus sign of a negative number. -/
def sign (negative : Bool) : List Char := if negative then ['-'] else []

/-- Behind a sign the digits are read. -/
theorem readInteger_sign {negative : Bool} {digits : List Char} (some : digits ≠ [])
    (decimal : ∀ c ∈ digits, isDecimalDigit c = true) (least : negative = true → range.least < 0) :
    readInteger range 10 (sign negative ++ digits) = readDigits range 10 negative 0 digits := by
  obtain ⟨c, rest, rfl⟩ := List.exists_cons_of_ne_nil some
  have first := decimal c List.mem_cons_self
  cases negative with
  | false =>
    have plus : c ≠ '+' := by
      rintro rfl
      exact absurd first (by decide)
    have minus : c ≠ '-' := by
      rintro rfl
      exact absurd first (by decide)
    rw [sign, if_neg Bool.false_ne_true, List.nil_append, readInteger]
    all_goals simp [plus, minus]
  | true =>
    rw [sign, if_pos rfl, List.singleton_append, readInteger, if_pos (least rfl)]
    simp

/-- What is read of the text of an integer is that integer, if it lies within the bounds. -/
theorem readInteger_toString_eq_ok_iff {value result : Int} (zero : range.contains 0 = true)
    (least : value < 0 → range.least < 0) :
    readInteger range 10 (toString value).toList = .ok result ↔
      result = value ∧ range.contains value = true := by
  have all (c : Char) (member : c ∈ Nat.toDigits 10 value.natAbs) : c.isDigit = true :=
    Nat.isDigit_of_mem_toDigits (by decide) (by decide) member
  have number : Nat.ofDigitChars 10 (Nat.toDigits 10 value.natAbs) 0 = value.natAbs :=
    Nat.ofDigitChars_toDigits (by decide) (by decide)
  have whole : signed (decide (value < 0)) value.natAbs = value := by
    by_cases negative : value < 0
    · simp only [signed, negative, decide_true, if_true]
      omega
    · simp only [signed, negative, decide_false, Bool.false_eq_true, if_false]
      omega
  have written : (toString value).toList =
      sign (decide (value < 0)) ++ Nat.toDigits 10 value.natAbs := by
    rw [toList_toString, sign]
    simp
  rw [written, readInteger_sign Nat.toDigits_ne_nil (fun c member => isDecimalDigit_of_isDigit (all c member))
    fun negative => least (of_decide_eq_true negative), readDigits_eq_ok_iff zero, number, whole]
  constructor
  · rintro ⟨_, rfl, within⟩
    exact ⟨rfl, within⟩
  · rintro ⟨rfl, within⟩
    exact ⟨all, rfl, within⟩

/-- An integer within the bounds is read back. -/
theorem readInteger_toString {value : Int} (zero : range.contains 0 = true)
    (within : range.contains value = true) :
    readInteger range 10 (toString value).toList = .ok value := by
  have least : value < 0 → range.least < 0 := fun negative =>
    Int.lt_of_le_of_lt (IntegerRange.contains_iff.mp within).1 negative
  exact (readInteger_toString_eq_ok_iff zero least).mpr ⟨rfl, within⟩

/-- An integer is read back from its text exactly if it lies within the bounds. -/
theorem readDecimal?_toString (zero : range.contains 0 = true)
    (least : range.least < 0) (value : Int) :
    readDecimal? range (toString value) = if range.contains value then some value else none := by
  split
  · rename_i within
    rw [readDecimal?, readInteger_toString zero within]
    rfl
  · rename_i outside
    cases read : readInteger range 10 (toString value).toList with
    | error fault => rw [readDecimal?, read]; rfl
    | ok result =>
      exact absurd ((readInteger_toString_eq_ok_iff zero fun _ => least).mp read).2 outside

/-- The digits of a number begin with a digit. -/
theorem exists_toDigits_eq_cons (value : Nat) :
    ∃ c rest, Nat.toDigits 10 value = c :: rest ∧ c.isDigit = true := by
  obtain ⟨c, rest, whole⟩ := List.exists_cons_of_ne_nil (Nat.toDigits_ne_nil (n := value) (b := 10))
  have member : c ∈ Nat.toDigits 10 value := by simp [whole]
  exact ⟨c, rest, whole, Nat.isDigit_of_mem_toDigits (by decide) (by decide) member⟩

/-- An integer is written with a digit at its end. -/
theorem exists_toString_eq_concat (value : Int) :
    ∃ front digit, (toString value).toList = front ++ [digit] ∧ digit.isDigit = true := by
  have written : (toString value).toList ≠ [] := by
    rw [toList_toString]
    exact List.append_ne_nil_of_right_ne_nil _ Nat.toDigits_ne_nil
  refine ⟨_, _, (List.dropLast_concat_getLast written).symm, ?_⟩
  have last : (toString value).toList.getLast written =
      (Nat.toDigits 10 value.natAbs).getLast Nat.toDigits_ne_nil := by
    simp only [toList_toString, List.getLast_append_of_ne_nil _ Nat.toDigits_ne_nil]
  rw [last]
  exact Nat.isDigit_of_mem_toDigits (by decide) (by decide) (List.getLast_mem _)

end TabSpec.Text

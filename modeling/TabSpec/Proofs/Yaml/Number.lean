import Mathlib
import TabSpec.Proofs.Binary64.Text
import TabSpec.Proofs.Outcome
import TabSpec.Proofs.Yaml.Scalar

/-! Plain scalars that are numbers. Digits with a point or an exponent, as numbers are written, are read as a
floating-point number and as nothing else; and every number that is read from a plain scalar is read again
from its own text. -/
namespace TabSpec.Yaml

open Text

/-! ### Bounds of integers -/

section

variable {range : IntegerRange} {text : List Char} {value : ℤ}

theorem contains_of_toOption {base : ℕ} (zero : range.contains 0 = true)
    (read : (readInteger range base text).toOption = some value) : range.contains value = true :=
  contains_of_readInteger zero (eq_ok_of_toOption read)

theorem contains_of_unsignedOf? (zero : range.contains 0 = true)
    (read : unsignedOf? range text = some value) : range.contains value = true := by
  have bounded {base : ℕ} {text : List Char}
      (read : (readInteger range base text).toOption = some value) : range.contains value = true :=
    contains_of_toOption zero read
  unfold unsignedOf? readRadix at read
  grind

theorem contains_of_negativeOf? (zero : range.contains 0 = true)
    (read : negativeOf? range text = some value) : range.contains value = true := by
  have bounded {base : ℕ} {text : List Char}
      (read : (readInteger range base text).toOption = some value) : range.contains value = true :=
    contains_of_toOption zero read
  unfold negativeOf? at read
  grind

/-- The integers that a document holds. -/
def Held (value : ℤ) : Prop :=
  (IntegerRange.signed 64).least ≤ value ∧ value ≤ (IntegerRange.unsigned 64).greatest

theorem held_of_integerOf? (read : integerOf? text = some (some value)) : Held value := by
  unfold integerOf? at read
  split at read
  · rename_i found
    cases read
    obtain ⟨least, greatest⟩ :=
      IntegerRange.contains_iff.mp (contains_of_unsignedOf? (by decide) found)
    have below : (IntegerRange.signed 64).least ≤ (IntegerRange.unsigned 64).least := by decide
    exact ⟨below.trans least, greatest⟩
  · split at read
    · rename_i found
      cases read
      obtain ⟨least, greatest⟩ :=
        IntegerRange.contains_iff.mp (contains_of_negativeOf? (by decide) found)
      have above : (IntegerRange.signed 64).greatest ≤ (IntegerRange.unsigned 64).greatest := by decide
      exact ⟨least, greatest.trans above⟩
    · split at read
      · cases read
      · obtain ⟨-, -, impossible⟩ := Option.map_eq_some_iff.mp read
        cases impossible

end

/-! ### Digits with a point or an exponent -/

/-- Whether a text begins with a digit, behind a minus sign or not. -/
def beginsNumber (text : List Char) : Bool := (text.dropWhile (· == '-')).head?.any Char.isDigit

theorem contains_of_beginsNumber {words : List String} {text : String}
    (begins : beginsNumber text.toList = true)
    (others : words.all (fun word => !beginsNumber word.toList) = true) : words.contains text = false := by
  rw [List.contains_eq_mem, decide_eq_false_iff_not]
  intro member
  have other := List.all_eq_true.mp others text member
  rw [begins] at other
  cases other

/-- A text that begins with a digit, without padding, and has a point or an exponent behind it. -/
structure Fractional (c : Char) (rest : List Char) : Prop where
  digit : c.isDigit = true
  unpadded : c = '0' → rest.head? = some '.'
  marked : '.' ∈ rest ∨ 'e' ∈ rest

section

variable {range : IntegerRange} {text : List Char} {mark : Char}

/-- What is neither a digit nor a sign is in no integer. -/
theorem readInteger_of_mark (member : mark ∈ text) (other : mark.isDigit = false)
    (unsigned : mark ≠ '-' ∧ mark ≠ '+') : (readInteger range 10 text).toOption = none := by
  have refused {negative : Bool} {digits : List Char} (inside : mark ∈ digits) :
      (readDigits range 10 negative 0 digits).toOption = none := by
    rw [Option.eq_none_iff_forall_ne_some]
    intro value read
    have start : signed negative 0 = 0 := by cases negative <;> rfl
    have digit := (of_readDigits (start ▸ eq_ok_of_toOption read)).1 mark inside
    rw [other] at digit
    cases digit
  obtain ⟨minus, plus⟩ := unsigned
  unfold readInteger
  split
  · rfl
  · rfl
  · rfl
  · exact refused ((List.mem_cons.mp member).resolve_left plus)
  · split
    · exact refused ((List.mem_cons.mp member).resolve_left minus)
    · rfl
  · exact refused member

namespace Fractional

variable {c : Char} {rest : List Char} {negative : Bool}

theorem refused (fractional : Fractional c rest) :
    (readInteger range 10 (sign negative ++ c :: rest)).toOption = none := by
  rcases fractional.marked with point | exponent
  · exact readInteger_of_mark (List.mem_append_right _ (List.mem_cons_of_mem c point)) rfl (by decide)
  · exact readInteger_of_mark (List.mem_append_right _ (List.mem_cons_of_mem c exponent)) rfl (by decide)

theorem radix?_eq_none (fractional : Fractional c rest) : radix? (c :: rest) = none := by
  have point := fractional.unpadded
  unfold radix?
  split <;> first | rfl | simp_all

theorem isZeroPadded_eq_false (fractional : Fractional c rest) :
    isZeroPadded (sign negative ++ c :: rest) = false := by
  obtain ⟨minus, plus⟩ := Binary64.ne_sign_of_isDigit fractional.digit
  by_cases zero : c = '0'
  · obtain ⟨more, rfl⟩ := List.head?_eq_some_iff.mp (fractional.unpadded zero)
    subst zero
    cases negative <;> simp [isZeroPadded, sign]
  · cases negative <;> simp [isZeroPadded, sign, minus, plus, zero]

theorem unsignedOf?_eq_none (fractional : Fractional c rest) :
    unsignedOf? range (sign negative ++ c :: rest) = none := by
  cases negative with
  | true => rfl
  | false =>
    have refused : (readInteger range 10 (sign false ++ c :: rest)).toOption = none := fractional.refused
    obtain ⟨minus, plus⟩ := Binary64.ne_sign_of_isDigit fractional.digit
    rw [sign, if_neg Bool.false_ne_true, List.nil_append] at refused ⊢
    unfold unsignedOf?
    split
    · rename_i written
      exact absurd (List.cons.inj written).1 plus
    · simp only [fractional.radix?_eq_none, refused]
      split <;> rfl

theorem negativeOf?_eq_none (fractional : Fractional c rest) :
    negativeOf? range (sign negative ++ c :: rest) = none := by
  have refused : (readInteger range 10 (sign negative ++ c :: rest)).toOption = none := fractional.refused
  cases negative with
  | true =>
    rw [sign, if_pos rfl, List.singleton_append] at refused ⊢
    simp only [negativeOf?, fractional.radix?_eq_none, refused]
    split <;> rfl
  | false =>
    obtain ⟨minus, plus⟩ := Binary64.ne_sign_of_isDigit fractional.digit
    rw [sign, if_neg Bool.false_ne_true, List.nil_append] at refused ⊢
    unfold negativeOf?
    simp only [refused]
    split
    · rename_i found
      split at found
      · rename_i written
        exact absurd (List.cons.inj written).1 minus
      · cases found
    · split <;> rfl

theorem integerOf?_eq_none (fractional : Fractional c rest) :
    integerOf? (sign negative ++ c :: rest) = none := by
  simp only [integerOf?, fractional.unsignedOf?_eq_none, fractional.negativeOf?_eq_none, Option.map_none]

/-- It is none of some words that begin otherwise. -/
theorem contains_eq_false (fractional : Fractional c rest) (negative : Bool) {words : List String}
    (others : words.all (fun word => !beginsNumber word.toList) = true) :
    words.contains (String.ofList (sign negative ++ c :: rest)) = false := by
  obtain ⟨minus, -⟩ := Binary64.ne_sign_of_isDigit fractional.digit
  refine contains_of_beginsNumber ?_ others
  cases negative <;> simp [beginsNumber, sign, minus, fractional.digit]

theorem floatOf?_eq (fractional : Fractional c rest) :
    floatOf? (String.ofList (sign negative ++ c :: rest)) =
      (Binary64.ofText? (sign negative ++ c :: rest)).filter Binary64.isFinite := by
  have positive : [".inf", ".Inf", ".INF"].contains (String.ofList (sign negative ++ c :: rest)) = false :=
    fractional.contains_eq_false negative (by decide)
  have opposite : ["-.inf", "-.Inf", "-.INF"].contains (String.ofList (sign negative ++ c :: rest)) = false :=
    fractional.contains_eq_false negative (by decide)
  have number : [".nan", ".NaN", ".NAN"].contains (String.ofList (sign negative ++ c :: rest)) = false :=
    fractional.contains_eq_false negative (by decide)
  have plus : (sign negative ++ c :: rest).head? ≠ some '+' := by
    obtain ⟨-, plus⟩ := Binary64.ne_sign_of_isDigit fractional.digit
    cases negative <;> simp [sign, plus]
  generalize written : String.ofList (sign negative ++ c :: rest) = text at positive opposite number ⊢
  have chars : sign negative ++ c :: rest = text.toList := by rw [← written, String.toList_ofList]
  rw [chars] at plus ⊢
  simp only [floatOf?, opposite, number]
  split
  · rename_i same
    exact absurd (congrArg List.head? same) plus
  · simp only [Bool.false_and, Bool.false_eq_true, if_false, String.ofList_toList, positive]

/-- It is a floating-point number if it is a finite one. -/
theorem plainValue?_eq (fractional : Fractional c rest) {x : Binary64}
    (read : Binary64.ofText? (sign negative ++ c :: rest) = some x) :
    plainValue? (String.ofList (sign negative ++ c :: rest)) =
      some (if x.isFinite then .float x else .string (String.ofList (sign negative ++ c :: rest))) := by
  have filled : (String.ofList (sign negative ++ c :: rest)).isEmpty = false := by
    simp [Bool.eq_false_iff, String.isEmpty_iff]
  have notNull : isNullText (String.ofList (sign negative ++ c :: rest)) = false :=
    fractional.contains_eq_false negative (by decide)
  have notTrue : ["true", "True", "TRUE"].contains (String.ofList (sign negative ++ c :: rest)) = false :=
    fractional.contains_eq_false negative (by decide)
  have notFalse : ["false", "False", "FALSE"].contains (String.ofList (sign negative ++ c :: rest)) = false :=
    fractional.contains_eq_false negative (by decide)
  simp only [plainValue?, filled, notNull, boolOf?, notTrue, notFalse, String.toList_ofList,
    fractional.integerOf?_eq_none, fractional.isZeroPadded_eq_false, fractional.floatOf?_eq, read,
    Option.filter_some, Bool.or_false, Bool.false_eq_true, if_false]
  cases x.isFinite <;> rfl

end Fractional

end

/-! ### Laid out digits -/

section

variable {value : ℕ}

/-- Digits that are laid out have a point or an exponent. -/
theorem exists_fractional (value : ℕ) (place : ℤ) :
    ∃ c rest, Binary64.layout value place = c :: rest ∧ Fractional c rest := by
  unfold Binary64.layout
  dsimp only
  split
  · exact ⟨'0', ['.', '0'], rfl, rfl, fun _ => rfl, .inl (by simp)⟩
  rename_i positive
  obtain ⟨c, rest, written, digit⟩ := exists_toDigits_eq_cons value
  have leading : c ≠ '0' := by
    rintro rfl
    obtain rfl := eq_nil_of_toDigits written
    have number : Nat.ofDigitChars 10 (Nat.toDigits 10 value) 0 = value := Nat.ofDigitChars_ten_toDigits
    rw [written] at number
    exact positive number.symm
  rw [written]
  split
  · exact ⟨c, _, rfl, digit, fun zero => absurd zero leading, .inl (by simp)⟩
  split
  · rename_i inside
    obtain ⟨front, length⟩ : ∃ front, ((c :: rest).length + place).toNat = front + 1 :=
      ⟨((c :: rest).length + place).toNat - 1, by omega⟩
    rw [length, List.take_succ_cons]
    exact ⟨c, _, rfl, digit, fun zero => absurd zero leading, .inl (by simp)⟩
  split
  · exact ⟨'0', _, rfl, rfl, fun _ => rfl, .inl (by simp)⟩
  · split <;> exact ⟨c, _, rfl, digit, fun zero => absurd zero leading, .inr (by simp)⟩

theorem plainValue?_layout (negative : Bool) (few : value < 10 ^ 17) (place : ℤ) :
    plainValue? (String.ofList (sign negative ++ Binary64.layout value place)) =
      some (if (Binary64.ofDecimal negative value place).isFinite
        then .float (Binary64.ofDecimal negative value place)
        else .string (String.ofList (sign negative ++ Binary64.layout value place))) := by
  obtain ⟨c, rest, written, fractional⟩ := exists_fractional value place
  have reads := Binary64.ofText?_layout negative few place
  rw [written] at reads ⊢
  exact fractional.plainValue?_eq reads

/-- The text of a finite number is read as that number. -/
theorem plainValue?_render {x : Binary64} (finite : x.isFinite = true) :
    plainValue? x.render = some (.float x) := by
  obtain ⟨digits, place, written, -, few, reads⟩ := Binary64.exists_toList_render finite
  rw [← String.ofList_toList (s := x.render), written, plainValue?_layout _ few, reads, if_pos finite]

end

/-! ### Values of plain scalars -/

section

variable {text : String}

/-- Besides finite numbers only the words for others are read. -/
theorem floatOf?_cases {x : Binary64} (read : floatOf? text = some x) :
    x.isFinite = true ∨ (∃ negative, x = Binary64.infinity negative) ∨ x = Binary64.notANumber := by
  unfold floatOf? at read
  grind [Option.filter_eq_some_iff]

theorem integerOf?_of_plainValue? {value : ℤ} (read : plainValue? text = some (.integer value)) :
    integerOf? text.toList = some (some value) := by
  unfold plainValue? at read
  split at read
  · cases read
  split at read
  · cases read
  split at read
  · rename_i found
    obtain ⟨_, rfl, same⟩ := Option.map_eq_some_iff.mp read
    cases same
    exact found
  · split at read <;> cases read

theorem floatOf?_of_plainValue? {x : Binary64} (read : plainValue? text = some (.float x)) :
    floatOf? text = some x := by
  unfold plainValue? at read
  split at read
  · cases read
  split at read
  · cases read
  split at read
  · obtain ⟨_, -, other⟩ := Option.map_eq_some_iff.mp read
    cases other
  split at read
  · rename_i found
    cases read
    split at found
    · cases found
    · exact found
  · cases read

end

end TabSpec.Yaml

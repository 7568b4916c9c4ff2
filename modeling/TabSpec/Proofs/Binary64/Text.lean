import Mathlib
import TabSpec.Proofs.Binary64.Shortest
import TabSpec.Proofs.Text.Cut
import TabSpec.Proofs.Text.Integer

/-! Floating-point numbers as texts. Digits that are laid out at a decimal place are read as the number
nearest to them, so the text of a number is read as that number. -/
namespace TabSpec.Binary64

open Text

/-! ### Mantissa and exponent -/

section

variable {whole fraction : List Char}

/-- The digits of a mantissa are read as one number. -/
theorem foldl_digits (digits : List Char) (value : ℕ) :
    digits.foldl (fun value c => value * 10 + (c.toNat - 48)) value = Nat.ofDigitChars 10 digits value := by
  simp only [Nat.ofDigitChars_eq_foldl, Nat.mul_comm]
  rfl

theorem readMantissa_point (filled : whole ≠ []) (digits : ∀ c ∈ whole, c.isDigit = true)
    (digits' : ∀ c ∈ fraction, c.isDigit = true) (rest : List Char)
    (ends : ∀ c ∈ rest.head?, c.isDigit = false) :
    readMantissa (whole ++ '.' :: (fraction ++ rest)) =
      some (Nat.ofDigitChars 10 (whole ++ fraction) 0, fraction.length, rest) := by
  have front : (whole ++ '.' :: (fraction ++ rest)).takeWhile Char.isDigit = whole :=
    (takeWhile_dropWhile_append digits (by simp)).1
  obtain ⟨between, behind⟩ := takeWhile_dropWhile_append digits' ends
  simp only [readMantissa, front, List.drop_left, between, behind, foldl_digits]
  simp [filled]

theorem readMantissa_whole (filled : whole ≠ []) (digits : ∀ c ∈ whole, c.isDigit = true)
    (rest : List Char) (ends : ∀ c ∈ rest.head?, c.isDigit = false ∧ c ≠ '.') :
    readMantissa (whole ++ rest) = some (Nat.ofDigitChars 10 whole 0, 0, rest) := by
  have front : (whole ++ rest).takeWhile Char.isDigit = whole :=
    (takeWhile_dropWhile_append digits fun c first => (ends c first).1).1
  cases rest with
  | nil =>
    rw [List.append_nil] at front ⊢
    simp [readMantissa, front, foldl_digits, filled]
  | cons c rest =>
    have other : c ≠ '.' := (ends c rfl).2
    simp [readMantissa, front, foldl_digits, filled, other]

theorem foldl_cut (digits : List Char) (value : ℕ) :
    digits.foldl (fun value c => min (value * 10 + (c.toNat - 48)) 1000000) (min value 1000000) =
      min (Nat.ofDigitChars 10 digits value) 1000000 := by
  induction digits generalizing value with
  | nil => simp
  | cons c digits ih =>
    rw [List.foldl_cons, Nat.ofDigitChars_cons, ← ih]
    congr 1
    have : '0'.toNat = 48 := rfl
    omega

theorem ne_sign_of_isDigit {c : Char} (digit : c.isDigit = true) : c ≠ '-' ∧ c ≠ '+' := by
  constructor <;> rintro rfl <;> cases digit

theorem isDigit_of_mem_toDigits {value : ℕ} {c : Char} (member : c ∈ Nat.toDigits 10 value) : c.isDigit = true :=
  Nat.isDigit_of_mem_toDigits (by decide) (by decide) member

/-- An exponent is read as it is written, unless it is far beyond all numbers. -/
theorem readExponent_toString (power : ℤ) :
    readExponent (toString power).toList = some (max (-1000000) (min power 1000000)) := by
  obtain ⟨c, rest, written, digit⟩ := exists_toDigits_eq_cons power.natAbs
  obtain ⟨minus, plus⟩ := ne_sign_of_isDigit digit
  have value : (Nat.toDigits 10 power.natAbs).foldl
      (fun value c => min (value * 10 + (c.toNat - 48)) 1000000) 0 = min power.natAbs 1000000 := by
    rw [← Nat.zero_min 1000000, foldl_cut, Nat.ofDigitChars_ten_toDigits]
  have all : (Nat.toDigits 10 power.natAbs).all Char.isDigit = true :=
    List.all_eq_true.mpr fun c => isDigit_of_mem_toDigits
  rw [written] at value all
  by_cases negative : power < 0
  · have same : (-(min power.natAbs 1000000 : ℕ) : ℤ) = max (-1000000) (min power 1000000) := by omega
    rw [toList_toString_of_neg negative, written, ← same]
    simp only [readExponent, value, all]
    rfl
  · have same : ((min power.natAbs 1000000 : ℕ) : ℤ) = max (-1000000) (min power 1000000) := by omega
    rw [toList_toString_of_nonneg (Int.not_lt.mp negative), written, ← same]
    simp [readExponent, minus, plus, value, all]

end

/-! ### Texts -/

/-- The exponent behind a mantissa, if there is nothing else. -/
def exponentOf? : List Char → Option ℤ
  | [] => some 0
  | c :: exponent => if c = 'e' ∨ c = 'E' then readExponent exponent else none

theorem ofText?_sign (negative : Bool) {body rest : List Char} {digits places : ℕ}
    (begins : ∀ c ∈ body.head?, c.isDigit = true)
    (read : readMantissa body = some (digits, places, rest)) :
    ofText? (sign negative ++ body) =
      (exponentOf? rest).map fun power => ofDecimal negative digits (power - places) := by
  cases body with
  | nil => simp [readMantissa] at read
  | cons c body =>
    obtain ⟨minus, plus⟩ := ne_sign_of_isDigit (begins c rfl)
    cases rest with
    | nil =>
      cases negative <;> unfold ofText? <;>
        simp only [sign, if_true, Bool.false_eq_true, if_false, List.nil_append, List.singleton_append,
          List.cons.injEq, minus, plus, false_and, false_implies, implies_true, read, exponentOf?,
          Option.map_some, zero_sub]
    | cons mark exponent =>
      by_cases marked : mark = 'e' ∨ mark = 'E' <;> cases negative <;> unfold ofText? <;>
        simp only [sign, if_true, Bool.false_eq_true, if_false, List.nil_append, List.singleton_append,
          List.cons.injEq, minus, plus, false_and, false_implies, implies_true, read, exponentOf?,
          marked, Option.map_none]

/-- Far beyond all numbers the exponent makes no difference. -/
theorem ofDecimal_cut (negative : Bool) {digits places : ℕ} (few : digits < 10 ^ 17) (small : places < 17)
    (power : ℤ) :
    ofDecimal negative digits (max (-1000000) (min power 1000000) - places) =
      ofDecimal negative digits (power - places) := by
  by_cases filled : digits = 0
  · rw [filled, ofDecimal_zero, ofDecimal_zero]
  have length : (Nat.toDigits 10 digits).length ≤ 17 :=
    (Nat.length_toDigits_le_iff (by decide) (by decide)).mpr few
  rw [ofDecimal_eq negative filled, ofDecimal_eq negative filled]
  unfold pointOf
  rcases lt_trichotomy (max (-1000000) (min power 1000000)) power with more | same | less
  · rw [if_neg (by omega), if_pos (by omega), if_neg (by omega), if_pos (by omega)]
  · rw [same]
  · rw [if_pos (by omega), if_pos (by omega)]

/-! ### Laid out digits -/

theorem isDigit_of_head? {digits rest : List Char} (filled : digits ≠ [])
    (all : ∀ c ∈ digits, c.isDigit = true) : ∀ c ∈ (digits ++ rest).head?, c.isDigit = true := by
  obtain ⟨first, more, rfl⟩ := List.exists_cons_of_ne_nil filled
  intro c here
  rw [← Option.some.inj here]
  exact all first List.mem_cons_self

theorem ofText?_point (negative : Bool) {whole fraction : List Char} (filled : whole ≠ [])
    (digits : ∀ c ∈ whole, c.isDigit = true) (digits' : ∀ c ∈ fraction, c.isDigit = true) :
    ofText? (sign negative ++ (whole ++ '.' :: fraction)) =
      some (ofDecimal negative (Nat.ofDigitChars 10 (whole ++ fraction) 0) (-fraction.length)) := by
  have read := readMantissa_point filled digits digits' [] (by simp)
  rw [List.append_nil] at read
  rw [ofText?_sign negative (isDigit_of_head? filled digits) read, exponentOf?, Option.map_some,
    zero_sub]

section

variable {value : ℕ} {exponent : ℤ}

theorem isDigit_of_mem_zeros {count : ℕ} {c : Char} (member : c ∈ List.replicate count '0') :
    c.isDigit = true := by
  rw [List.eq_of_mem_replicate member]
  rfl

/-- Digits with a power of ten behind them are read as the number nearest to them. -/
theorem ofText?_scientific (negative : Bool) (few : value < 10 ^ 17) (exponent : ℤ) :
    ofText? (sign negative ++ ((if (Nat.toDigits 10 value).length = 1 then Nat.toDigits 10 value
      else (Nat.toDigits 10 value).take 1 ++ '.' :: (Nat.toDigits 10 value).drop 1) ++
        'e' :: (toString ((Nat.toDigits 10 value).length + exponent - 1)).toList)) =
      some (ofDecimal negative value exponent) := by
  have filled : Nat.toDigits 10 value ≠ [] := Nat.toDigits_ne_nil
  have number : Nat.ofDigitChars 10 (Nat.toDigits 10 value) 0 = value := Nat.ofDigitChars_ten_toDigits
  have length : (Nat.toDigits 10 value).length ≤ 17 :=
    (Nat.length_toDigits_le_iff (by decide) (by decide)).mpr few
  have digits : ∀ c ∈ Nat.toDigits 10 value, c.isDigit = true := fun c => isDigit_of_mem_toDigits
  have some := List.length_pos_of_ne_nil filled
  generalize Nat.toDigits 10 value = written at filled number length digits some ⊢
  split
  · rename_i single
    have read := readMantissa_whole filled digits
      ('e' :: (toString ((written.length : ℤ) + exponent - 1)).toList) (by simp)
    rw [ofText?_sign negative (isDigit_of_head? filled digits) read, exponentOf?, if_pos (.inl rfl),
      readExponent_toString, Option.map_some, number, ofDecimal_cut negative few (by decide)]
    congr 2
    omega
  · have cut : written.take 1 ≠ [] := by simpa using filled
    have front : ∀ c ∈ written.take 1, c.isDigit = true := fun c member =>
      digits c (List.mem_of_mem_take member)
    have back : ∀ c ∈ written.drop 1, c.isDigit = true := fun c member =>
      digits c (List.mem_of_mem_drop member)
    have read := readMantissa_point cut front back
      ('e' :: (toString ((written.length : ℤ) + exponent - 1)).toList) (by simp)
    rw [List.append_assoc, List.cons_append, ofText?_sign negative (isDigit_of_head? cut front) read,
      exponentOf?, if_pos (.inl rfl), readExponent_toString, Option.map_some, List.take_append_drop, number,
      List.length_drop, ofDecimal_cut negative few (by omega)]
    congr 2
    omega

/-- Digits that are laid out at a place are read as the number nearest to them. -/
theorem ofText?_layout (negative : Bool) (few : value < 10 ^ 17) (exponent : ℤ) :
    ofText? (sign negative ++ layout value exponent) = some (ofDecimal negative value exponent) := by
  have filled : Nat.toDigits 10 value ≠ [] := Nat.toDigits_ne_nil
  have number : Nat.ofDigitChars 10 (Nat.toDigits 10 value) 0 = value := Nat.ofDigitChars_ten_toDigits
  have digits : ∀ c ∈ Nat.toDigits 10 value, c.isDigit = true := fun c => isDigit_of_mem_toDigits
  have scientific := ofText?_scientific negative few exponent
  have one : ∀ c ∈ ['0'], c.isDigit = true := by simp
  unfold layout
  dsimp only
  split
  · rename_i zero
    rw [zero, ofDecimal_zero, ← ofDecimal_zero negative (-(['0'].length : ℤ))]
    exact ofText?_point negative (by simp) one one
  rename_i positive
  generalize Nat.toDigits 10 value = written at filled number digits scientific ⊢
  split
  · rename_i whole
    obtain ⟨zeros, rfl⟩ := Int.eq_ofNat_of_zero_le whole.1
    have both : ∀ c ∈ written ++ List.replicate zeros '0', c.isDigit = true := fun c member =>
      (List.mem_append.mp member).elim (digits c) isDigit_of_mem_zeros
    have shifted : Nat.ofDigitChars 10 (written ++ List.replicate zeros '0' ++ ['0']) 0 =
        value * 10 ^ (zeros + 1) := by
      rw [List.append_assoc, ← List.replicate_succ', Nat.ofDigitChars_append, number,
        Nat.ofDigitChars_replicate_zero, Nat.mul_comm]
    have read := ofText?_point negative (List.append_ne_nil_of_left_ne_nil filled _) both one
    rw [shifted] at read
    refine read.trans (congrArg some (ofDecimal_congr (by positivity) positive ?_ negative))
    rw [List.length_singleton, Nat.cast_one, zpow_neg_one, pow_succ, zpow_natCast]
    push_cast
    ring
  split
  · rename_i inside
    have cut : written.take (written.length + exponent).toNat ≠ [] := by
      rw [ne_eq, List.take_eq_nil_iff]
      exact not_or.mpr ⟨by omega, filled⟩
    rw [ofText?_point negative cut (fun c member => digits c (List.mem_of_mem_take member))
      (fun c member => digits c (List.mem_of_mem_drop member)), List.take_append_drop, number,
      List.length_drop]
    congr 2
    omega
  split
  · rename_i behind
    have both : ∀ c ∈ List.replicate (-(written.length + exponent)).toNat '0' ++ written,
        c.isDigit = true := fun c member => (List.mem_append.mp member).elim isDigit_of_mem_zeros (digits c)
    have padded : Nat.ofDigitChars 10
        (['0'] ++ (List.replicate (-(written.length + exponent)).toNat '0' ++ written)) 0 = value := by
      rw [Nat.ofDigitChars_append, Nat.ofDigitChars_append, Nat.ofDigitChars_replicate_zero]
      exact number
    have read := ofText?_point negative (by simp) one both
    rw [padded, List.length_append, List.length_replicate] at read
    rw [List.append_assoc]
    refine read.trans (congrArg (some <| ofDecimal negative value ·) ?_)
    omega
  · exact scientific

end

/-! ### Numbers as texts -/

section

variable {x : Binary64}

theorem isFinite_iff : x.isFinite = true ↔ x.magnitude < infinityBits := decide_eq_true_iff

theorem toList_render (finite : x.isFinite = true) :
    x.render.toList = sign x.isNegative ++ layout x.shortest.1 x.shortest.2 := by
  have number : x.isNaN = false := by
    rw [isNaN, decide_eq_false_iff_not]
    exact (isFinite_iff.mp finite).le.not_gt
  simp only [render, number, finite, sign]
  cases x.isNegative <;> simp

theorem toList_render_zero (negative : Bool) :
    (ofMagnitude negative 0).render.toList = sign negative ++ layout 0 0 := by
  cases negative <;> rfl

/-- Digits without a zero at their end, unless they are zero, that do not begin too far behind the point. -/
def Trimmed (least : ℤ) (digits : ℕ) (place : ℤ) : Prop :=
  digits ≠ 0 → digits % 10 ≠ 0 ∧ least ≤ pointOf digits place

/-- A finite number is written with seventeen digits at most, which are read as the number. -/
theorem exists_toList_render (finite : x.isFinite = true) :
    ∃ digits place, x.render.toList = sign x.isNegative ++ layout digits place ∧
      Trimmed (-323) digits place ∧ digits < 10 ^ 17 ∧ ofDecimal x.isNegative digits place = x := by
  by_cases zero : x.magnitude = 0
  · have same : ofDecimal x.isNegative 0 0 = x := by rw [ofDecimal_zero, ← zero, ofMagnitude_magnitude]
    refine ⟨0, 0, ?_, fun filled => absurd rfl filled, by decide, same⟩
    rw [← toList_render_zero, ← ofDecimal_zero _ 0, same]
  · obtain ⟨digits, place, shortest, isShortest⟩ :=
      exists_shortest (isFinite_iff.mp finite) (toRat_pos zero)
    have written := toList_render finite
    rw [shortest] at written
    have reads : ofDecimal x.isNegative digits place = x := by
      rw [ofDecimal_eq_ofMagnitude, isShortest.readsBack, ofMagnitude_magnitude]
    refine ⟨digits, place, written, fun filled => ⟨isShortest.trimmed, ?_⟩, isShortest.few, reads⟩
    rw [← reads] at zero finite
    exact (pointOf_within filled zero (isFinite_iff.mp finite)).1

theorem isNegative_ofDecimal (negative : Bool) (digits : ℕ) (place : ℤ) :
    (ofDecimal negative digits place).isNegative = negative := by
  have small : (ofDecimal false digits place).magnitude < signBit := Nat.mod_lt _ (by decide)
  rw [ofDecimal_eq_ofMagnitude, isNegative, toNat_ofMagnitude negative small]
  cases negative
  · simpa using small
  · simp

/-- Fifteen digits at most are written as they are laid out. -/
theorem toList_render_ofDecimal {negative : Bool} {digits : ℕ} {place : ℤ}
    (trimmed : Trimmed (-306) digits place) (few : digits < 10 ^ 15)
    (finite : (ofDecimal negative digits place).isFinite = true) :
    (ofDecimal negative digits place).render.toList = sign negative ++ layout digits place := by
  by_cases filled : digits = 0
  · rw [filled, ofDecimal_zero, toList_render_zero]
    rfl
  · obtain ⟨trimmed, least⟩ := trimmed filled
    have small := isFinite_iff.mp finite
    have back : (ofDecimal negative digits place).ReadsBack digits place :=
      (magnitude_ofDecimal negative digits place).symm
    rw [toList_render finite, isNegative_ofDecimal,
      shortest_of_readsBack trimmed few back (normal_of_pointOf filled least small) small]

end

end TabSpec.Binary64

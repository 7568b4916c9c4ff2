import Mathlib
import TabSpec.Binary64

/-! Rounding to floating-point numbers. What a decimal fraction is read as depends on its value alone; it
differs from the value by half a unit in its last place at most, and every fraction that is close enough
to a number is read as that number. -/
namespace TabSpec.Binary64

/-! ### The nearest integer -/

/-- The integer nearest to a fraction, of two the even one. -/
structure Nearest (fraction : ℚ) (integer : ℕ) : Prop where
  near : |fraction - integer| ≤ 1 / 2
  even : |fraction - integer| = 1 / 2 → integer % 2 = 0

theorem Nearest.le {fraction : ℚ} {one other : ℕ} (first : Nearest fraction one)
    (second : Nearest fraction other) : one ≤ other := by
  by_contra beyond
  have further : (other : ℚ) + 1 ≤ one := by exact_mod_cast Nat.not_le.mp beyond
  have above := (abs_le.mp first.near).1
  have below := (abs_le.mp second.near).2
  -- Only the middle of two integers that follow each other is as near to both.
  have middle : fraction = other + 1 / 2 := by linarith
  have follows : (one : ℚ) = other + 1 := by linarith
  have evenOther := second.even (by rw [middle]; norm_num)
  have evenOne := first.even (by rw [middle, follows]; norm_num)
  have next : one = other + 1 := by exact_mod_cast follows
  omega

theorem Nearest.unique {fraction : ℚ} {one other : ℕ} (first : Nearest fraction one)
    (second : Nearest fraction other) : one = other := le_antisymm (first.le second) (second.le first)

/-- What is nearer than a half is nearest. -/
theorem nearest_of_lt {fraction : ℚ} {integer : ℕ} (near : |fraction - integer| < 1 / 2) :
    Nearest fraction integer := ⟨near.le, fun far => absurd far near.ne⟩

theorem nearest_roundQuotient (numerator : ℕ) {denominator : ℕ} (positive : 0 < denominator) :
    Nearest (numerator / denominator : ℚ) (roundQuotient numerator denominator) := by
  have positive' : (0 : ℚ) < denominator := by exact_mod_cast positive
  have whole : (numerator : ℚ) = numerator / denominator * denominator := by field_simp
  have parts : (numerator : ℚ) =
      denominator * (numerator / denominator : ℕ) + (numerator % denominator : ℕ) := by
    exact_mod_cast (Nat.div_add_mod numerator denominator).symm
  have smaller := Nat.mod_lt numerator positive
  unfold roundQuotient
  generalize numerator / denominator = quotient at parts ⊢
  generalize numerator % denominator = rest at parts smaller ⊢
  generalize (numerator : ℚ) / denominator = fraction at whole ⊢
  rcases Nat.lt_trichotomy (2 * rest) denominator with less | half | more
  · have less' : 2 * (rest : ℚ) < denominator := by exact_mod_cast less
    rw [if_neg (by omega)]
    refine nearest_of_lt (abs_lt.mpr ⟨?_, ?_⟩) <;> nlinarith
  · have half' : 2 * (rest : ℚ) = denominator := by exact_mod_cast half
    have middle : fraction = quotient + 1 / 2 := by nlinarith
    rcases Nat.mod_two_eq_zero_or_one quotient with even | odd
    · rw [if_neg (by omega)]
      exact ⟨by rw [middle]; norm_num, fun _ => even⟩
    · rw [if_pos (by omega)]
      exact ⟨by rw [middle]; norm_num, fun _ => by omega⟩
  · have more' : (denominator : ℚ) < 2 * rest := by exact_mod_cast more
    have smaller' : (rest : ℚ) < denominator := by exact_mod_cast smaller
    rw [if_pos (by omega)]
    refine nearest_of_lt (abs_lt.mpr ⟨?_, ?_⟩) <;> push_cast <;> nlinarith

/-! ### Fractions of two integers -/

/-- A fraction divided by a power of an integer. -/
def scaledBy (base numerator denominator : ℕ) (place : ℤ) : ℕ × ℕ :=
  if 0 ≤ place then (numerator, denominator * Nat.pow base place.toNat)
  else (numerator * Nat.pow base (-place).toNat, denominator)

section

variable {base denominator : ℕ} (numerator : ℕ) (positive : 0 < base) (place : ℤ)

include positive in
theorem pos_scaledBy (filled : 0 < denominator) : 0 < (scaledBy base numerator denominator place).2 := by
  unfold scaledBy
  split
  · exact Nat.mul_pos filled (Nat.pow_pos positive)
  · exact filled

theorem scaledBy_eq (base denominator : ℕ) :
    ((scaledBy base numerator denominator place).1 / (scaledBy base numerator denominator place).2 : ℚ) =
      numerator / denominator / base ^ place := by
  unfold scaledBy
  split
  · rename_i up
    obtain ⟨distance, rfl⟩ := Int.eq_ofNat_of_zero_le up
    simp [div_div]
  · rename_i down
    obtain ⟨distance, rfl⟩ : ∃ distance : ℕ, place = -distance := ⟨place.natAbs, by omega⟩
    simp [div_eq_mul_inv, mul_right_comm]

include positive in
theorem scaledBy_div_lt_iff (filled : 0 < denominator) (bound : ℕ) :
    (scaledBy base numerator denominator place).1 / (scaledBy base numerator denominator place).2 <
        bound ↔ (numerator / denominator : ℚ) < bound * base ^ place := by
  have below := pos_scaledBy numerator positive place filled
  have below' : (0 : ℚ) < (scaledBy base numerator denominator place).2 := by exact_mod_cast below
  have power : (0 : ℚ) < base ^ place := zpow_pos (by exact_mod_cast positive) place
  rw [Nat.div_lt_iff_lt_mul below, ← div_lt_iff₀ power, ← scaledBy_eq, div_lt_iff₀ below']
  norm_cast

end

/-- A quotient lies within the powers that bound its parts. -/
theorem quotient_within {base numerator denominator : ℚ} {upper lower : ℤ} (positive : 0 < base)
    (least : base ^ upper ≤ numerator) (most : numerator < base ^ (upper + 1))
    (least' : base ^ lower ≤ denominator) (most' : denominator < base ^ (lower + 1)) :
    base ^ (upper - lower - 1) < numerator / denominator ∧
      numerator / denominator < base ^ (upper - lower + 1) := by
  have power (place : ℤ) : 0 < base ^ place := zpow_pos positive place
  have filled : 0 < denominator := (power lower).trans_le least'
  constructor
  · calc base ^ (upper - lower - 1) = base ^ upper / base ^ (lower + 1) := by
          rw [← zpow_sub₀ positive.ne']
          ring_nf
      _ < numerator / denominator :=
        div_lt_div₀' least most' ((power upper).trans_le least) filled
  · calc numerator / denominator < base ^ (upper + 1) / base ^ lower :=
          div_lt_div₀ most least' (power (upper + 1)).le (power lower)
      _ = base ^ (upper - lower + 1) := by
          rw [← zpow_sub₀ positive.ne']
          ring_nf

/-! ### The bits of a number -/

theorem cast_implicitBit : (implicitBit : ℚ) = 2 ^ 52 := by norm_num [implicitBit]

/-- The bits of `mantissa * 2 ^ exponent`; a mantissa of one more bit carries into the exponent. -/
def encode (exponent : ℤ) (mantissa : ℕ) : ℕ := (exponent + 1074).toNat * implicitBit + mantissa

/-- A mantissa and an exponent within the bounds of both. -/
structure IsScaled (exponent : ℤ) (mantissa : ℕ) : Prop where
  least : -1074 ≤ exponent
  most : mantissa ≤ 2 * implicitBit
  leading : exponent = -1074 ∨ implicitBit ≤ mantissa

/-- The value of a finite number without its sign. -/
def toRat (x : Binary64) : ℚ := x.decode.1 * 2 ^ x.decode.2

theorem decode_of_magnitude {x : Binary64} {field fraction : ℕ} (small : fraction < implicitBit)
    (bits : x.magnitude = field * implicitBit + fraction) :
    x.decode = if field = 0 then (fraction, -1074)
      else (implicitBit + fraction, (field : ℤ) - 1075) := by
  have quotient : x.magnitude / implicitBit = field := by
    rw [bits]
    unfold implicitBit at small ⊢
    omega
  have rest : x.magnitude % implicitBit = fraction := by
    rw [bits]
    unfold implicitBit at small ⊢
    omega
  simp only [decode, quotient, rest]

theorem toRat_of_magnitude {x : Binary64} {exponent : ℤ} {mantissa : ℕ}
    (isScaled : IsScaled exponent mantissa) (bits : x.magnitude = encode exponent mantissa) :
    x.toRat = mantissa * 2 ^ exponent := by
  obtain ⟨least, most, leading⟩ := isScaled
  obtain ⟨field, rfl⟩ : ∃ field : ℕ, exponent = field - 1074 := ⟨(exponent + 1074).toNat, by omega⟩
  have bits : x.magnitude = field * implicitBit + mantissa := by simpa [encode] using bits
  rcases Nat.lt_or_ge mantissa implicitBit with small | large
  · obtain rfl : field = 0 := by omega
    rw [toRat, decode_of_magnitude small bits]
    simp
  · obtain ⟨fraction, rfl⟩ := Nat.exists_eq_add_of_le large
    rcases Nat.lt_or_ge fraction implicitBit with inside | carried
    · have next : x.magnitude = (field + 1) * implicitBit + fraction := by rw [bits]; ring
      have place : ((field + 1 : ℕ) : ℤ) - 1075 = field - 1074 := by omega
      rw [toRat, decode_of_magnitude inside next, if_neg (by omega), place]
    · obtain rfl : fraction = implicitBit := by omega
      have next : x.magnitude = (field + 2) * implicitBit + 0 := by rw [bits]; ring
      have place : ((field + 2 : ℕ) : ℤ) - 1075 = field - 1074 + 1 := by omega
      rw [toRat, decode_of_magnitude (by decide) next, if_neg (by omega), place,
        zpow_add_one₀ (by norm_num)]
      push_cast
      ring

/-- Every number has a mantissa and an exponent. -/
theorem exists_isScaled (x : Binary64) :
    ∃ exponent mantissa, IsScaled exponent mantissa ∧ mantissa < 2 * implicitBit ∧
      x.magnitude = encode exponent mantissa := by
  have positive : 0 < implicitBit := by decide
  have small := Nat.mod_lt x.magnitude positive
  have whole := Nat.div_add_mod' x.magnitude implicitBit
  cases field : x.magnitude / implicitBit with
  | zero =>
    refine ⟨-1074, x.magnitude % implicitBit, ⟨le_rfl, by omega, .inl rfl⟩, by omega, ?_⟩
    rw [field, Nat.zero_mul, Nat.zero_add] at whole
    rw [encode, whole]
    simp
  | succ field' =>
    refine ⟨field' - 1074, implicitBit + x.magnitude % implicitBit,
      ⟨by omega, by omega, .inr (by omega)⟩, by omega, ?_⟩
    rw [field, Nat.add_mul] at whole
    rw [encode]
    simp
    omega

theorem toRat_congr {x y : Binary64} (same : x.magnitude = y.magnitude) : x.toRat = y.toRat := by
  rw [toRat, toRat, decode, decode, same]

/-- Only zero has the mantissa zero. -/
theorem IsScaled.filled {exponent : ℤ} {mantissa : ℕ} (isScaled : IsScaled exponent mantissa)
    (positive : encode exponent mantissa ≠ 0) : mantissa ≠ 0 := by
  rintro rfl
  obtain rfl := isScaled.leading.resolve_right (by decide)
  exact positive rfl

theorem toRat_pos {x : Binary64} (filled : x.magnitude ≠ 0) : 0 < x.toRat := by
  obtain ⟨exponent, mantissa, isScaled, -, bits⟩ := exists_isScaled x
  have positive : (0 : ℚ) < mantissa := by
    exact_mod_cast Nat.pos_of_ne_zero (isScaled.filled (bits ▸ filled))
  rw [toRat_of_magnitude isScaled bits]
  positivity

/-! ### The nearest number -/

/-- A mantissa and an exponent that a fraction is rounded to, if there is no greatest exponent. -/
structure Rounding (fraction : ℚ) (exponent : ℤ) (mantissa : ℕ) : Prop where
  least : -1074 ≤ exponent
  below : fraction < 2 ^ (exponent + 53)
  above : exponent = -1074 ∨ 2 ^ (exponent + 52) ≤ fraction
  nearest : Nearest (fraction / 2 ^ exponent) mantissa

namespace Rounding

variable {fraction : ℚ} {exponent other : ℤ} {mantissa further : ℕ}

theorem le_exponent (first : Rounding fraction exponent mantissa)
    (second : Rounding fraction other further) : exponent ≤ other := by
  rcases first.above with rfl | above
  · exact second.least
  · have powers : (2 : ℚ) ^ (exponent + 52) < 2 ^ (other + 53) := above.trans_lt second.below
    have := (zpow_lt_zpow_iff_right₀ (by norm_num : (1 : ℚ) < 2)).mp powers
    omega

theorem unique (first : Rounding fraction exponent mantissa)
    (second : Rounding fraction other further) : exponent = other ∧ mantissa = further := by
  obtain rfl := le_antisymm (first.le_exponent second) (second.le_exponent first)
  exact ⟨rfl, first.nearest.unique second.nearest⟩

/-- The mantissa has its leading bit if the fraction is large enough for the exponent. -/
theorem leading (rounding : Rounding fraction exponent mantissa)
    (above : 2 ^ (exponent + 52) ≤ fraction) : implicitBit ≤ mantissa := by
  have power : (0 : ℚ) < 2 ^ exponent := zpow_pos (by norm_num) exponent
  have bound : 2 ^ 52 ≤ fraction / 2 ^ exponent := by
    rwa [le_div_iff₀ power, ← zpow_natCast, ← zpow_add₀ (by norm_num), add_comm]
  have large : (implicitBit : ℚ) < mantissa + 1 := by
    rw [cast_implicitBit]
    linarith [(abs_le.mp rounding.nearest.near).2]
  exact Nat.lt_succ_iff.mp (by exact_mod_cast large)

theorem isScaled (rounding : Rounding fraction exponent mantissa) : IsScaled exponent mantissa := by
  refine ⟨rounding.least, ?_, rounding.above.imp_right rounding.leading⟩
  have power : (0 : ℚ) < 2 ^ exponent := zpow_pos (by norm_num) exponent
  have bound : fraction / 2 ^ exponent < 2 ^ 53 := by
    rw [div_lt_iff₀ power, ← zpow_natCast, ← zpow_add₀ (by norm_num), add_comm]
    exact rounding.below
  have small : (mantissa : ℚ) < (2 * implicitBit : ℕ) + 1 := by
    push_cast [cast_implicitBit]
    linarith [(abs_le.mp rounding.nearest.near).1]
  exact Nat.lt_succ_iff.mp (by exact_mod_cast small)

/-- The value of the bits is within half a unit of the fraction. -/
theorem near (rounding : Rounding fraction exponent mantissa) :
    |fraction - mantissa * 2 ^ exponent| ≤ 2 ^ exponent / 2 := by
  have power : (0 : ℚ) < 2 ^ exponent := zpow_pos (by norm_num) exponent
  have unit : fraction - mantissa * 2 ^ exponent = (fraction / 2 ^ exponent - mantissa) * 2 ^ exponent := by
    field_simp
  rw [unit, abs_mul, abs_of_pos power]
  have near := rounding.nearest.near
  nlinarith

end Rounding

/-- The exponent that a fraction is rounded with. -/
def roundingExponent (numerator denominator : ℕ) : ℤ :=
  let guess : ℤ := (numerator.log2 : ℤ) - denominator.log2 - 52
  let exact := if (scaled numerator denominator guess).1 / (scaled numerator denominator guess).2 <
    implicitBit then guess - 1 else guess
  max exact (-1074)

theorem magnitudeOfFraction_eq (numerator denominator : ℕ) :
    magnitudeOfFraction numerator denominator =
      let exponent := roundingExponent numerator denominator
      let mantissa := roundQuotient (scaled numerator denominator exponent).1
        (scaled numerator denominator exponent).2
      min infinityBits (if mantissa < implicitBit then mantissa else encode exponent mantissa) := by
  simp only [magnitudeOfFraction, decide_eq_true_eq]
  rfl

/-- A fraction has 53 bits in front of the point when it is scaled, unless it is too small. -/
theorem roundingExponent_within {numerator denominator : ℕ} (positive : numerator ≠ 0)
    (positive' : denominator ≠ 0) :
    (numerator / denominator : ℚ) < 2 ^ (roundingExponent numerator denominator + 53) ∧
      (roundingExponent numerator denominator = -1074 ∨
        2 ^ (roundingExponent numerator denominator + 52) ≤ (numerator / denominator : ℚ)) := by
  have bounds {number : ℕ} (filled : number ≠ 0) :
      (2 : ℚ) ^ (number.log2 : ℤ) ≤ number ∧ (number : ℚ) < 2 ^ ((number.log2 : ℤ) + 1) := by
    exact ⟨by exact_mod_cast Nat.log2_self_le filled, by exact_mod_cast Nat.lt_log2_self⟩
  obtain ⟨lower, upper⟩ := quotient_within (by norm_num) (bounds positive).1 (bounds positive).2
    (bounds positive').1 (bounds positive').2
  have compare (guess : ℤ) :=
    scaledBy_div_lt_iff numerator two_pos guess (Nat.pos_of_ne_zero positive') implicitBit
  simp only [cast_implicitBit, Nat.cast_ofNat, ← zpow_natCast, ← zpow_add₀ (two_ne_zero : (2 : ℚ) ≠ 0)] at compare
  have exact : ∃ exact : ℤ, roundingExponent numerator denominator = max exact (-1074) ∧
      (numerator / denominator : ℚ) < 2 ^ (exact + 53) ∧
      2 ^ (exact + 52) ≤ (numerator / denominator : ℚ) := by
    refine ⟨_, rfl, ?_⟩
    have power {one other : ℤ} (same : one = other) : (2 : ℚ) ^ one = 2 ^ other := by rw [same]
    split
    · rename_i few
      exact ⟨((compare _).mp few).trans_eq (power (by omega)), (power (by omega)).trans_le lower.le⟩
    · rename_i many
      exact ⟨upper.trans_eq (power (by omega)),
        (power (by omega)).trans_le (not_lt.mp (mt (compare _).mpr many))⟩
  obtain ⟨exact, same, below, above⟩ := exact
  rw [same]
  rcases le_total exact (-1074) with small | large
  · rw [max_eq_right small]
    refine ⟨below.trans_le (zpow_le_zpow_right₀ (by norm_num) (by omega)), .inl rfl⟩
  · rw [max_eq_left large]
    exact ⟨below, .inr above⟩

theorem exists_rounding {numerator denominator : ℕ} (positive : numerator ≠ 0)
    (positive' : denominator ≠ 0) :
    ∃ exponent mantissa, Rounding (numerator / denominator) exponent mantissa ∧
      magnitudeOfFraction numerator denominator = min infinityBits (encode exponent mantissa) := by
  obtain ⟨below, above⟩ := roundingExponent_within positive positive'
  have rounding : Rounding (numerator / denominator) (roundingExponent numerator denominator)
      (roundQuotient (scaled numerator denominator (roundingExponent numerator denominator)).1
        (scaled numerator denominator (roundingExponent numerator denominator)).2) := by
    refine ⟨le_max_right .., below, above, ?_⟩
    have quotient := scaledBy_eq numerator (roundingExponent numerator denominator) 2 denominator
    rw [Nat.cast_ofNat] at quotient
    rw [← quotient]
    exact nearest_roundQuotient _ (pos_scaledBy _ two_pos _ (Nat.pos_of_ne_zero positive'))
  refine ⟨_, _, rounding, ?_⟩
  rw [magnitudeOfFraction_eq]
  dsimp only
  split
  · rename_i small
    -- A mantissa without the leading bit has the least exponent.
    have least := rounding.isScaled.leading.resolve_right (Nat.not_le.mpr small)
    rw [least, encode]
    simp
  · rfl

/-! ### Signs -/

theorem toNat_ofMagnitude (negative : Bool) {magnitude : ℕ} (small : magnitude < signBit) :
    (ofMagnitude negative magnitude).bits.toNat =
      if negative then signBit + magnitude else magnitude := by
  unfold signBit at small
  cases negative <;> simp [ofMagnitude, signBit] <;> omega

theorem magnitude_ofMagnitude (negative : Bool) {magnitude : ℕ} (small : magnitude < signBit) :
    (ofMagnitude negative magnitude).magnitude = magnitude := by
  rw [Binary64.magnitude, toNat_ofMagnitude negative small]
  cases negative
  · exact Nat.mod_eq_of_lt small
  · simpa using Nat.mod_eq_of_lt small

/-- A number is its sign and the bits behind it. -/
theorem ofMagnitude_magnitude (x : Binary64) : ofMagnitude x.isNegative x.magnitude = x := by
  obtain ⟨bits⟩ := x
  have bound := bits.toNat_lt
  have same : (if decide (signBit ≤ bits.toNat) then signBit + bits.toNat % signBit
      else bits.toNat % signBit) = bits.toNat := by
    unfold signBit
    split <;> simp_all
    omega
  rw [ofMagnitude, isNegative, Binary64.magnitude, same, UInt64.ofNat_toNat]

/-! ### Decimal fractions -/

theorem number_within {number : ℕ} (filled : number ≠ 0) :
    (10 : ℚ) ^ (((Nat.toDigits 10 number).length : ℤ) - 1) ≤ number ∧
      (number : ℚ) < 10 ^ ((Nat.toDigits 10 number).length : ℤ) := by
  have most := (Nat.length_toDigits_le_iff (by decide) Nat.length_toDigits_pos).mp
    (le_refl (Nat.toDigits 10 number).length)
  have least : 10 ^ ((Nat.toDigits 10 number).length - 1) ≤ number := by
    rcases Nat.eq_zero_or_pos ((Nat.toDigits 10 number).length - 1) with single | more
    · rw [single]
      exact Nat.one_le_iff_ne_zero.mpr filled
    · refine Nat.not_lt.mp fun fewer => ?_
      have := (Nat.length_toDigits_le_iff (by decide) more).mpr fewer
      omega
  have place : ((Nat.toDigits 10 number).length : ℤ) - 1 =
      ((Nat.toDigits 10 number).length - 1 : ℕ) := by
    have positive := Nat.length_toDigits_pos (b := 10) (n := number)
    omega
  rw [place]
  exact ⟨by exact_mod_cast least, by exact_mod_cast most⟩

/-- How many digits of a decimal fraction stand in front of its point; less than none if zeros stand
behind it. -/
def pointOf (digits : ℕ) (place : ℤ) : ℤ := place + (Nat.toDigits 10 digits).length

theorem decimal_within {digits : ℕ} (filled : digits ≠ 0) (place : ℤ) :
    (10 : ℚ) ^ (pointOf digits place - 1) ≤ digits * 10 ^ place ∧
      (digits * 10 ^ place : ℚ) < 10 ^ pointOf digits place := by
  obtain ⟨least, most⟩ := number_within filled
  have power : (0 : ℚ) < 10 ^ place := zpow_pos (by norm_num) place
  constructor
  · calc (10 : ℚ) ^ (pointOf digits place - 1) =
          10 ^ (((Nat.toDigits 10 digits).length : ℤ) - 1) * 10 ^ place := by
          rw [← zpow_add₀ (by norm_num), pointOf]
          ring_nf
      _ ≤ digits * 10 ^ place := by gcongr
  · calc (digits * 10 ^ place : ℚ) < 10 ^ ((Nat.toDigits 10 digits).length : ℤ) * 10 ^ place := by gcongr
      _ = 10 ^ pointOf digits place := by
          rw [← zpow_add₀ (by norm_num), pointOf]
          ring_nf

theorem place_lt_of_zpow {base : ℚ} {one other : ℤ} (large : 1 < base) (less : base ^ one < base ^ other) :
    one < other := (zpow_lt_zpow_iff_right₀ large).mp less

theorem pointOf_congr {digits digits' : ℕ} {place place' : ℤ} (filled : digits ≠ 0)
    (filled' : digits' ≠ 0) (same : (digits * 10 ^ place : ℚ) = digits' * 10 ^ place') :
    pointOf digits place = pointOf digits' place' := by
  obtain ⟨least, most⟩ := decimal_within filled place
  obtain ⟨least', most'⟩ := decimal_within filled' place'
  rw [same] at least most
  have below := place_lt_of_zpow (by norm_num) (least.trans_lt most')
  have above := place_lt_of_zpow (by norm_num) (least'.trans_lt most)
  omega

theorem decimal_eq_quotient (digits : ℕ) (place : ℤ) :
    ((digits * Nat.pow 10 place.toNat : ℕ) / (Nat.pow 10 (-place).toNat : ℕ) : ℚ) =
      digits * 10 ^ place := by
  rcases le_total 0 place with up | down
  · obtain ⟨distance, rfl⟩ := Int.eq_ofNat_of_zero_le up
    simp
  · obtain ⟨distance, rfl⟩ : ∃ distance : ℕ, place = -distance := ⟨place.natAbs, by omega⟩
    simp [div_eq_mul_inv]

theorem ofDecimal_zero (negative : Bool) (place : ℤ) : ofDecimal negative 0 place = ofMagnitude negative 0 := by
  simp [ofDecimal]

theorem ofDecimal_eq (negative : Bool) {digits : ℕ} (filled : digits ≠ 0) (place : ℤ) :
    ofDecimal negative digits place =
      if pointOf digits place < -400 then ofMagnitude negative 0
      else if 400 < pointOf digits place then infinity negative
      else ofMagnitude negative (magnitudeOfFraction (digits * Nat.pow 10 place.toNat)
        (Nat.pow 10 (-place).toNat)) := by
  have fraction : (if 0 ≤ place then
        ofMagnitude negative (magnitudeOfFraction (digits * Nat.pow 10 place.toNat) 1)
      else ofMagnitude negative (magnitudeOfFraction digits (Nat.pow 10 (-place).toNat))) =
      ofMagnitude negative (magnitudeOfFraction (digits * Nat.pow 10 place.toNat)
        (Nat.pow 10 (-place).toNat)) := by
    have one : Nat.pow 10 0 = 1 := rfl
    split
    · rw [show (-place).toNat = 0 by omega, one]
    · rw [show place.toNat = 0 by omega, one, Nat.mul_one]
  simp only [ofDecimal, filled, false_or, pointOf, fraction]
  congr

/-- The sign of a decimal fraction is the sign of the number that it is read as. -/
theorem ofDecimal_eq_ofMagnitude (negative : Bool) (digits : ℕ) (place : ℤ) :
    ofDecimal negative digits place = ofMagnitude negative (ofDecimal false digits place).magnitude := by
  have signed {magnitude : ℕ} (small : magnitude < signBit) :
      ofMagnitude negative magnitude = ofMagnitude negative (ofMagnitude false magnitude).magnitude := by
    rw [magnitude_ofMagnitude false small]
  by_cases filled : digits = 0
  · rw [filled, ofDecimal_zero, ofDecimal_zero]
    exact signed (by decide)
  · rw [ofDecimal_eq negative filled, ofDecimal_eq false filled]
    split
    · exact signed (by decide)
    split
    · exact signed (by decide)
    · exact signed ((min_le_left ..).trans_lt (by decide))

theorem magnitude_ofDecimal (negative : Bool) (digits : ℕ) (place : ℤ) :
    (ofDecimal negative digits place).magnitude = (ofDecimal false digits place).magnitude := by
  rw [ofDecimal_eq_ofMagnitude]
  exact magnitude_ofMagnitude negative (Nat.mod_lt _ (by decide))

theorem exists_rounding_decimal {digits : ℕ} (filled : digits ≠ 0) (place : ℤ) :
    ∃ exponent mantissa, Rounding (digits * 10 ^ place) exponent mantissa ∧
      magnitudeOfFraction (digits * Nat.pow 10 place.toNat) (Nat.pow 10 (-place).toNat) =
        min infinityBits (encode exponent mantissa) := by
  have power (exponent : ℕ) : Nat.pow 10 exponent ≠ 0 := pow_ne_zero exponent (by decide)
  have rounded := exists_rounding (Nat.mul_ne_zero filled (power place.toNat)) (power (-place).toNat)
  rwa [decimal_eq_quotient] at rounded

/-- What a decimal fraction is read as depends on its value alone. -/
theorem ofDecimal_congr {digits digits' : ℕ} {place place' : ℤ} (filled : digits ≠ 0)
    (filled' : digits' ≠ 0) (same : (digits * 10 ^ place : ℚ) = digits' * 10 ^ place')
    (negative : Bool) : ofDecimal negative digits place = ofDecimal negative digits' place' := by
  obtain ⟨exponent, mantissa, rounding, bits⟩ := exists_rounding_decimal filled place
  obtain ⟨exponent', mantissa', rounding', bits'⟩ := exists_rounding_decimal filled' place'
  rw [same] at rounding
  obtain ⟨rfl, rfl⟩ := rounding.unique rounding'
  rw [ofDecimal_eq negative filled, ofDecimal_eq negative filled', bits, bits',
    pointOf_congr filled filled' same]

theorem two_zpow_lt : (2 : ℚ) ^ (1075 : ℤ) < 10 ^ (324 : ℤ) := by
  have powers : 2 ^ 1075 < 10 ^ 324 := by decide +kernel
  exact_mod_cast powers

/-- The bounds of a decimal fraction that is rounded to a number. -/
theorem pointOf_of_rounding {digits : ℕ} {place exponent : ℤ} {mantissa : ℕ} (filled : digits ≠ 0)
    (rounding : Rounding (digits * 10 ^ place) exponent mantissa) (positive : mantissa ≠ 0)
    (finite : encode exponent mantissa < infinityBits) :
    -324 < pointOf digits place ∧ pointOf digits place - 1 < 324 := by
  obtain ⟨least, most⟩ := decimal_within filled place
  have greatest : exponent ≤ 972 := by
    unfold encode implicitBit infinityBits at finite
    omega
  have one : (1 : ℚ) ≤ mantissa := by exact_mod_cast Nat.one_le_iff_ne_zero.mpr positive
  have power : (0 : ℚ) < 2 ^ exponent := zpow_pos (by norm_num) exponent
  have above : (10 : ℚ) ^ (-324 : ℤ) < 10 ^ pointOf digits place := by
    have near := (abs_le.mp rounding.near).1
    calc (10 : ℚ) ^ (-324 : ℤ) < 2 ^ (-1075 : ℤ) := by
          rw [zpow_neg, zpow_neg]
          exact inv_strictAnti₀ (zpow_pos (by norm_num) _) two_zpow_lt
      _ ≤ 2 ^ (exponent - 1) := by
          have := rounding.least
          exact zpow_le_zpow_right₀ (by norm_num) (by omega)
      _ = 2 ^ exponent / 2 := zpow_sub_one₀ (by norm_num) exponent
      _ ≤ digits * 10 ^ place := by nlinarith
      _ < 10 ^ pointOf digits place := most
  have below : (10 : ℚ) ^ (pointOf digits place - 1) < 10 ^ (324 : ℤ) := by
    calc (10 : ℚ) ^ (pointOf digits place - 1) ≤ digits * 10 ^ place := least
      _ < 2 ^ (exponent + 53) := rounding.below
      _ ≤ 2 ^ (1075 : ℤ) := zpow_le_zpow_right₀ (by norm_num) (by omega)
      _ < 10 ^ (324 : ℤ) := two_zpow_lt
  exact ⟨place_lt_of_zpow (by norm_num) above, place_lt_of_zpow (by norm_num) below⟩

theorem ofDecimal_of_rounding {digits : ℕ} {place exponent : ℤ} {mantissa : ℕ} (filled : digits ≠ 0)
    (rounding : Rounding (digits * 10 ^ place) exponent mantissa) (positive : mantissa ≠ 0)
    (finite : encode exponent mantissa < infinityBits) (negative : Bool) :
    ofDecimal negative digits place = ofMagnitude negative (encode exponent mantissa) := by
  obtain ⟨least, most⟩ := pointOf_of_rounding filled rounding positive finite
  obtain ⟨exponent', mantissa', rounding', bits⟩ := exists_rounding_decimal filled place
  obtain ⟨rfl, rfl⟩ := rounding.unique rounding'
  rw [ofDecimal_eq negative filled, if_neg (by omega), if_neg (by omega), bits,
    min_eq_right finite.le]

theorem pointOf_of_filled {digits : ℕ} {place : ℤ} {negative : Bool} (filled : digits ≠ 0)
    (positive : (ofDecimal negative digits place).magnitude ≠ 0) : -400 ≤ pointOf digits place := by
  by_contra small
  rw [ofDecimal_eq negative filled, if_pos (Int.not_le.mp small)] at positive
  exact positive (magnitude_ofMagnitude negative (by decide))

theorem exists_rounding_of_finite {digits : ℕ} {place : ℤ} {negative : Bool} (filled : digits ≠ 0)
    (least : -400 ≤ pointOf digits place)
    (finite : (ofDecimal negative digits place).magnitude < infinityBits) :
    ∃ exponent mantissa, Rounding (digits * 10 ^ place) exponent mantissa ∧
      (ofDecimal negative digits place).magnitude = encode exponent mantissa := by
  obtain ⟨exponent, mantissa, rounding, bits⟩ := exists_rounding_decimal filled place
  refine ⟨exponent, mantissa, rounding, ?_⟩
  rw [ofDecimal_eq negative filled, if_neg (Int.not_lt.mpr least), bits] at finite ⊢
  split at finite
  · exact absurd (magnitude_ofMagnitude negative (by decide)) finite.ne
  · rename_i most
    have bound : min infinityBits (encode exponent mantissa) < signBit :=
      (min_le_left ..).trans_lt (by decide)
    rw [if_neg most]
    rw [magnitude_ofMagnitude negative bound] at finite ⊢
    exact min_eq_right ((min_lt_iff.mp finite).resolve_left (lt_irrefl _)).le

/-- The bounds of a decimal fraction that is read as a finite number other than zero. -/
theorem pointOf_within {digits : ℕ} {place : ℤ} {negative : Bool} (filled : digits ≠ 0)
    (positive : (ofDecimal negative digits place).magnitude ≠ 0)
    (finite : (ofDecimal negative digits place).magnitude < infinityBits) :
    -324 < pointOf digits place ∧ pointOf digits place - 1 < 324 := by
  obtain ⟨exponent, mantissa, rounding, bits⟩ :=
    exists_rounding_of_finite filled (pointOf_of_filled filled positive) finite
  rw [bits] at positive finite
  exact pointOf_of_rounding filled rounding (rounding.isScaled.filled positive) finite

/-- A fraction that is close enough to a number is rounded to it. Below a power of two the numbers
lie closer, and the fraction may round up to one. -/
theorem exists_rounding_of_near {fraction : ℚ} {exponent : ℤ} {mantissa : ℕ}
    (isScaled : IsScaled exponent mantissa) (small : mantissa < 2 * implicitBit)
    (near : |fraction - mantissa * 2 ^ exponent| < mantissa * 2 ^ exponent / 2 ^ 54) :
    ∃ exponent' mantissa', Rounding fraction exponent' mantissa' ∧ mantissa' ≠ 0 ∧
      encode exponent' mantissa' = encode exponent mantissa := by
  have power : (0 : ℚ) < 2 ^ exponent := zpow_pos (by norm_num) exponent
  obtain ⟨unit, rfl⟩ : ∃ unit, fraction = unit * 2 ^ exponent :=
    ⟨fraction / 2 ^ exponent, by field_simp⟩
  have small' : (mantissa : ℚ) + 1 ≤ 2 ^ 53 := by
    have := Nat.succ_le_of_lt small
    unfold implicitBit at this
    exact_mod_cast this
  have close : |unit - mantissa| < mantissa / 2 ^ 54 := by
    rw [← sub_mul, abs_mul, abs_of_pos power, mul_div_right_comm] at near
    exact lt_of_mul_lt_mul_right near power.le
  have half : |unit - mantissa| < 1 / 2 := by linarith
  have positive : mantissa ≠ 0 := by
    rintro rfl
    exact absurd close (by simp)
  have shift (distance : ℤ) : (2 : ℚ) ^ (exponent + distance) = 2 ^ distance * 2 ^ exponent := by
    rw [add_comm, zpow_add₀ (by norm_num)]
  obtain ⟨above, below⟩ := abs_lt.mp half
  by_cases inside : exponent = -1074 ∨ 2 ^ 52 ≤ unit
  · refine ⟨exponent, mantissa, ⟨isScaled.least, ?_, inside.imp_right fun leading => ?_, ?_⟩, positive, rfl⟩
    · rw [shift]
      exact mul_lt_mul_of_pos_right (by norm_num; linarith) power
    · rw [shift]
      exact mul_le_mul_of_nonneg_right (by norm_num; linarith) power.le
    · rw [mul_div_cancel_right₀ _ power.ne']
      exact nearest_of_lt half
  · obtain ⟨greater, less⟩ := not_or.mp inside
    have leading := isScaled.leading.resolve_left greater
    obtain rfl : mantissa = implicitBit := by
      refine le_antisymm (Nat.lt_succ_iff.mp ?_) leading
      have bound : (mantissa : ℚ) < implicitBit + 1 := by
        rw [cast_implicitBit]
        linarith
      exact_mod_cast bound
    rw [cast_implicitBit] at close above
    obtain ⟨above, below⟩ := abs_lt.mp close
    have least := isScaled.least
    refine ⟨exponent - 1, 2 * implicitBit, ⟨by omega, ?_, .inr ?_, nearest_of_lt (abs_lt.mpr ?_)⟩,
      by decide, ?_⟩
    · rw [show exponent - 1 + 53 = exponent + 52 by ring, shift]
      exact mul_lt_mul_of_pos_right (by norm_num; linarith) power
    · rw [show exponent - 1 + 52 = exponent + 51 by ring, shift]
      exact mul_le_mul_of_nonneg_right (by norm_num; linarith) power.le
    · have twice : unit * 2 ^ exponent / 2 ^ (exponent - 1) = 2 * unit := by
        rw [zpow_sub_one₀ (by norm_num)]
        field_simp
      push_cast [cast_implicitBit]
      rw [twice]
      constructor <;> linarith
    · unfold encode implicitBit
      omega

/-- A decimal fraction that is close enough to a number is read as it. -/
theorem ofDecimal_of_near {x : Binary64} {digits : ℕ} {place : ℤ} (finite : x.magnitude < infinityBits)
    (near : |digits * 10 ^ place - x.toRat| < x.toRat / 2 ^ 54) (negative : Bool) :
    ofDecimal negative digits place = ofMagnitude negative x.magnitude := by
  obtain ⟨exponent, mantissa, isScaled, small, bits⟩ := exists_isScaled x
  have filled : digits ≠ 0 := by
    rintro rfl
    rw [Nat.cast_zero, zero_mul, zero_sub, abs_neg] at near
    have := abs_lt.mp near
    linarith
  rw [toRat_of_magnitude isScaled bits] at near
  obtain ⟨exponent', mantissa', rounding, positive, same⟩ := exists_rounding_of_near isScaled small near
  rw [bits, ← same] at finite ⊢
  exact ofDecimal_of_rounding filled rounding positive finite negative

/-- A decimal fraction differs little from the number that it is read as. -/
theorem near_of_ofDecimal {digits : ℕ} {place : ℤ} {negative : Bool} (filled : digits ≠ 0)
    (normal : implicitBit ≤ (ofDecimal negative digits place).magnitude)
    (finite : (ofDecimal negative digits place).magnitude < infinityBits) :
    |digits * 10 ^ place - (ofDecimal negative digits place).toRat| ≤
      (ofDecimal negative digits place).toRat / 2 ^ 53 := by
  have positive : (ofDecimal negative digits place).magnitude ≠ 0 :=
    ((by decide : 0 < implicitBit).trans_le normal).ne'
  obtain ⟨exponent, mantissa, rounding, bits⟩ :=
    exists_rounding_of_finite filled (pointOf_of_filled filled positive) finite
  have leading : implicitBit ≤ mantissa := by
    rcases rounding.isScaled.leading with rfl | leading
    · simpa [bits, encode] using normal
    · exact leading
  have leading' : (2 : ℚ) ^ 52 ≤ mantissa := by
    rw [← cast_implicitBit]
    exact_mod_cast leading
  have power : (0 : ℚ) < 2 ^ exponent := zpow_pos (by norm_num) exponent
  rw [toRat_of_magnitude rounding.isScaled bits]
  refine rounding.near.trans ?_
  rw [div_le_div_iff₀ (by norm_num) (by norm_num)]
  nlinarith

theorem zpow_le_two_zpow : (2 : ℚ) ^ (-1022 : ℤ) ≤ 10 ^ (-307 : ℤ) := by
  have powers : 10 ^ 307 ≤ 2 ^ 1022 := by decide +kernel
  rw [zpow_neg, zpow_neg]
  exact inv_anti₀ (by positivity) (by exact_mod_cast powers)

/-- A decimal fraction that is not too small is read as a number with its leading bit. -/
theorem normal_of_pointOf {digits : ℕ} {place : ℤ} {negative : Bool} (filled : digits ≠ 0)
    (least : -306 ≤ pointOf digits place)
    (finite : (ofDecimal negative digits place).magnitude < infinityBits) :
    implicitBit ≤ (ofDecimal negative digits place).magnitude := by
  obtain ⟨exponent, mantissa, rounding, bits⟩ := exists_rounding_of_finite filled (by omega) finite
  have leading : implicitBit ≤ mantissa := by
    refine rounding.isScaled.leading.elim (fun lowest => rounding.leading ?_) id
    calc (2 : ℚ) ^ (exponent + 52) = 2 ^ (-1022 : ℤ) := by rw [lowest]; rfl
      _ ≤ 10 ^ (-307 : ℤ) := zpow_le_two_zpow
      _ ≤ 10 ^ (pointOf digits place - 1) := zpow_le_zpow_right₀ (by norm_num) (by omega)
      _ ≤ digits * 10 ^ place := (decimal_within filled place).1
  rw [bits, encode]
  exact leading.trans (Nat.le_add_left ..)

end TabSpec.Binary64

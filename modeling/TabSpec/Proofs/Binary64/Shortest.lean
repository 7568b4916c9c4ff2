import Mathlib
import TabSpec.Proofs.Binary64.Rounding

/-! The shortest decimal fraction of a number. The search for it comes to an end with seventeen digits at
the latest, and finds a fraction again that has fifteen digits at most. -/
namespace TabSpec.Binary64

/-! ### Decimal places of a fraction -/

theorem leadingPlace_eq (numerator denominator : ℕ) :
    leadingPlace numerator denominator =
      let place : ℤ :=
        (Nat.toDigits 10 numerator).length - (Nat.toDigits 10 denominator).length
      let parts := scaledBy 10 numerator denominator place
      if parts.2 ≤ parts.1 then place else place - 1 := rfl

/-- The leading digit of a fraction stands at its leading place. -/
theorem leadingPlace_within {numerator denominator : ℕ} (filled : numerator ≠ 0)
    (filled' : denominator ≠ 0) :
    (10 : ℚ) ^ leadingPlace numerator denominator ≤ numerator / denominator ∧
      (numerator / denominator : ℚ) < 10 ^ (leadingPlace numerator denominator + 1) := by
  obtain ⟨least, most⟩ := number_within filled
  obtain ⟨least', most'⟩ := number_within filled'
  rw [← sub_add_cancel ((Nat.toDigits 10 numerator).length : ℤ) 1] at most
  rw [← sub_add_cancel ((Nat.toDigits 10 denominator).length : ℤ) 1] at most'
  obtain ⟨lower, upper⟩ := quotient_within (by norm_num) least most least' most'
  rw [sub_sub_sub_cancel_right] at lower upper
  rw [leadingPlace_eq]
  dsimp only
  generalize ((Nat.toDigits 10 numerator).length : ℤ) - (Nat.toDigits 10 denominator).length = place
    at lower upper ⊢
  have compare := scaledBy_div_lt_iff numerator (by decide : 0 < 10) place
    (Nat.pos_of_ne_zero filled') 1
  have positive := pos_scaledBy numerator (by decide : 0 < 10) place (Nat.pos_of_ne_zero filled')
  rw [Nat.div_lt_iff_lt_mul positive, Nat.one_mul, Nat.cast_one, one_mul, Nat.cast_ofNat] at compare
  split
  · rename_i large
    exact ⟨not_lt.mp (mt compare.mpr (Nat.not_lt.mpr large)), upper⟩
  · rename_i small
    rw [sub_add_cancel]
    exact ⟨lower.le, compare.mp (Nat.not_le.mp small)⟩

/-! ### Neighbours on the grid of a place -/

/-- One of the two multiples of a decimal place between which a fraction lies. -/
def Neighbour (fraction : ℚ) (place : ℤ) (digits : ℕ) : Prop :=
  digits = ⌊fraction / 10 ^ place⌋₊ ∨ digits = ⌊fraction / 10 ^ place⌋₊ + 1

section

variable {fraction : ℚ} {place : ℤ} {digits : ℕ}

/-- What differs from a fraction by less than the place is a neighbour. -/
theorem neighbour_of_near (near : |digits * 10 ^ place - fraction| < 10 ^ place) :
    Neighbour fraction place digits := by
  have power : (0 : ℚ) < 10 ^ place := zpow_pos (by norm_num) place
  obtain ⟨unit, rfl⟩ : ∃ unit, fraction = unit * 10 ^ place := ⟨fraction / 10 ^ place, by field_simp⟩
  have close : |digits - unit| < 1 := by
    rw [← sub_mul, abs_mul, abs_of_pos power] at near
    exact lt_of_mul_lt_mul_right (by rwa [one_mul]) power.le
  obtain ⟨above, below⟩ := abs_lt.mp close
  rw [Neighbour, mul_div_cancel_right₀ _ power.ne']
  rcases le_or_gt (digits : ℚ) unit with inside | outside
  · refine .inl (Eq.symm ((Nat.floor_eq_iff ((Nat.cast_nonneg digits).trans inside)).mpr ⟨inside, ?_⟩))
    linarith
  · cases digits with
    | zero => exact .inl (Nat.floor_of_nonpos (by simpa using outside.le)).symm
    | succ fewer =>
      push_cast at above below outside
      refine .inr (congrArg (· + 1) (Eq.symm ((Nat.floor_eq_iff ?_).mpr ⟨?_, outside⟩)))
      · have : (0 : ℚ) ≤ fewer := Nat.cast_nonneg fewer
        linarith
      · linarith

/-- A multiple of ten is a neighbour at the place in front, too. -/
theorem Neighbour.tenth (neighbour : Neighbour fraction place (10 * digits)) (filled : digits ≠ 0) :
    Neighbour fraction (place + 1) digits := by
  have tenth : ⌊fraction / 10 ^ (place + 1)⌋₊ = ⌊fraction / 10 ^ place⌋₊ / 10 := by
    rw [zpow_add_one₀ (by norm_num), ← div_div]
    exact Nat.floor_div_ofNat ..
  rw [Neighbour, tenth]
  unfold Neighbour at neighbour
  omega

theorem Neighbour.filled (neighbour : Neighbour fraction place digits) (large : 10 ^ place ≤ fraction) :
    digits ≠ 0 := by
  have power : (0 : ℚ) < 10 ^ place := zpow_pos (by norm_num) place
  have one : 1 ≤ ⌊fraction / 10 ^ place⌋₊ := Nat.le_floor (by rwa [Nat.cast_one, one_le_div power])
  unfold Neighbour at neighbour
  omega

theorem Neighbour.le {bound : ℕ} (neighbour : Neighbour fraction place digits) (positive : bound ≠ 0)
    (small : fraction < bound * 10 ^ place) : digits ≤ bound := by
  have power : (0 : ℚ) < 10 ^ place := zpow_pos (by norm_num) place
  have below : ⌊fraction / 10 ^ place⌋₊ < bound :=
    (Nat.floor_lt' positive).mpr ((div_lt_iff₀ power).mpr small)
  unfold Neighbour at neighbour
  omega

end

/-! ### The search -/

/-- The digits at a place read back as the number. -/
def ReadsBack (x : Binary64) (digits : ℕ) (place : ℤ) : Prop :=
  (ofDecimal false digits place).magnitude = x.magnitude

theorem ReadsBack.congr {x : Binary64} {digits digits' : ℕ} {place place' : ℤ}
    (reads : x.ReadsBack digits place) (filled : digits ≠ 0) (filled' : digits' ≠ 0)
    (same : (digits * 10 ^ place : ℚ) = digits' * 10 ^ place') : x.ReadsBack digits' place' := by
  rw [ReadsBack, ← ofDecimal_congr filled filled' same]
  exact reads

/-- One of the numbers that may be tried at a place: the neighbours, or the nearer one of them. -/
theorem onGrid_eq (x : Binary64) (numerator denominator : ℕ) (place : ℤ) :
    x.onGrid numerator denominator place =
      let parts := scaledBy 10 numerator denominator place
      let below := parts.1 / parts.2
      if (ofDecimal false below place).magnitude = x.magnitude then
        if (ofDecimal false (below + 1) place).magnitude = x.magnitude then
          some (roundQuotient parts.1 parts.2, place)
        else some (below, place)
      else if (ofDecimal false (below + 1) place).magnitude = x.magnitude then some (below + 1, place)
      else none := by
  unfold onGrid scaledBy
  dsimp only
  split <;> simp_all

theorem floor_eq (numerator denominator : ℕ) (place : ℤ) :
    ⌊(numerator / denominator / 10 ^ place : ℚ)⌋₊ =
      (scaledBy 10 numerator denominator place).1 / (scaledBy 10 numerator denominator place).2 := by
  have quotient := scaledBy_eq numerator place 10 denominator
  rw [Nat.cast_ofNat] at quotient
  rw [← quotient, Nat.floor_div_eq_div]

theorem roundQuotient_cases (numerator denominator : ℕ) :
    roundQuotient numerator denominator = numerator / denominator ∨
      roundQuotient numerator denominator = numerator / denominator + 1 := by
  unfold roundQuotient
  dsimp only
  split
  · exact .inr rfl
  · exact .inl rfl

theorem of_onGrid {x : Binary64} {numerator denominator : ℕ} {place place' : ℤ} {digits : ℕ}
    (found : x.onGrid numerator denominator place = some (digits, place')) :
    place' = place ∧ Neighbour (numerator / denominator) place digits ∧ x.ReadsBack digits place := by
  rw [onGrid_eq] at found
  dsimp only at found
  rw [Neighbour, floor_eq, ReadsBack]
  split at found <;> rename_i below <;> split at found <;> rename_i above
  · cases found
    rcases roundQuotient_cases (scaledBy 10 numerator denominator place).1
      (scaledBy 10 numerator denominator place).2 with same | same
    · exact ⟨rfl, .inl same, by rw [same]; exact below⟩
    · exact ⟨rfl, .inr same, by rw [same]; exact above⟩
  · cases found
    exact ⟨rfl, .inl rfl, below⟩
  · cases found
    exact ⟨rfl, .inr rfl, above⟩
  · cases found

theorem onGrid_ne_none {x : Binary64} {numerator denominator : ℕ} {place : ℤ} {digits : ℕ}
    (neighbour : Neighbour (numerator / denominator) place digits) (reads : x.ReadsBack digits place) :
    x.onGrid numerator denominator place ≠ none := by
  rw [Neighbour, floor_eq] at neighbour
  rw [ReadsBack] at reads
  rw [onGrid_eq]
  dsimp only
  intro missing
  split at missing <;> rename_i below <;> split at missing <;> rename_i above <;> try cases missing
  rcases neighbour with rfl | rfl
  · exact below reads
  · exact above reads

/-- The first of some places at which something is found. -/
theorem findSome?_range {Found : Type} {search : ℕ → Option Found} {count first : ℕ} {found : Found}
    (small : first < count) (here : search first = some found)
    (before : ∀ nearer < first, search nearer = none) :
    (List.range count).findSome? search = some found := by
  obtain ⟨rest, rfl⟩ := Nat.exists_eq_add_of_lt small
  rw [Nat.add_assoc, List.range_add, List.findSome?_append, List.range_succ_eq_map]
  have none : (List.range first).findSome? search = none :=
    List.findSome?_eq_none_iff.mpr fun nearer member => before nearer (List.mem_range.mp member)
  rw [none, Option.none_or, List.map_cons, List.findSome?_cons, Nat.add_zero, here]

variable {x : Binary64}

/-- A number as a fraction of two integers. -/
def parts (x : Binary64) : ℕ × ℕ := scaled x.decode.1 1 (-x.decode.2)

/-- The place of the leading digit. -/
def lead (x : Binary64) : ℤ := leadingPlace x.parts.1 x.parts.2

/-- What is found of a number so many places behind its leading digit. -/
def found? (x : Binary64) (behind : ℕ) : Option (ℕ × ℤ) :=
  x.onGrid x.parts.1 x.parts.2 (x.lead - behind)

theorem parts_eq (x : Binary64) : (x.parts.1 / x.parts.2 : ℚ) = x.toRat := by
  have quotient := scaledBy_eq x.decode.1 (-x.decode.2) 2 1
  rw [Nat.cast_one, div_one, zpow_neg, div_inv_eq_mul, Nat.cast_ofNat] at quotient
  exact quotient

theorem lead_within (positive : 0 < x.toRat) :
    10 ^ x.lead ≤ x.toRat ∧ x.toRat < 10 ^ (x.lead + 1) := by
  rw [← parts_eq] at positive ⊢
  have filled : x.parts.1 ≠ 0 := by
    intro zero
    simp [zero] at positive
  have filled' : x.parts.2 ≠ 0 := by
    intro zero
    simp [zero] at positive
  exact leadingPlace_within filled filled'

/-- What is found first is the shortest fraction, unless it ends in a zero. -/
theorem shortest_of_first (positive : 0 < x.toRat) {behind digits : ℕ} {place : ℤ} (few : behind < 17)
    (found : x.found? behind = some (digits, place))
    (first : ∀ nearer < behind, x.found? nearer = none) :
    x.shortest = if digits % 10 = 0 ∧ digits ≠ 0 then
        (1, place + ((Nat.toDigits 10 digits).length - 1 : ℕ))
      else (digits, place) := by
  have filled : x.decode.1 ≠ 0 := by
    intro zero
    simp [toRat, zero] at positive
  have searched : (List.range 17).findSome? x.found? = some (digits, place) :=
    findSome?_range few found first
  unfold found? lead parts at searched
  simp only [shortest, filled, if_false, searched]

/-- Seventeen digits are enough for every number. -/
theorem exists_neighbour (finite : x.magnitude < infinityBits) (positive : 0 < x.toRat) :
    ∃ digits, Neighbour x.toRat (x.lead - 16) digits ∧ x.ReadsBack digits (x.lead - 16) := by
  have power : (0 : ℚ) < 10 ^ (x.lead - 16) := zpow_pos (by norm_num) _
  have large : 10 ^ (x.lead - 16) * 10 ^ 16 ≤ x.toRat := by
    refine le_of_eq_of_le ?_ (lead_within positive).1
    rw [← zpow_natCast, ← zpow_add₀ (by norm_num)]
    norm_num
  obtain ⟨unit, same⟩ : ∃ unit, x.toRat = unit * 10 ^ (x.lead - 16) :=
    ⟨x.toRat / 10 ^ (x.lead - 16), by field_simp⟩
  have above : 0 ≤ unit + 1 / 2 := by
    have : 0 < unit := (mul_pos_iff_of_pos_right power).mp (same ▸ positive)
    linarith
  have least := Nat.floor_le above
  have most := Nat.lt_floor_add_one (unit + 1 / 2)
  generalize ⌊unit + 1 / 2⌋₊ = digits at least most
  have near : |digits * 10 ^ (x.lead - 16) - x.toRat| ≤ 10 ^ (x.lead - 16) / 2 := by
    have close : |digits - unit| ≤ 1 / 2 := abs_le.mpr ⟨by linarith, by linarith⟩
    rw [same, ← sub_mul, abs_mul, abs_of_pos power]
    nlinarith
  refine ⟨digits, neighbour_of_near (near.trans_lt (half_lt_self power)), ?_⟩
  have closer : |digits * 10 ^ (x.lead - 16) - x.toRat| < x.toRat / 2 ^ 54 := by
    refine near.trans_lt ?_
    rw [lt_div_iff₀ (by norm_num)]
    linarith
  rw [ReadsBack, ofDecimal_of_near finite closer false,
    magnitude_ofMagnitude false (finite.trans (by decide))]

/-- The shortest fraction of a number: digits without a zero at their end, at their decimal place. -/
structure Shortest (x : Binary64) (digits : ℕ) (place : ℤ) : Prop where
  trimmed : digits % 10 ≠ 0
  few : digits < 10 ^ 17
  readsBack : x.ReadsBack digits place
  /-- Nothing reads back at a place in front. -/
  first : ∀ other further, x.lead - 16 ≤ other → other ≤ x.lead → Neighbour x.toRat other further →
    x.ReadsBack further other → other ≤ place

theorem found?_ne_none {behind digits : ℕ} (neighbour : Neighbour x.toRat (x.lead - behind) digits)
    (reads : x.ReadsBack digits (x.lead - behind)) : x.found? behind ≠ none := by
  rw [← parts_eq] at neighbour
  exact onGrid_ne_none neighbour reads

theorem of_found? {behind digits : ℕ} {place : ℤ} (found : x.found? behind = some (digits, place)) :
    place = x.lead - behind ∧ Neighbour x.toRat place digits ∧ x.ReadsBack digits place := by
  obtain ⟨rfl, neighbour, reads⟩ := of_onGrid found
  rw [parts_eq] at neighbour
  exact ⟨rfl, neighbour, reads⟩

/-- The search finds something, and there is nothing in front of what it finds. -/
theorem exists_first (finite : x.magnitude < infinityBits) (positive : 0 < x.toRat) :
    ∃ behind digits, behind < 17 ∧ x.found? behind = some (digits, x.lead - behind) ∧
      ∀ nearer < behind, x.found? nearer = none := by
  obtain ⟨digits, neighbour, reads⟩ := exists_neighbour finite positive
  have last : x.found? 16 ≠ none := found?_ne_none neighbour reads
  have some : ∃ behind, x.found? behind ≠ none := ⟨16, last⟩
  classical
  obtain ⟨⟨digits, place⟩, found⟩ := Option.ne_none_iff_exists'.mp (Nat.find_spec some)
  obtain ⟨rfl, -, -⟩ := of_found? found
  exact ⟨_, digits, Nat.lt_succ_iff.mpr (Nat.find_min' some last), found,
    fun nearer less => not_not.mp (Nat.find_min some less)⟩

theorem exists_shortest (finite : x.magnitude < infinityBits) (positive : 0 < x.toRat) :
    ∃ digits place, x.shortest = (digits, place) ∧ x.Shortest digits place := by
  obtain ⟨behind, digits, few, found, first⟩ := exists_first finite positive
  obtain ⟨-, neighbour, reads⟩ := of_found? found
  obtain ⟨least, most⟩ := lead_within positive
  have shortest := shortest_of_first positive few found first
  have filled : digits ≠ 0 :=
    neighbour.filled ((zpow_le_zpow_right₀ (by norm_num) (by omega)).trans least)
  have bound : digits ≤ 10 ^ (behind + 1) := by
    refine neighbour.le (by positivity) (most.trans_eq ?_)
    rw [Nat.cast_pow, Nat.cast_ofNat, ← zpow_natCast, ← zpow_add₀ (by norm_num)]
    congr 1
    push_cast
    ring
  have nearest (other : ℤ) (further : ℕ) (inside : x.lead - 16 ≤ other) (here : other ≤ x.lead)
      (beside : Neighbour x.toRat other further) (back : x.ReadsBack further other) :
      other ≤ x.lead - behind := by
    obtain ⟨distance, rfl⟩ : ∃ distance : ℕ, other = x.lead - distance :=
      ⟨(x.lead - other).toNat, by omega⟩
    have present := found?_ne_none beside back
    have := Nat.not_lt.mp fun less => present (first distance less)
    omega
  by_cases ten : digits % 10 = 0
  · obtain ⟨tenth, rfl⟩ := Nat.dvd_of_mod_eq_zero ten
    have filled' : tenth ≠ 0 := by omega
    have back : x.ReadsBack tenth (x.lead - behind + 1) := by
      refine reads.congr filled filled' ?_
      rw [zpow_add_one₀ (by norm_num)]
      push_cast
      ring
    cases behind with
    | zero =>
      -- A ten at the leading place is a one in front of it.
      obtain rfl : tenth = 1 := by omega
      rw [if_pos ⟨ten, filled⟩] at shortest
      refine ⟨1, _, shortest, by decide, by decide, back, fun other further inside here beside same => ?_⟩
      exact (nearest other further inside here beside same).trans (by simp)
    | succ nearer =>
      have place : x.lead - (nearer + 1 : ℕ) + 1 = x.lead - nearer := by
        push_cast
        ring
      have beside := neighbour.tenth filled'
      rw [place] at beside back
      exact absurd (first nearer (Nat.lt_succ_self nearer)) (found?_ne_none beside back)
  · rw [if_neg fun both => ten both.1] at shortest
    refine ⟨digits, _, shortest, ten, ?_, reads, nearest⟩
    have fewer : digits < 10 ^ (behind + 1) := by
      refine lt_of_le_of_ne bound ?_
      rintro rfl
      exact ten (by rw [Nat.pow_succ, Nat.mul_mod_left])
    exact fewer.trans_le (Nat.pow_le_pow_right (by decide) few)

/-! ### Few digits -/

theorem ReadsBack.near {digits : ℕ} {place : ℤ} (reads : x.ReadsBack digits place) (filled : digits ≠ 0)
    (normal : implicitBit ≤ x.magnitude) (finite : x.magnitude < infinityBits) :
    |digits * 10 ^ place - x.toRat| ≤ x.toRat / 2 ^ 53 := by
  rw [← toRat_congr reads]
  rw [← reads] at normal finite
  exact near_of_ofDecimal filled normal finite

/-- A decimal fraction at an earlier place. -/
theorem exists_multiple {digits : ℕ} {place least : ℤ} (filled : digits ≠ 0) (le : least ≤ place) :
    ∃ multiple : ℕ, multiple ≠ 0 ∧ (multiple * 10 ^ least : ℚ) = digits * 10 ^ place := by
  obtain ⟨distance, rfl⟩ := Int.le.dest le
  refine ⟨digits * 10 ^ distance, by positivity, ?_⟩
  rw [zpow_add₀ (by norm_num), zpow_natCast]
  push_cast
  ring

theorem cancel_place {digits digits' : ℕ} {place : ℤ}
    (same : (digits * 10 ^ place : ℚ) = digits' * 10 ^ place) : digits = digits' := by
  have power : (10 : ℚ) ^ place ≠ 0 := zpow_ne_zero place (by norm_num)
  exact_mod_cast mul_right_cancel₀ power same

theorem place_le_of_trimmed {digits digits' : ℕ} {place place' : ℤ} (trimmed : digits % 10 ≠ 0)
    (same : (digits * 10 ^ place : ℚ) = digits' * 10 ^ place') : place' ≤ place := by
  by_contra less
  obtain ⟨distance, rfl⟩ := Int.le.dest (Int.not_le.mp less)
  have tens : (digits * 10 ^ place : ℚ) = (digits' * 10 ^ distance * 10 : ℕ) * 10 ^ place := by
    rw [same, zpow_add₀ (by norm_num), zpow_add_one₀ (by norm_num), zpow_natCast]
    push_cast
    ring
  rw [cancel_place tens, Nat.mul_mod_left] at trimmed
  exact trimmed rfl

/-- Without zeros at its end, a decimal fraction is determined by its value. -/
theorem eq_of_trimmed {digits digits' : ℕ} {place place' : ℤ} (trimmed : digits % 10 ≠ 0)
    (trimmed' : digits' % 10 ≠ 0) (same : (digits * 10 ^ place : ℚ) = digits' * 10 ^ place') :
    digits = digits' ∧ place = place' := by
  obtain rfl := le_antisymm (place_le_of_trimmed trimmed' same.symm) (place_le_of_trimmed trimmed same)
  exact ⟨cancel_place same, rfl⟩

/-- A fraction of fifteen digits at most is the shortest one of the number that it is read as. -/
theorem shortest_of_readsBack {digits : ℕ} {place : ℤ} (trimmed : digits % 10 ≠ 0)
    (few : digits < 10 ^ 15) (reads : x.ReadsBack digits place) (normal : implicitBit ≤ x.magnitude)
    (finite : x.magnitude < infinityBits) : x.shortest = (digits, place) := by
  have filled : digits ≠ 0 := by
    rintro rfl
    exact trimmed rfl
  have positive : 0 < x.toRat := toRat_pos ((by decide : 0 < implicitBit).trans_le normal).ne'
  obtain ⟨digits', place', shortest, isShortest⟩ := exists_shortest finite positive
  have filled' : digits' ≠ 0 := by
    rintro rfl
    exact isShortest.trimmed rfl
  obtain ⟨least, most⟩ := lead_within positive
  have near := reads.near filled normal finite
  have near' := isShortest.readsBack.near filled' normal finite
  have within : x.lead ≤ place + 14 := by
    by_contra beyond
    have power : (0 : ℚ) < 10 ^ place := zpow_pos (by norm_num) place
    have large : 10 ^ 15 * 10 ^ place ≤ x.toRat := by
      refine le_trans ?_ least
      rw [← zpow_natCast, ← zpow_add₀ (by norm_num)]
      exact zpow_le_zpow_right₀ (by norm_num) (by push_cast; omega)
    have few' : (digits : ℚ) + 1 ≤ 10 ^ 15 := by exact_mod_cast few
    have := (abs_le.mp near).1
    nlinarith
  -- Both fractions are multiples of one place, and nearer to each other than that place.
  obtain ⟨grid, here⟩ : ∃ grid, grid = min place x.lead := ⟨_, rfl⟩
  have power : (0 : ℚ) < 10 ^ grid := zpow_pos (by norm_num) grid
  have fine : x.toRat < 10 ^ 15 * 10 ^ grid := by
    refine most.trans_le ?_
    rw [← zpow_natCast, ← zpow_add₀ (by norm_num)]
    exact zpow_le_zpow_right₀ (by norm_num) (by push_cast; omega)
  obtain ⟨multiple, more, same⟩ := exists_multiple filled (here.trans_le (min_le_left ..))
  have beside : Neighbour x.toRat grid multiple := by
    refine neighbour_of_near ?_
    rw [same]
    refine near.trans_lt ?_
    rw [div_lt_iff₀ (by norm_num)]
    linarith
  have first : grid ≤ place' := by
    refine isShortest.first grid multiple ?_ (here.trans_le (min_le_right ..)) beside
      (reads.congr filled more same.symm)
    omega
  obtain ⟨multiple', -, same'⟩ := exists_multiple filled' first
  have equal : multiple = multiple' := by
    rw [← same, abs_le] at near
    rw [← same', abs_le] at near'
    have above : ((multiple : ℚ) - multiple') * 10 ^ grid < 1 * 10 ^ grid := by linarith
    have below : ((multiple' : ℚ) - multiple) * 10 ^ grid < 1 * 10 ^ grid := by linarith
    have less : (multiple : ℚ) < multiple' + 1 := by linarith [lt_of_mul_lt_mul_right above power.le]
    have less' : (multiple' : ℚ) < multiple + 1 := by linarith [lt_of_mul_lt_mul_right below power.le]
    exact le_antisymm (Nat.lt_succ_iff.mp (by exact_mod_cast less))
      (Nat.lt_succ_iff.mp (by exact_mod_cast less'))
  obtain ⟨rfl, rfl⟩ := eq_of_trimmed trimmed isShortest.trimmed (by rw [← same, ← same', equal])
  exact shortest

end TabSpec.Binary64

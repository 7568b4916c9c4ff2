import TabSpec.Proofs.Text.Integer
import TabSpec.Yaml.Reading

/-! Plain scalars. An integer is written without padding, so it is read back as an integer wherever its
value lies within the bounds of a document; and a node made of plain scalars is read as their values. -/
namespace TabSpec.Yaml

open Text

/-! ### Digits without padding -/

/-- Only zero is written with a zero in front. -/
theorem eq_nil_of_toDigits {value : Nat} {rest : List Char}
    (padded : Nat.toDigits 10 value = '0' :: rest) : rest = [] := by
  induction value using Nat.strongRecOn generalizing rest with
  | ind value ih =>
    by_cases single : value < 10
    · rw [Nat.toDigits_of_lt_base single] at padded
      exact (List.cons.inj padded).2.symm
    · rw [Nat.toDigits_of_base_le (by decide) (Nat.not_lt.mp single)] at padded
      obtain ⟨c, front, leading⟩ :=
        List.exists_cons_of_ne_nil (Nat.toDigits_ne_nil (n := value / 10) (b := 10))
      rw [leading, List.cons_append] at padded
      obtain ⟨rfl, -⟩ := List.cons.inj padded
      obtain rfl := ih (value / 10) (by omega) leading
      -- The digits in front would write zero, but they write ten or more a tenth.
      have number : Nat.ofDigitChars 10 (Nat.toDigits 10 (value / 10)) 0 = value / 10 :=
        Nat.ofDigitChars_toDigits (by decide) (by decide)
      rw [leading] at number
      have zero : value / 10 = 0 := number.symm
      omega

/-- The digits of a number, with or without a minus sign, are not padded. -/
theorem isZeroPadded_toDigits (negative : Bool) (value : Nat) :
    isZeroPadded (sign negative ++ Nat.toDigits 10 value) = false := by
  obtain ⟨c, rest, whole, digit⟩ := exists_toDigits_eq_cons value
  have minus : c ≠ '-' := by
    rintro rfl
    cases digit
  have plus : c ≠ '+' := by
    rintro rfl
    cases digit
  rw [whole]
  by_cases zero : c = '0'
  · subst zero
    obtain rfl := eq_nil_of_toDigits whole
    cases negative <;> rfl
  · cases negative <;> simp [isZeroPadded, sign, minus, plus, zero]

/-- The digits of a number name no other base. -/
theorem radix?_toDigits (value : Nat) : radix? (Nat.toDigits 10 value) = none := by
  unfold radix?
  split <;> first | rfl | (rename_i written; cases eq_nil_of_toDigits written)

/-! ### Integers read back -/

/-- A number without a sign is read in decimal. -/
theorem unsignedOf?_toDigits (range : IntegerRange) (value : Nat) :
    unsignedOf? range (Nat.toDigits 10 value) =
      (readInteger range 10 (Nat.toDigits 10 value)).toOption := by
  obtain ⟨c, rest, whole, digit⟩ := exists_toDigits_eq_cons value
  have other : radix? (c :: rest) = none := whole ▸ radix?_toDigits value
  have unpadded : isZeroPadded (c :: rest) = false := whole ▸ isZeroPadded_toDigits false value
  have signless : (c == '+' || c == '-') = false := by
    rw [Bool.or_eq_false_iff, beq_eq_false_iff_ne, beq_eq_false_iff_ne]
    constructor <;> rintro rfl <;> cases digit
  rw [whole]
  unfold unsignedOf?
  split
  · rename_i written
    obtain ⟨rfl, -⟩ := List.cons.inj written
    cases digit
  · simp only [other, unpadded, Bool.or_false]
    exact if_neg (Bool.eq_false_iff.mp signless)

theorem unsignedOf?_minus (range : IntegerRange) (digits : List Char) :
    unsignedOf? range ('-' :: digits) = none := by
  rfl

theorem negativeOf?_minus (range : IntegerRange) (value : Nat) :
    negativeOf? range ('-' :: Nat.toDigits 10 value) =
      (readInteger range 10 ('-' :: Nat.toDigits 10 value)).toOption := by
  have unpadded : isZeroPadded ('-' :: Nat.toDigits 10 value) = false := isZeroPadded_toDigits true value
  simp only [negativeOf?, radix?_toDigits, unpadded]
  rfl

/-- No negative integer is read where none is expected. -/
theorem unsignedOf?_toString {value : Int} (greatest : value ≤ (IntegerRange.unsigned 64).greatest) :
    unsignedOf? (.unsigned 64) (toString value).toList = if 0 ≤ value then some value else none := by
  by_cases positive : 0 ≤ value
  · have written := toList_toString_of_nonneg positive
    have within : (IntegerRange.unsigned 64).contains value = true :=
      IntegerRange.contains_iff.mpr ⟨positive, greatest⟩
    have read := readInteger_toString (by decide) within
    rw [if_pos positive]
    rw [written] at read ⊢
    rw [unsignedOf?_toDigits, read]
    rfl
  · rw [toList_toString_of_neg (Int.not_le.mp positive), unsignedOf?_minus, if_neg positive]

/-- A document holds the integers from the least signed to the greatest unsigned one. -/
theorem integerOf?_toString {value : Int} (least : (IntegerRange.signed 64).least ≤ value)
    (greatest : value ≤ (IntegerRange.unsigned 64).greatest) :
    integerOf? (toString value).toList = some (some value) := by
  unfold integerOf?
  rw [unsignedOf?_toString greatest]
  by_cases positive : 0 ≤ value
  · rw [if_pos positive]
  · have written := toList_toString_of_neg (Int.not_le.mp positive)
    have within : (IntegerRange.signed 64).contains value = true := by
      have bound : (0 : Int) ≤ (IntegerRange.signed 64).greatest := by decide
      rw [IntegerRange.contains_iff]
      omega
    have read := readInteger_toString (by decide) within
    rw [if_neg positive]
    rw [written] at read ⊢
    rw [negativeOf?_minus, read]
    rfl

/-- An integer is written with a digit or a minus sign in front, so it is none of some other words. -/
theorem contains_toString {words : List String} (value : Int)
    (others : words.all (fun word => word.toList.head?.all fun c => c != '-' && !c.isDigit) = true) :
    words.contains (toString value) = false := by
  rw [List.contains_eq_mem, decide_eq_false_iff_not]
  intro member
  have other := List.all_eq_true.mp others _ member
  obtain ⟨c, rest, whole, digit⟩ := exists_toDigits_eq_cons value.natAbs
  rw [toList_toString, whole] at other
  split at other
  · cases other
  · simp [digit] at other

/-- No word that stands for another value writes an integer. -/
theorem plainValue?_toString {value : Int} (least : (IntegerRange.signed 64).least ≤ value)
    (greatest : value ≤ (IntegerRange.unsigned 64).greatest) :
    plainValue? (toString value) = some (.integer value) := by
  have empty : [""].contains (toString value) = false := contains_toString value (by decide)
  have filled : (toString value).isEmpty = false := by
    rw [Bool.eq_false_iff, ne_eq, String.isEmpty_iff]
    intro none
    rw [none] at empty
    cases empty
  have notNull : isNullText (toString value) = false := contains_toString value (by decide)
  have notTrue : ["true", "True", "TRUE"].contains (toString value) = false :=
    contains_toString value (by decide)
  have notFalse : ["false", "False", "FALSE"].contains (toString value) = false :=
    contains_toString value (by decide)
  simp only [plainValue?, filled, notNull, boolOf?, notTrue, notFalse,
    integerOf?_toString least greatest]
  rfl

/-! ### Nodes of plain scalars -/

/-- What is read one by one is written one by one. -/
theorem eq_map_of_mapM {Value Written : Type} {read : Written → Option Value} {write : Value → Written}
    (inverse : ∀ written value, read written = some value → written = write value)
    {items : List Written} {values : List Value} (found : items.mapM read = some values) :
    items = values.map write := by
  induction items generalizing values with
  | nil =>
    obtain rfl : values = [] := (Option.some.inj found).symm
    rfl
  | cons item rest ih =>
    rw [List.mapM_cons] at found
    obtain ⟨value, first, found⟩ := Option.bind_eq_some_iff.mp found
    obtain ⟨others, behind, same⟩ := Option.bind_eq_some_iff.mp found
    obtain rfl : value :: others = values := Option.some.inj same
    rw [List.map_cons, ← inverse item value first, ← ih behind]

namespace Node

variable {text : String}

/-- The text of a plain scalar without a tag. -/
def plain? : Node → Option String
  | .scalar none text .plain => some text
  | _ => none

/-- The texts of a sequence of plain scalars. -/
def plainItems? : Node → Option (List String)
  | .sequence none items => items.mapM plain?
  | _ => none

/-- The texts of a mapping between plain scalars. -/
def plainEntries? : Node → Option (List (String × String))
  | .mapping none entries => entries.mapM fun (key, value) => do return (← plain? key, ← plain? value)
  | _ => none

theorem of_plain? {node : Node} (found : plain? node = some text) : node = .scalar none text .plain := by
  unfold plain? at found
  split at found
  · rw [Option.some.inj found]
  · cases found

theorem of_plainItems? {node : Node} {texts : List String} (found : plainItems? node = some texts) :
    node = .sequence none (texts.map fun text => .scalar none text .plain) := by
  unfold plainItems? at found
  split at found
  · rw [eq_map_of_mapM (fun _ _ read => of_plain? read) found]
  · cases found

theorem of_plainEntries? {node : Node} {texts : List (String × String)}
    (found : plainEntries? node = some texts) :
    node = .mapping none
      (texts.map fun (key, value) => (.scalar none key .plain, .scalar none value .plain)) := by
  unfold plainEntries? at found
  split at found
  · refine congrArg (mapping none) (eq_map_of_mapM (fun written texts read => ?_) found)
    obtain ⟨key, first, read⟩ := Option.bind_eq_some_iff.mp read
    obtain ⟨value, second, same⟩ := Option.bind_eq_some_iff.mp read
    obtain rfl : (key, value) = texts := Option.some.inj same
    exact Prod.ext (of_plain? first) (of_plain? second)
  · cases found

theorem stringValue?_plain {value : String} (read : plainValue? text = some (.string value)) :
    stringValue? (.scalar none text .plain) = some value := by
  have whole : Yaml.scalarValue? none text .plain = some (.string value) := read
  simp only [stringValue?, whole]
  rfl

theorem integerValue?_plain {value : Int} (read : plainValue? text = some (.integer value)) :
    integerValue? (.scalar none text .plain) = some value := by
  have whole : Yaml.scalarValue? none text .plain = some (.integer value) := read
  simp only [integerValue?, whole]
  rfl

theorem unsigned?_plain (bits : Nat) :
    unsigned? bits (.scalar none text .plain) =
      (unsignedOf? (.unsigned 64) text.toList).bind fun value =>
        if value ≤ (Text.IntegerRange.unsigned bits).greatest then some value.toNat else none := by
  have opened : unsigned? bits (.scalar none text .plain) =
      (unsignedOf? (.unsigned 64) text.toList).bind fun value =>
        (if value ≤ (Text.IntegerRange.unsigned bits).greatest then some () else none).bind fun _ =>
          some value.toNat := rfl
  rw [opened]
  refine Option.bind_congr fun value _ => ?_
  by_cases within : value ≤ (Text.IntegerRange.unsigned bits).greatest
  · rw [if_pos within, if_pos within, Option.bind_some]
  · rw [if_neg within, if_neg within, Option.bind_none]

theorem isValue_plain {value : ScalarValue} (read : plainValue? text = some value) :
    isValue (.scalar none text .plain) = true := by
  have whole : scalarValue? (.scalar none text .plain) = some value := read
  simp only [isValue, whole, Option.isSome_some]

end Node

end TabSpec.Yaml

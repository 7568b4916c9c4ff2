import Mathlib
import TabSpec.Proofs.Yaml.Number
import TabSpec.Spec.Reading

/-! Literals in lists of expressions. A number or a truth value is read from its notation and printed again:
the value stays, but the text does so only where it is written as it is printed. -/
namespace TabSpec

namespace Yaml

open Text

/-- A number or a truth value. -/
def ScalarValue.isLiteral : ScalarValue → Bool
  | .bool _ | .integer _ | .float _ => true
  | .null | .string _ => false

/-- Notations that numbers and truth values are printed in: integers without padding and without a plus sign;
fractions laid out from so many digits at most, none of them a zero at the end; and a few words. -/
inductive Canonical (most : ℕ) (least : ℤ) : String → Prop
  | truth (value : Bool) : Canonical most least (toString value)
  | integer (value : ℤ) (within : Held value) : Canonical most least (toString value)
  | fraction (negative : Bool) (digits : ℕ) (place : ℤ) (few : digits < 10 ^ most)
      (trimmed : Binary64.Trimmed least digits place) :
      Canonical most least (String.ofList (sign negative ++ Binary64.layout digits place))
  | infinite (negative : Bool) : Canonical most least (Binary64.infinity negative).render
  | notANumber : Canonical most least Binary64.notANumber.render

section

variable {text printed : String} {value : ScalarValue}

theorem plainValue?_truth (truth : Bool) : plainValue? (toString truth) = some (.bool truth) := by
  cases truth <;> decide +kernel

theorem plainValue?_infinite (negative : Bool) :
    plainValue? (Binary64.infinity negative).render = some (.float (Binary64.infinity negative)) := by
  cases negative <;> decide +kernel

theorem plainValue?_notANumber :
    plainValue? Binary64.notANumber.render = some (.float Binary64.notANumber) := by decide +kernel

/-- A literal is printed in a canonical notation. -/
theorem canonical_of_literal? (read : plainValue? text = some value) (literal : value.isLiteral = true)
    (written : value.literal? = some printed) : Canonical 17 (-323) printed := by
  cases value with
  | null => cases literal
  | string content => cases literal
  | bool truth =>
    cases written
    exact .truth truth
  | integer number =>
    cases written
    exact .integer number (held_of_integerOf? (integerOf?_of_plainValue? read))
  | float x =>
    cases written
    rcases floatOf?_cases (floatOf?_of_plainValue? read) with finite | ⟨negative, rfl⟩ | rfl
    · obtain ⟨digits, place, written, trimmed, few, -⟩ := Binary64.exists_toList_render finite
      rw [← String.ofList_toList (s := x.render), written]
      exact .fraction _ digits place few trimmed
    · exact .infinite negative
    · exact .notANumber

/-- What a literal is printed as is read as the same value. -/
theorem plainValue?_of_literal? (read : plainValue? text = some value) (literal : value.isLiteral = true)
    (written : value.literal? = some printed) : plainValue? printed = some value := by
  cases value with
  | null => cases literal
  | string content => cases literal
  | bool truth =>
    cases written
    exact plainValue?_truth truth
  | integer number =>
    cases written
    obtain ⟨least, greatest⟩ := held_of_integerOf? (integerOf?_of_plainValue? read)
    exact plainValue?_toString least greatest
  | float x =>
    cases written
    rcases floatOf?_cases (floatOf?_of_plainValue? read) with finite | ⟨negative, rfl⟩ | rfl
    · exact plainValue?_render finite
    · exact plainValue?_infinite negative
    · exact plainValue?_notANumber

/-- A literal in a canonical notation of fifteen digits at most is printed as it is written. -/
theorem literal?_of_canonical (canonical : Canonical 15 (-306) text)
    (read : plainValue? text = some value) (literal : value.isLiteral = true) :
    value.literal? = some text := by
  cases canonical with
  | truth truth =>
    obtain rfl : .bool truth = value := Option.some.inj ((plainValue?_truth truth).symm.trans read)
    rfl
  | integer number within =>
    obtain rfl : .integer number = value :=
      Option.some.inj ((plainValue?_toString within.1 within.2).symm.trans read)
    rfl
  | fraction negative digits place few trimmed =>
    rw [plainValue?_layout negative (few.trans (by decide)) place] at read
    split at read
    · rename_i finite
      cases read
      refine congrArg some ?_
      rw [← Binary64.toList_render_ofDecimal trimmed few finite, String.ofList_toList]
    · cases read
      cases literal
  | infinite negative =>
    obtain rfl : .float (Binary64.infinity negative) = value :=
      Option.some.inj ((plainValue?_infinite negative).symm.trans read)
    rfl
  | notANumber =>
    obtain rfl : .float Binary64.notANumber = value :=
      Option.some.inj (plainValue?_notANumber.symm.trans read)
    rfl

end

end Yaml

namespace Expression

variable {text printed : String} {value : Yaml.ScalarValue}

theorem ofNode?_plain (read : Yaml.plainValue? text = some value) :
    ofNode? (.scalar none text .plain) = value.literal? := by
  have whole : (Yaml.Node.scalar none text .plain).scalarValue? = some value := read
  rw [ofNode?, whole, Option.bind_some]

theorem listOfNode?_plain (read : Yaml.plainValue? text = some value)
    (written : value.literal? = some printed) :
    listOfNode? (.scalar none text .plain) = some [printed] := by
  have whole : (Yaml.Node.scalar none text .plain).scalarValue? = some value := read
  have filled : value ≠ .null := by
    rintro rfl
    cases written
  simp [listOfNode?, whole, filled, ofNode?_plain read, written]

/-- What stands around an item of a sequence is read by itself. -/
theorem listOfNode?_append {front back : List Yaml.Node} {before behind : List String} {node : Yaml.Node}
    (first : listOfNode? (.sequence none front) = some before)
    (last : listOfNode? (.sequence none back) = some behind) (here : ofNode? node = some printed) :
    listOfNode? (.sequence none (front ++ node :: back)) = some (before ++ printed :: behind) := by
  have items (nodes : List Yaml.Node) : listOfNode? (.sequence none nodes) = nodes.mapM ofNode? := rfl
  rw [items] at first last ⊢
  simp [List.mapM_append, List.mapM_cons, first, last, here]

/-- A plain scalar that is a number or a truth value is one expression, alone and in a sequence: the text
that its value is printed as. This text is read as the same value. It is the scalar's own text only if that
is in canonical notation with seventeen digits at most, and it is so if fifteen digits are enough. -/
theorem listOfNode?_literal (read : Yaml.plainValue? text = some value)
    (literal : value.isLiteral = true) :
    ∃ printed, value.literal? = some printed ∧
      listOfNode? (.scalar none text .plain) = some [printed] ∧
      (∀ front back before behind, listOfNode? (.sequence none front) = some before →
        listOfNode? (.sequence none back) = some behind →
        listOfNode? (.sequence none (front ++ .scalar none text .plain :: back)) =
          some (before ++ printed :: behind)) ∧
      Yaml.plainValue? printed = some value ∧
      (printed = text → Yaml.Canonical 17 (-323) text) ∧
      (Yaml.Canonical 15 (-306) text → printed = text) := by
  obtain ⟨printed, written⟩ : ∃ printed, value.literal? = some printed := by
    cases value with
    | null => cases literal
    | string content => cases literal
    | bool truth => exact ⟨_, rfl⟩
    | integer number => exact ⟨_, rfl⟩
    | float x => exact ⟨_, rfl⟩
  refine ⟨printed, written, listOfNode?_plain read written, fun front back before behind first last => ?_,
    Yaml.plainValue?_of_literal? read literal written, ?_, fun canonical => ?_⟩
  · exact listOfNode?_append first last ((ofNode?_plain read).trans written)
  · rintro rfl
    exact Yaml.canonical_of_literal? read literal written
  · exact Option.some.inj (written.symm.trans (Yaml.literal?_of_canonical canonical read literal))

/-- A zero at the end of a fraction is lost; without it the fraction is kept. -/
theorem listOfNode?_literal_sample :
    Yaml.plainValue? "1.10" = some (.float ⟨0x3ff199999999999a⟩) ∧
    listOfNode? (.scalar none "1.10" .plain) = some ["1.1"] ∧
    listOfNode? (.sequence none [.scalar none "v" .plain, .scalar none "1.10" .plain]) =
      some ["v", "1.1"] ∧
    Yaml.plainValue? "1.1" = some (.float ⟨0x3ff199999999999a⟩) ∧
    listOfNode? (.scalar none "1.1" .plain) = some ["1.1"] := by
  have read : Yaml.plainValue? "1.10" = some (.float ⟨0x3ff199999999999a⟩) := by decide +kernel
  obtain ⟨printed, written, alone, among, again, -, -⟩ := listOfNode?_literal read rfl
  have text : (Binary64.mk 0x3ff199999999999a).render = "1.1" := by decide +kernel
  obtain rfl : "1.1" = printed := text.symm.trans (Option.some.inj written)
  obtain ⟨kept, -, short, -, -, -, same⟩ := listOfNode?_literal again rfl
  have canonical : Yaml.Canonical 15 (-306) "1.1" :=
    .fraction false 11 (-1) (by decide) fun _ => ⟨by decide, by decide⟩
  rw [same canonical] at short
  exact ⟨read, alone, among [_] [] ["v"] [] (by decide +kernel) rfl, again, short⟩

/-- Literals do not always keep their text: zeros at the end, another base and other spellings are lost. -/
theorem listOfNode?_reprints :
    (Yaml.document? "1.10").bind listOfNode? = some ["1.1"] ∧
    (Yaml.document? "[0x10, +5, True, 1e3]").bind listOfNode? = some ["16", "5", "true", "1000.0"] ∧
    ¬ ∀ text value, Yaml.plainValue? text = some value → value.isLiteral = true →
      listOfNode? (.scalar none text .plain) = some [text] := by
  refine ⟨by decide +kernel, by decide +kernel, fun keeps => ?_⟩
  have kept := keeps "0x10" (.integer 16) (by decide +kernel) rfl
  have printed : listOfNode? (.scalar none "0x10" .plain) = some ["16"] := by decide +kernel
  rw [printed] at kept
  exact absurd kept (by decide)

end Expression

end TabSpec

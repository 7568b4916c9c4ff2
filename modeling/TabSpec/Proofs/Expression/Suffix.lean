import TabSpec.CoreMacros
import TabSpec.Proofs.Expression.Siblings
import TabSpec.Proofs.Outcome
import TabSpec.Proofs.Substitution

/-! A literal with modifiers behind it. The whole element is filled before it is cut, in a context that
knows the arguments and the value but not the parts, and each modifier is filled once more when the
parts are known. This is what applying the modifier directly does only where the first filling says
what the second one would, and leaves nothing that the second one or the cutting could read. -/
namespace TabSpec

/-- A modifier is known by what its text is filled with once the parts are known. -/
theorem Modifier.modify_congr (action : Action) {first second : String} {context : Context}
    (same : context.exportParts.substitute first = context.exportParts.substitute second) :
    modify action first context = modify action second context := by
  unfold modify resolve
  rw [same]

namespace Expression

/-- A text that stays the head of an element, as a literal, whatever stands behind its separator. -/
structure LiteralHead (head : String) : Prop where
  plain : isCall head = false
  /-- The head holds no separator, and no part of one that the separator behind it would complete. -/
  uncut : Text.contains separator (head ++ " |||") = false
  closed : Text.contains "$\x7b" head = false

namespace LiteralHead

variable {head : String} (literal : LiteralHead head)

include literal

theorem split (rest : String) :
    Text.split separator (head ++ separator ++ rest) = head :: Text.split separator rest := by
  refine Text.split_append (by decide) ?_ rest
  have uncut := Text.contains_eq_false_iff.mp literal.uncut
  rwa [String.toList_append] at uncut

/-- The placeholders behind the head are filled as if they stood alone. -/
theorem substitute (context : Context) (suffix : String) :
    context.substitute (head ++ separator ++ suffix) =
      match context.substitute suffix with
      | .ok filled => .ok (head ++ separator ++ filled)
      | .error _ => .error (.substitution (head ++ separator ++ suffix)) := by
  have chars : (head ++ separator ++ suffix).toList =
      head.toList ++ (separator.toList ++ suffix.toList) := by
    simp
  have apart : (separator.toList ++ suffix.toList).head? ≠ some '\x7b' := by simp [separator]
  have front := Substitution.expandChars_append context.get?
    (Text.contains_eq_false_iff.mp literal.closed) apart
  have noDollar : '$' ∉ separator.toList := by decide
  have middle := Substitution.expandChars_append_of_not_mem context.get? noDollar suffix.toList
  simp only [Context.substitute, Substitution.expand, chars, front, middle]
  cases Substitution.expandChars context.get? suffix.toList with
  | none => rfl
  | some filled => simp [String.append_assoc]

/-- The element is the head with what the filled suffix is cut into, or it is faulty. -/
theorem element (context : Context) (suffix : String) :
    Element.of context (head ++ separator ++ suffix) =
      match context.substitute suffix with
      | .ok filled => .candidates head (Text.split separator filled)
      | .error _ => .faulty ((SpecFault.substitution (head ++ separator ++ suffix)).message ++ ": " ++
          Text.quoted (head ++ separator ++ suffix)) := by
  rw [Element.of, literal.substitute]
  cases context.substitute suffix with
  | error fault => rfl
  | ok filled =>
    have some : (Text.split separator filled).isEmpty = false := by
      simp [Text.split, Text.parts_ne_nil]
    simp [Element.ofFilled, headAndModifiers, literal.split, literal.plain, some]

end LiteralHead

section

variable {registry : Registry} {nested : SpecTarget → Action} {context : Context} {text : String}

theorem value_evaluate_of_candidates {head : String} {modifiers : List String}
    (kind : Element.of context.exportArguments text = .candidates head modifiers)
    (plain : isCall head = false) :
    (evaluate registry nested [text] context).value =
      .merge [(withModifiers (.ofSuggestions [Suggestion.parse head]) modifiers
        context.exportArguments).value] := by
  simp [evaluate, combine, kind, plain, Element.action?, Element.literal?, Element.calls,
    withModifiers, Action.value_batch]

theorem value_evaluate_of_faulty {message : String}
    (kind : Element.of context.exportArguments text = .faulty message) :
    (evaluate registry nested [text] context).value = .merge [.ofMessage message] := by
  have told : (Action.ofMessage message context.exportArguments).value = .ofMessage message := rfl
  simp [evaluate, combine, kind, Element.action?, Element.literal?, Element.calls, withModifiers,
    Action.value_batch, told]

end

/-- What a literal with a suffix answers. The suffix is filled in the context of the list, where no
parts are set, then cut into modifiers, and each of those is filled again when it is applied; a suffix
that cannot be filled is blamed together with its head. It is the modifier applied directly where
both fillings agree and leave neither a separator nor a placeholder. -/
theorem value_evaluate_suffixed (registry : Registry) (nested : SpecTarget → Action)
    {head : String} (literal : LiteralHead head) (suffix : String) (context : Context) :
    (∀ filled, context.exportArguments.substitute suffix = .ok filled →
      (evaluate registry nested [head ++ separator ++ suffix] context).value =
        .merge [(withModifiers (.ofSuggestions [Suggestion.parse head])
          (Text.split separator filled) context.exportArguments).value]) ∧
    (∀ fault, context.exportArguments.substitute suffix = .error fault →
      (evaluate registry nested [head ++ separator ++ suffix] context).value =
        .merge [.ofMessage ((SpecFault.substitution (head ++ separator ++ suffix)).message ++ ": " ++
          Text.quoted (head ++ separator ++ suffix))]) ∧
    (∀ filled, context.exportArguments.substitute suffix = .ok filled →
      context.exportArguments.exportParts.substitute suffix = .ok filled →
      Text.contains separator filled = false → Text.contains "$\x7b" filled = false →
      (evaluate registry nested [head ++ separator ++ suffix] context).value =
        .merge [(Modifier.modify (.ofSuggestions [Suggestion.parse head]) suffix
          context.exportArguments).value]) := by
  have element := literal.element context.exportArguments suffix
  have answers (filled : String)
      (fills : context.exportArguments.substitute suffix = .ok filled) :
      (evaluate registry nested [head ++ separator ++ suffix] context).value =
        .merge [(withModifiers (.ofSuggestions [Suggestion.parse head])
          (Text.split separator filled) context.exportArguments).value] := by
    rw [fills] at element
    exact value_evaluate_of_candidates element literal.plain
  refine ⟨answers, ?_, ?_⟩
  · intro fault malformed
    rw [malformed] at element
    exact value_evaluate_of_faulty element
  · intro filled fills again single closed
    have settled := Substitution.expand_of_closed context.exportArguments.exportParts.get? closed
    have direct : Modifier.modify (.ofSuggestions [Suggestion.parse head]) suffix
        context.exportArguments =
          withModifiers (.ofSuggestions [Suggestion.parse head]) [filled]
            context.exportArguments :=
      Modifier.modify_congr _ (again.trans settled.symm)
    rw [answers filled fills, Text.split_of_not_contains single, direct]

namespace Sample

/-- Behind one part of a word that is typed in parts. -/
def behindPart : Context := { (default : Context) with value := "v", parts := ["x"] }

end Sample

/-- A suffix that asks for the value is filled with it either way. -/
theorem value_evaluate_suffixed_sample :
    LiteralHead "a" ∧
    Sample.behindPart.exportArguments.substitute "$suffix(-$\x7bC_VALUE\x7d)" = .ok "$suffix(-v)" ∧
    (evaluate (.withCore "tool") (fun _ => .ofValues [])
      ["a ||| $suffix(-$\x7bC_VALUE\x7d)"] Sample.behindPart).value =
        .merge [(Modifier.modify (.ofSuggestions [Suggestion.parse "a"])
          "$suffix(-$\x7bC_VALUE\x7d)" Sample.behindPart.exportArguments).value] := by
  have literal : LiteralHead "a" := ⟨by decide +kernel, by decide +kernel, by decide +kernel⟩
  have fills : Sample.behindPart.exportArguments.substitute "$suffix(-$\x7bC_VALUE\x7d)" =
      .ok "$suffix(-v)" :=
    eq_ok_of_toOption (by decide +kernel)
  have again : Sample.behindPart.exportArguments.exportParts.substitute
      "$suffix(-$\x7bC_VALUE\x7d)" = .ok "$suffix(-v)" :=
    eq_ok_of_toOption (by decide +kernel)
  have agree := (value_evaluate_suffixed (.withCore "tool") (fun _ => .ofValues []) literal
    "$suffix(-$\x7bC_VALUE\x7d)" Sample.behindPart).2.2 _ fills again (by decide +kernel)
    (by decide +kernel)
  exact ⟨literal, fills, agree⟩

/-- A suffix that asks for a part finds none, though the modifier applied directly finds it. -/
theorem suffix_misses_part :
    (evaluate (.withCore "tool") (fun _ => .ofValues [])
      ["a ||| $suffix(-$\x7bC_PART0\x7d)"] Sample.behindPart).value.values = ["a-"] ∧
    (Completion.merge [(Modifier.modify (.ofSuggestions [Suggestion.parse "a"])
      "$suffix(-$\x7bC_PART0\x7d)" Sample.behindPart.exportArguments).value]).values = ["a-x"] := by
  decide +kernel

end Expression
end TabSpec

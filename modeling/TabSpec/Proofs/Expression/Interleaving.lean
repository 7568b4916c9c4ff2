import TabSpec.CoreMacros
import TabSpec.Proofs.Call
import TabSpec.Proofs.Completion.Merge
import TabSpec.Proofs.Expression.Siblings
import TabSpec.Proofs.Outcome
import TabSpec.Proofs.Substitution

/-! The order of the elements in an expression list. An element is a literal, a bare modifier, or one that
offers candidates by itself or fails. A list is evaluated one kind after the other, so only the order
within each kind matters: bare modifiers mean the same before, between and behind what they are layered
on, and one below the other the same as one behind the other. -/
namespace TabSpec.Expression

/-! ### Kinds of elements -/

inductive Kind
  | literal
  /-- Offers candidates by itself, or fails. -/
  | offering
  | modifying
deriving DecidableEq

def Element.kind : Element → Kind
  | .literal _ => .literal
  | .candidates .. => .offering
  | .faulty _ => .offering
  | .wrappers _ => .modifying

/-- The elements of one kind, in order. -/
def ofKind (kind : Kind) (elements : List Element) : List Element :=
  elements.filter fun element => element.kind = kind

/-- What only elements of one kind have can be read off the elements of that kind. -/
theorem filterMap_ofKind {Item : Type} {kind : Kind} {read : Element → Option Item}
    (only : ∀ element, element.kind ≠ kind → read element = none) (elements : List Element) :
    (ofKind kind elements).filterMap read = elements.filterMap read := by
  induction elements with
  | nil => rfl
  | cons element rest ih =>
    unfold ofKind at ih ⊢
    by_cases same : element.kind = kind
    · rw [List.filter_cons_of_pos (by simpa using same), List.filterMap_cons, List.filterMap_cons, ih]
    · rw [List.filter_cons_of_neg (by simpa using same), ih,
        List.filterMap_cons_none (only element same)]

theorem flatMap_calls_ofKind (elements : List Element) :
    (ofKind .modifying elements).flatMap Element.calls = elements.flatMap Element.calls := by
  induction elements with
  | nil => rfl
  | cons element rest ih =>
    rw [List.flatMap_cons, ← ih, ofKind, List.filter_cons]
    cases element with
    | wrappers calls => rfl
    | literal text => rfl
    | candidates head modifiers => rfl
    | faulty message => rfl

section

variable {registry : Registry} {nested : SpecTarget → Action} {context : Context}

/-- What a list is evaluated to is told by its literals, by the actions of its other elements and by the
modifiers layered on all of them. -/
theorem combine_congr {first second : List Element}
    (literals : first.filterMap Element.literal? = second.filterMap Element.literal?)
    (actions : first.filterMap (Element.action? registry nested) =
      second.filterMap (Element.action? registry nested))
    (calls : first.flatMap Element.calls = second.flatMap Element.calls) :
    combine registry nested first = combine registry nested second := by
  simp only [combine, literals, actions, calls]

theorem combine_of_kinds {first second : List Element}
    (same : ∀ kind, ofKind kind first = ofKind kind second) :
    combine registry nested first = combine registry nested second := by
  have literal : ∀ element : Element, element.kind ≠ .literal → element.literal? = none := by
    intro element other
    cases element with
    | literal text => exact absurd rfl other
    | candidates head modifiers => rfl
    | wrappers calls => rfl
    | faulty message => rfl
  have offering : ∀ element : Element, element.kind ≠ .offering →
      element.action? registry nested = none := by
    intro element other
    cases element with
    | literal text => rfl
    | candidates head modifiers => exact absurd rfl other
    | wrappers calls => rfl
    | faulty message => exact absurd rfl other
  refine combine_congr ?_ ?_ ?_
  · rw [← filterMap_ofKind literal, same, filterMap_ofKind literal]
  · rw [← filterMap_ofKind offering, same, filterMap_ofKind offering]
  · rw [← flatMap_calls_ofKind, same, flatMap_calls_ofKind]

end

/-! ### Calls of modifiers -/

/-- A text that spells the call of a modifier. -/
def IsModifierCall (text : String) : Prop :=
  ∃ (modifier : Modifier) (argument : String), Call.Spells text modifier.name argument

/-- No part of a separator stands in the name of a modifier. -/
theorem not_mem_separator_of_mem_name (modifier : Modifier) :
    ∀ c ∈ '$' :: modifier.name.toList, c ∉ separator.toList := by
  have apart : ('$' :: modifier.name.toList).all (!separator.toList.contains ·) = true := by
    cases modifier <;> decide
  intro c member
  simpa using List.all_eq_true.mp apart c member

namespace IsModifierCall

variable {text : String} (called : IsModifierCall text)

include called

/-- The call does not end within a separator. -/
theorem getLast?_not_mem : ∀ c ∈ text.toList.getLast?, c ∉ separator.toList := by
  obtain ⟨modifier, argument, -, rfl | ⟨rfl, -⟩⟩ := called
  · rw [Call.getLast?_written]
    rintro c ⟨rfl⟩
    decide
  · intro c last
    refine not_mem_separator_of_mem_name modifier c ?_
    have chars : ("$" ++ modifier.name).toList = '$' :: modifier.name.toList := by simp
    rw [chars] at last
    exact List.mem_of_getLast? last

/-- The name stands in front of every separator, so what the call is cut into begins with it. -/
theorem exists_split : ∃ head others, Text.split separator text = head :: others ∧
    isCall head = true ∧ (Modifier.ofCall? head).isSome = true := by
  obtain ⟨modifier, argument, named, form⟩ := called
  obtain ⟨rest, whole, opens⟩ := Call.exists_toList_of_form form
  obtain ⟨first, others, cut⟩ :=
    List.exists_cons_of_ne_nil (Text.parts_ne_nil separator.toList text.toList)
  obtain ⟨begins, holds⟩ := Text.prefix_of_parts cut
  obtain ⟨more, rfl⟩ := holds ('$' :: modifier.name.toList) ⟨rest, whole.symm⟩
    (not_mem_separator_of_mem_name modifier)
  have behind : more <+: rest := by
    rwa [whole, ← List.cons_append, List.prefix_append_right_inj] at begins
  have opens' : ∀ c ∈ more.head?, c = '(' := by
    intro c head
    cases more with
    | nil => cases head
    | cons d more =>
      obtain ⟨tail, rfl⟩ := behind
      exact opens c head
  refine ⟨String.ofList ('$' :: (modifier.name.toList ++ more)), others.map String.ofList, ?_, ?_, ?_⟩
  · rw [Text.split, cut, List.map_cons, List.cons_append]
  · simp [isCall, Text.startsWith_iff]
  · rw [Call.modifier_of_toList named String.toList_ofList opens',
      Modifier.ofName?_eq_some_iff.mpr rfl]
    rfl

theorem ofFilled_eq : Element.ofFilled text = .wrappers (Text.split separator text) := by
  obtain ⟨head, others, cut, dollar, named⟩ := called.exists_split
  simp only [Element.ofFilled, headAndModifiers, cut, dollar, named, Bool.and_self, if_true]

/-- In front of another text the call is cut as it is alone. -/
theorem ofFilled_append (other : String) :
    Element.ofFilled (text ++ separator ++ other) =
      .wrappers (Text.split separator text ++ Text.split separator other) := by
  have chars : (text ++ separator ++ other).toList =
      text.toList ++ separator.toList ++ other.toList := by
    simp
  have parts : Text.split separator (text ++ separator ++ other) =
      Text.split separator text ++ Text.split separator other := by
    rw [Text.split, chars, Text.parts_append (by decide) called.getLast?_not_mem, List.map_append]
    rfl
  obtain ⟨head, others, cut, dollar, named⟩ := called.exists_split
  rw [cut, List.cons_append] at parts ⊢
  simp only [Element.ofFilled, headAndModifiers, parts, dollar, named, Bool.and_self, if_true]

end IsModifierCall

theorem substitute_append_separator {context : Context} {one other filled filledOther : String}
    (fills : context.substitute one = .ok filled)
    (fillsOther : context.substitute other = .ok filledOther) :
    context.substitute (one ++ separator ++ other) = .ok (filled ++ separator ++ filledOther) := by
  have chars : (one ++ separator ++ other).toList =
      one.toList ++ (separator.toList ++ other.toList) := by
    simp
  have noDollar : '$' ∉ separator.toList := by decide
  have apart : (separator.toList ++ other.toList).head? ≠ some '\x7b' := by simp [separator]
  refine Substitution.expand_eq_ok_iff.mpr ?_
  rw [chars, Substitution.expandChars_append_of_expandChars _
      (Substitution.expand_eq_ok_iff.mp fills) fun _ => apart,
    Substitution.expandChars_append_of_not_mem _ noDollar,
    Substitution.expand_eq_ok_iff.mp fillsOther]
  simp

/-! ### Evaluation -/

section

variable {registry : Registry} {nested : SpecTarget → Action} {context : Context}

/-- Two calls of modifiers in one element wrap the list as they do in elements of their own. -/
theorem evaluate_of_modifiers {one other element filled filledOther : String}
    (fills : context.exportArguments.substitute one = .ok filled) (called : IsModifierCall filled)
    (fillsOther : context.exportArguments.substitute other = .ok filledOther)
    (calledOther : IsModifierCall filledOther)
    (joined : context.exportArguments.substitute element = .ok (filled ++ separator ++ filledOther))
    (before after : List String) :
    evaluate registry nested (before ++ element :: after) context =
      evaluate registry nested (before ++ one :: other :: after) context := by
  have single : Element.of context.exportArguments one = .wrappers (Text.split separator filled) := by
    rw [Element.of, fills]
    exact called.ofFilled_eq
  have second : Element.of context.exportArguments other =
      .wrappers (Text.split separator filledOther) := by
    rw [Element.of, fillsOther]
    exact calledOther.ofFilled_eq
  have both : Element.of context.exportArguments element =
      .wrappers (Text.split separator filled ++ Text.split separator filledOther) := by
    rw [Element.of, joined]
    exact called.ofFilled_append filledOther
  have same : combine registry nested
        ((before ++ element :: after).map (Element.of context.exportArguments)) =
      combine registry nested
        ((before ++ one :: other :: after).map (Element.of context.exportArguments)) := by
    simp only [List.map_append, List.map_cons, single, second, both]
    refine combine_congr ?_ ?_ ?_
    · simp [List.filterMap_cons, Element.literal?]
    · simp [List.filterMap_cons, Element.action?]
    · simp [Element.calls]
  exact congrFun same context.exportArguments

theorem evaluate_of_literals {elements texts : List String}
    (literals : elements.map (Element.of context.exportArguments) = texts.map .literal) :
    evaluate registry nested elements context =
      pure (.ofSuggestions ((texts.map Suggestion.parse).eraseDupsBy
        fun one other => one.value == other.value)) := by
  have parsed : (texts.map Element.literal).filterMap Element.literal? =
      texts.map Suggestion.parse := by
    simp [List.filterMap_map, Function.comp_def, Element.literal?]
  have noAction : (texts.map Element.literal).filterMap (Element.action? registry nested) = [] := by
    simp [Element.action?]
  have noCall : (texts.map Element.literal).flatMap Element.calls = [] := by
    simp [Element.calls]
  simp only [evaluate, combine, literals, parsed, noAction, noCall, withModifiers, List.foldl_nil,
    List.nil_append, ← Completion.merge_singleton_ofSuggestions]
  cases texts with
  | nil => rfl
  | cons text rest => rfl

end

/-- Two lists are evaluated alike in which the elements of each kind stand in the same order, whatever
stands between them; what an element is, is told from what it is filled to. One modifier behind another in
an element means the same as one element for each of them in its place. A list of literals offers what they
say, and the first candidate of each value is kept. -/
theorem evaluate_of_kinds (registry : Registry) (nested : SpecTarget → Action) (context : Context) :
    (∀ first second : List String,
      (∀ kind, ofKind kind (first.map (Element.of context.exportArguments)) =
        ofKind kind (second.map (Element.of context.exportArguments))) →
      evaluate registry nested first context = evaluate registry nested second context) ∧
    (∀ one other filled filledOther : String,
      context.exportArguments.substitute one = .ok filled → IsModifierCall filled →
      context.exportArguments.substitute other = .ok filledOther → IsModifierCall filledOther →
      ∀ element : String, (element = one ++ separator ++ other ∨
          context.exportArguments.substitute element = .ok (filled ++ separator ++ filledOther)) →
        ∀ before after : List String,
          evaluate registry nested (before ++ element :: after) context =
            evaluate registry nested (before ++ one :: other :: after) context) ∧
    ∀ elements texts : List String,
      elements.map (Element.of context.exportArguments) = texts.map .literal →
      evaluate registry nested elements context =
        pure (.ofSuggestions ((texts.map Suggestion.parse).eraseDupsBy
          fun one other => one.value == other.value)) := by
  refine ⟨?_, ?_, fun elements texts literals => evaluate_of_literals literals⟩
  · intro first second same
    exact congrFun (combine_of_kinds same) context.exportArguments
  · intro one other filled filledOther fills called fillsOther calledOther element form before after
    have joined : context.exportArguments.substitute element =
        .ok (filled ++ separator ++ filledOther) := by
      rcases form with rfl | joined
      · exact substitute_append_separator fills fillsOther
      · exact joined
    exact evaluate_of_modifiers fills called fillsOther calledOther joined before after

namespace Sample

def elementsOf (elements : List String) : List Element :=
  elements.map (Element.of behindX.exportArguments)

def answered (elements : List String) : Traced Completion :=
  evaluate (.withCore "tool") (fun _ => .ofValues []) elements behindX

end Sample

/-- A bare modifier moves in front of a literal and of a call that fails; a modifier with the first argument
in it goes in front of another one; and a literal repeats the value of an earlier one. -/
theorem evaluate_of_kinds_sample :
    (∀ kind, ofKind kind (Sample.elementsOf ["b", "$missing", "$suffix(/)", "c ||| $suffix(,)"]) =
      ofKind kind (Sample.elementsOf ["$suffix(/)", "$missing", "b", "c ||| $suffix(,)"])) ∧
    Sample.answered ["b", "$missing", "$suffix(/)", "c ||| $suffix(,)"] =
      Sample.answered ["$suffix(/)", "$missing", "b", "c ||| $suffix(,)"] ∧
    Sample.behindX.exportArguments.substitute "$prefix($\x7bC_ARG0\x7d)" = .ok "$prefix(x)" ∧
    Sample.behindX.exportArguments.substitute "$split" = .ok "$split" ∧
    IsModifierCall "$prefix(x)" ∧ IsModifierCall "$split" ∧
    Sample.answered ["b", "$prefix($\x7bC_ARG0\x7d)" ++ separator ++ "$split", "c"] =
      Sample.answered ["b", "$prefix($\x7bC_ARG0\x7d)", "$split", "c"] ∧
    Sample.elementsOf ["b\tfirst", "a", "b\tagain"] =
      ["b\tfirst", "a", "b\tagain"].map .literal ∧
    Sample.answered ["b\tfirst", "a", "b\tagain"] =
      pure (.ofSuggestions [.described "b" "first", .ofValue "a"]) := by
  obtain ⟨order, joining, literal⟩ :=
    evaluate_of_kinds (.withCore "tool") (fun _ => .ofValues []) Sample.behindX
  have same (kind : Kind) :
      ofKind kind (Sample.elementsOf ["b", "$missing", "$suffix(/)", "c ||| $suffix(,)"]) =
        ofKind kind (Sample.elementsOf ["$suffix(/)", "$missing", "b", "c ||| $suffix(,)"]) := by
    cases kind <;> decide +kernel
  have fills : Sample.behindX.exportArguments.substitute "$prefix($\x7bC_ARG0\x7d)" =
      .ok "$prefix(x)" :=
    eq_ok_of_toOption (by decide +kernel)
  have fillsOther : Sample.behindX.exportArguments.substitute "$split" = .ok "$split" :=
    eq_ok_of_toOption (by decide +kernel)
  have called : IsModifierCall "$prefix(x)" := ⟨.prepend, "x", by decide, .inl (by decide)⟩
  have calledOther : IsModifierCall "$split" := ⟨.split, "", by decide, .inr (by decide)⟩
  have literals : Sample.elementsOf ["b\tfirst", "a", "b\tagain"] =
      ["b\tfirst", "a", "b\tagain"].map .literal := by
    decide +kernel
  have kept : (["b\tfirst", "a", "b\tagain"].map Suggestion.parse).eraseDupsBy
      (fun one other => one.value == other.value) =
        [.described "b" "first", .ofValue "a"] := by
    decide +kernel
  have offered := literal _ _ literals
  rw [kept] at offered
  exact ⟨same, order _ _ same, fills, fillsOther, called, calledOther,
    joining _ _ _ _ fills called fillsOther calledOther _ (.inl rfl) ["b"] ["c"], literals, offered⟩

end TabSpec.Expression

import TabSpec.Proofs.Action.Stable
import TabSpec.Proofs.Expression.Siblings

/-! Evaluated expression lists are in normal form. Merging brings the answers of the elements into
normal form, whatever macros answer, and the modifiers that are layered on the list keep it. -/
namespace TabSpec

/-- What is merged of completions without NUL holds none. -/
theorem Completion.nulFree_merge {completions : List Completion}
    (free : ∀ completion ∈ completions, completion.NulFree) : (merge completions).NulFree := by
  have appended {first second : Completion} (firstFree : first.NulFree)
      (secondFree : second.NulFree) : (first.append second).NulFree := by
    intro suggestion member
    unfold append at member
    rw [suggestions_addNospace, addSuggestions_eq_gather] at member
    rcases mem_gather _ member with old | new
    · exact firstFree suggestion old
    · exact secondFree suggestion new
  have extended (first : Completion) (firstFree : first.NulFree) :
      (completions.foldl append first).NulFree := by
    induction completions generalizing first with
    | nil => exact firstFree
    | cons completion rest ih =>
      obtain ⟨here, later⟩ := List.forall_mem_cons.mp free
      exact ih later _ (appended firstFree here)
  exact extended empty stable_nulFree.empty

theorem Suggestion.nulFree_parse {text : String} (free : Text.NulFree text) :
    Text.NulFree (parse text).value := by
  have first (part : List Char) (member : part ∈ Text.parts ['\t'] text.toList) :
      Text.NulFree (String.ofList part) :=
    free.of_subset (by simpa using Text.subset_of_mem_parts member)
  unfold parse
  split
  · exact Text.nulFree_empty
  all_goals
    rename_i parts
    exact first _ (parts ▸ List.mem_cons_self)

namespace Expression

/-- No text of an element holds NUL. -/
def Element.NulFree : Element → Prop
  | .literal text => Text.NulFree text
  | .candidates head modifiers => Text.NulFree head ∧ ∀ call ∈ modifiers, Text.NulFree call
  | .wrappers calls => ∀ call ∈ calls, Text.NulFree call
  | .faulty _ => True

theorem Element.nulFree_ofFilled {text : String} (free : Text.NulFree text) :
    (Element.ofFilled text).NulFree := by
  have cut : Text.NulFree (headAndModifiers text).1 ∧
      ∀ call ∈ (headAndModifiers text).2, Text.NulFree call := by
    unfold headAndModifiers
    split
    · rename_i head modifiers parts
      exact List.forall_mem_cons.mp fun part member => free.of_mem_split (parts ▸ member)
    · exact ⟨free, by simp⟩
  unfold Element.ofFilled
  dsimp only
  split
  · exact List.forall_mem_cons.mpr cut
  · split
    · exact cut
    · exact cut.1

/-- Filling an element does not bring in NUL. -/
theorem Element.nulFree_of {machine : Machine} {context : Context} (free : context.NulFree machine)
    {text : String} (textFree : Text.NulFree text) : (Element.of context text).NulFree := by
  unfold Element.of
  split
  · rename_i filled fills
    exact Element.nulFree_ofFilled (free.substitute textFree fills)
  · trivial

variable {registry : Registry} {nested : SpecTarget → Action} {machine : Machine}

/-- Layered modifiers keep what no modifier breaks. -/
theorem gives_withModifiers {holds : Completion → Prop} (stable : Completion.Stable holds)
    {action : Action} (gives : action.Gives machine holds) {calls : List String}
    (free : ∀ call ∈ calls, Text.NulFree call) : (withModifiers action calls).Gives machine holds := by
  induction calls generalizing action with
  | nil => exact gives
  | cons call rest ih =>
    obtain ⟨first, later⟩ := List.forall_mem_cons.mp free
    exact ih (Modifier.gives_modify stable gives first) later

/-- The call of an element, if it is one, is never answered with NUL where there was none. -/
def Element.AnswersNulFree (registry : Registry) (nested : SpecTarget → Action)
    (machine : Machine) (element : Element) : Prop :=
  ∀ head modifiers, element = .candidates head modifiers → isCall head = true →
    ∀ action, resolve registry nested head = .ok action →
      action.Gives machine Completion.NulFree

theorem gives_call {text : String}
    (answers : ∀ action, resolve registry nested text = .ok action →
      action.Gives machine Completion.NulFree) :
    (call registry nested text).Gives machine Completion.NulFree := by
  intro context free
  unfold call
  cases resolved : resolve registry nested text with
  | error fault => exact Completion.stable_nulFree.ofMessage _
  | ok action => exact answers action resolved context free

theorem gives_of_action? {element : Element} (free : element.NulFree)
    (answers : element.AnswersNulFree registry nested machine) {action : Action}
    (acts : element.action? registry nested = some action) :
    action.Gives machine Completion.NulFree := by
  cases element with
  | literal text => cases acts
  | wrappers calls => cases acts
  | faulty message =>
    obtain rfl := Option.some.inj acts
    exact Action.gives_ofCompletion (Completion.stable_nulFree.ofMessage message)
  | candidates head modifiers =>
    obtain ⟨headFree, modifiersFree⟩ := free
    obtain rfl := Option.some.inj acts
    refine gives_withModifiers Completion.stable_nulFree ?_ modifiersFree
    split
    · rename_i called
      exact gives_call (answers head modifiers rfl called)
    · refine Action.gives_ofCompletion fun suggestion member => ?_
      obtain rfl := List.mem_singleton.mp member
      exact Suggestion.nulFree_parse headFree

theorem gives_ofSuggestions_literals {elements : List Element}
    (free : ∀ element ∈ elements, element.NulFree) :
    (Action.ofSuggestions (elements.filterMap Element.literal?)).Gives machine
      Completion.NulFree := by
  refine Action.gives_ofCompletion fun suggestion member => ?_
  obtain ⟨element, present, literal⟩ := List.mem_filterMap.mp member
  cases element with
  | literal text =>
    obtain rfl := Option.some.inj literal
    exact Suggestion.nulFree_parse (free _ present)
  | candidates _ _ => cases literal
  | wrappers _ => cases literal
  | faulty _ => cases literal

/-- What all elements together answer is in normal form, and so is what the bare modifiers make of
it. -/
theorem gives_combine {elements : List Element} (free : ∀ element ∈ elements, element.NulFree)
    (answers : ∀ element ∈ elements, element.AnswersNulFree registry nested machine) :
    (combine registry nested elements).Gives machine
      fun completion => completion.NulFree ∧ completion.IsNormal := by
  unfold combine
  refine gives_withModifiers Completion.stable_isNormal ?_ ?_
  -- Merging makes the batch normal whatever its actions answer; only NUL has to be kept out of them.
  · intro context contextFree
    rw [Action.value_batch]
    refine ⟨Completion.nulFree_merge ?_, Completion.isNormal_merge _⟩
    intro completion member
    obtain ⟨action, present, rfl⟩ := List.mem_map.mp member
    rcases List.mem_append.mp present with called | literal
    · obtain ⟨element, inside, acts⟩ := List.mem_filterMap.mp called
      exact gives_of_action? (free element inside) (answers element inside) acts context contextFree
    · split at literal
      · cases literal
      · obtain rfl := List.mem_singleton.mp literal
        exact gives_ofSuggestions_literals free context contextFree
  · intro call member
    obtain ⟨element, present, inside⟩ := List.mem_flatMap.mp member
    have elementFree := free element present
    cases element with
    | wrappers calls => exact elementFree call inside
    | literal _ => cases inside
    | candidates _ _ => cases inside
    | faulty _ => cases inside

/-- Every evaluated expression list is in normal form, whatever macros answer and whatever modifiers
the list applies, as long as no text holds NUL: neither the list, the context nor, where the context
of a call does not hold any, what the call is answered with. Merging it again changes nothing, no
value is offered twice, and the characters without space are a star alone or name none twice. -/
theorem merge_evaluate (registry : Registry) (nested : SpecTarget → Action) (elements : List String)
    (context : Context) (contextFree : context.NulFree context.machine)
    (elementsFree : ∀ element ∈ elements, Text.NulFree element)
    (answersFree : ∀ element ∈ elements,
      (Element.of context.exportArguments element).AnswersNulFree registry nested
        context.machine) :
    Completion.merge [(evaluate registry nested elements context).value] =
        (evaluate registry nested elements context).value ∧
      (evaluate registry nested elements context).value.values.Nodup ∧
      ((evaluate registry nested elements context).value.nospace = "*" ∨
        '*' ∉ (evaluate registry nested elements context).value.nospace.toList ∧
        (evaluate registry nested elements context).value.nospace.toList.Nodup) := by
  have normal : (evaluate registry nested elements context).value.IsNormal := by
    have exported := contextFree.exportArguments
    refine (gives_combine ?_ ?_ _ exported).2
    · intro element member
      obtain ⟨text, present, rfl⟩ := List.mem_map.mp member
      exact Element.nulFree_of exported (elementsFree text present)
    · intro element member
      obtain ⟨text, present, rfl⟩ := List.mem_map.mp member
      exact answersFree text present
  exact ⟨(Completion.merge_singleton_eq_self_iff _).mpr normal, normal.values, normal.nospace⟩

namespace Sample

/-- A macro that offers a value twice and names a character without space twice. -/
def unkempt : Macro :=
  .ofAction (.ofCompletion { suggestions := [.ofValue "b", .ofValue "b"], nospace := "//" })

def unkemptRegistry : Registry := (Registry.empty "tool").addCustom "unkempt" unkempt

/-- The macro with a suffix, a literal beside it, and two bare modifiers for both. -/
def unkemptElements : List String :=
  ["$_.unkempt ||| $suffix(/)", "b/", "$split", "$nospace(:)"]

end Sample

/-- The macro is asked without NUL in sight, and no context without NUL makes it answer with NUL. -/
theorem merge_evaluate_sample :
    Sample.behindX.NulFree Sample.behindX.machine ∧
    (∀ element ∈ Sample.unkemptElements,
      (Element.of Sample.behindX.exportArguments element).AnswersNulFree Sample.unkemptRegistry
        (fun _ => .ofValues []) Sample.behindX.machine) ∧
    Completion.merge [(evaluate Sample.unkemptRegistry (fun _ => .ofValues [])
      Sample.unkemptElements Sample.behindX).value] =
        (evaluate Sample.unkemptRegistry (fun _ => .ofValues []) Sample.unkemptElements
          Sample.behindX).value := by
  have contextFree : Sample.behindX.NulFree Sample.behindX.machine := {
    host := rfl
    process := fun _ _ found => nomatch found
    args := by decide
    value := by decide
    parts := by decide
    directory := by decide
    bindings := fun _ _ found => nomatch found }
  have kinds : Sample.unkemptElements.map (Element.of Sample.behindX.exportArguments) =
      [.candidates "$_.unkempt" ["$suffix(/)"], .literal "b/", .wrappers ["$split"],
        .wrappers ["$nospace(:)"]] := by
    decide +kernel
  have answersFree : ∀ element ∈ Sample.unkemptElements,
      (Element.of Sample.behindX.exportArguments element).AnswersNulFree Sample.unkemptRegistry
        (fun _ => .ofValues []) Sample.behindX.machine := by
    intro element member head modifiers kind called action resolved
    have listed := List.mem_map_of_mem (f := Element.of Sample.behindX.exportArguments) member
    rw [kinds, kind] at listed
    have only : head = "$_.unkempt" ∧ modifiers = ["$suffix(/)"] := by simpa using listed
    obtain ⟨rfl, rfl⟩ := only
    have answer : resolve Sample.unkemptRegistry (fun _ => .ofValues []) "$_.unkempt" =
        .ok (.ofCompletion { suggestions := [.ofValue "b", .ofValue "b"], nospace := "//" }) := rfl
    rw [answer] at resolved
    obtain rfl := Except.ok.inj resolved
    refine Action.gives_ofCompletion fun suggestion member => ?_
    simp only [List.mem_cons, List.not_mem_nil, or_false, or_self] at member
    rw [member]
    decide
  exact ⟨contextFree, answersFree, (merge_evaluate _ _ _ _ contextFree (by decide) answersFree).1⟩

end Expression
end TabSpec

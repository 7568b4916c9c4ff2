import TabSpec.Expression
import TabSpec.Proofs.Action.Layer
import TabSpec.Proofs.Text.Cut

/-! Elements of an expression list that fail. Such an element leaves a message and nothing else, so
what its siblings offer is not disturbed, whatever modifiers are layered on the list. -/
namespace TabSpec

/-- The answers of a batch are those of its actions. -/
theorem Action.value_batch (actions : List Action) (context : Context) :
    (batch actions context).value = .merge (actions.map fun action => (action context).value) := by
  have answers : (actions.mapM fun action : Action => action context).value =
      actions.map fun action => (action context).value := by
    induction actions with
    | nil => rfl
    | cons action rest ih =>
      rw [List.mapM_cons, List.map_cons, ← ih]
      rfl
  rw [← answers]
  rfl

namespace Expression

open Completion

/-- Any number of modifiers is a layer, on the same machine. -/
theorem layer_withModifiers (calls : List String) (context : Context) :
    Layer (·.machine = context.machine) fun action => withModifiers action calls context := by
  induction calls with
  | nil => exact .ask rfl
  | cons call rest ih =>
    refine ih.above fun middle place => (Modifier.layer_modify call middle).widen ?_
    rintro _ ⟨asked, same, rfl⟩
    rw [Modifier.machine_exportParts, same.machine, place]

section

variable (registry : Registry) (nested : SpecTarget → Action)

/-- An element fails with a message when its placeholders are malformed, or when it is a call
without modifiers behind it, itself no modifier, that stands for no action. -/
inductive Fails (context : Context) (text : String) : (message : String) → Prop where
  | placeholders (fault : SpecFault) (malformed : context.substitute text = .error fault) :
      Fails context text (fault.message ++ ": " ++ Text.quoted text)
  | call (filled : String) (fault : SpecFault) (fills : context.substitute text = .ok filled)
      (single : Text.contains separator filled = false) (called : isCall filled = true)
      (unnamed : Modifier.ofCall? filled = none)
      (unresolved : resolve registry nested filled = .error fault) :
      Fails context text fault.message

/-- What the elements that are no literals say, in order. -/
def messagesOf (context : Context) (elements : List String) : List String :=
  ((elements.map (Element.of context)).filterMap (Element.action? registry nested)).flatMap
    fun action => (action context).value.messages

end

variable {registry : Registry} {nested : SpecTarget → Action} {context : Context}

/-- An element that fails is neither a literal nor a bare modifier, and only leaves its message. -/
theorem Fails.element {text message : String} (fails : Fails registry nested context text message) :
    (Element.of context text).literal? = none ∧ (Element.of context text).calls = [] ∧
    ∃ action, (Element.of context text).action? registry nested = some action ∧
      ∀ context, (action context).value = .ofMessage message := by
  cases fails with
  | placeholders fault malformed =>
    simp only [Element.of, malformed]
    exact ⟨rfl, rfl, _, rfl, fun _ => rfl⟩
  | call filled fault fills single called unnamed unresolved =>
    have whole : headAndModifiers filled = (filled, []) := by
      simp only [headAndModifiers, Text.split_of_not_contains single]
    have candidates : Element.of context text = .candidates filled [] := by
      simp [Element.of, fills, Element.ofFilled, whole, called, unnamed]
    rw [candidates]
    refine ⟨rfl, rfl, Expression.call registry nested filled, ?_, ?_⟩
    · simp [Element.action?, called, withModifiers]
    · intro inner
      simp only [Expression.call, unresolved]
      rfl

theorem messagesOf_append (before after : List String) :
    messagesOf registry nested context (before ++ after) =
      messagesOf registry nested context before ++ messagesOf registry nested context after := by
  simp [messagesOf]

theorem Fails.messagesOf_cons {text message : String}
    (fails : Fails registry nested context text message) (elements : List String) :
    messagesOf registry nested context (text :: elements) =
      message :: messagesOf registry nested context elements := by
  obtain ⟨_, _, action, answers, told⟩ := fails.element
  simp [messagesOf, answers, told, ofMessage]

/-- Without bare modifiers the messages of a list are those of its elements. -/
theorem messages_evaluate {elements : List String}
    (plain : ∀ element ∈ elements, (Element.of context.exportArguments element).calls = []) :
    (evaluate registry nested elements context).value.messages =
      messagesOf registry nested context.exportArguments elements := by
  have unwrapped : (elements.map (Element.of context.exportArguments)).flatMap Element.calls =
      [] := by
    simpa [List.flatMap_eq_nil_iff] using plain
  simp only [evaluate, combine, unwrapped, withModifiers, List.foldl_nil, Action.value_batch,
    messages_merge, List.map_append, List.flatMap_append, List.flatMap_map]
  -- The literals stand behind all others and say nothing.
  have silent : (if ((elements.map (Element.of context.exportArguments)).filterMap
      Element.literal?).isEmpty then [] else [Action.ofSuggestions
        ((elements.map (Element.of context.exportArguments)).filterMap
          Element.literal?)]).flatMap (fun action =>
            (action context.exportArguments).value.messages) = [] := by
    split <;> rfl
  rw [silent, List.append_nil]
  rfl

/-- What a list offers does not depend on an element that fails. -/
theorem sameOffer_insert_failing {text message : String}
    (fails : Fails registry nested context.exportArguments text message)
    (before after : List String) :
    SameOffer (evaluate registry nested (before ++ text :: after) context).value
      (evaluate registry nested (before ++ after) context).value := by
  obtain ⟨noLiteral, noCalls, action, answers, told⟩ := fails.element
  simp only [evaluate, combine, List.map_append, List.map_cons, List.filterMap_append,
    List.filterMap_cons, noLiteral, answers, List.flatMap_append, List.flatMap_cons, noCalls,
    List.nil_append]
  -- The modifiers are the same, so the batches under them are compared, in every context.
  refine (layer_withModifiers _ context.exportArguments).sameOffer fun inner => ?_
  simp only [Action.value_batch, List.map_append, List.append_assoc, List.map_cons,
    List.cons_append, told]
  exact merge_insert_message ..

/-- An element that fails does not disturb its siblings: the list offers what it offers without the
element, and as long as no bare modifier stands in the list, all that is added is one message, in
the element's place among the messages of the others. -/
theorem evaluate_insert_failing (before after : List String) (text message : String)
    (fails : Fails registry nested context.exportArguments text message) :
    SameOffer (evaluate registry nested (before ++ text :: after) context).value
      (evaluate registry nested (before ++ after) context).value ∧
    ((∀ element ∈ before ++ after, ∀ calls,
        Element.of context.exportArguments element ≠ .wrappers calls) →
      (evaluate registry nested (before ++ after) context).value.messages =
        messagesOf registry nested context.exportArguments before ++
          messagesOf registry nested context.exportArguments after ∧
      (evaluate registry nested (before ++ text :: after) context).value.messages =
        messagesOf registry nested context.exportArguments before ++
          message :: messagesOf registry nested context.exportArguments after) := by
  refine ⟨sameOffer_insert_failing fails before after, ?_⟩
  intro unwrapped
  have plain : ∀ element ∈ before ++ after,
      (Element.of context.exportArguments element).calls = [] := by
    intro element member
    have other := unwrapped element member
    cases kind : Element.of context.exportArguments element with
    | wrappers calls => exact absurd kind (other calls)
    | literal _ => rfl
    | candidates _ _ => rfl
    | faulty _ => rfl
  constructor
  · rw [messages_evaluate plain, messagesOf_append]
  · rw [messages_evaluate, messagesOf_append, fails.messagesOf_cons]
    intro element member
    rcases List.mem_append.mp member with early | late
    · exact plain element (List.mem_append_left _ early)
    · rcases List.mem_cons.mp late with rfl | late
      · exact fails.element.2.1
      · exact plain element (List.mem_append_right _ late)

namespace Sample

/-- A context behind one argument. -/
def behindX : Context := { (default : Context) with args := ["x"] }

def evaluated (elements : List String) : Completion :=
  (evaluate (.empty "tool") (fun _ => .ofValues []) elements behindX).value

def said (elements : List String) : List String :=
  messagesOf (.empty "tool") (fun _ => .ofValues []) behindX.exportArguments elements

end Sample

/-- An unknown macro between a literal and a modified literal. -/
theorem evaluate_insert_failing_sample :
    Fails (.empty "tool") (fun _ => .ofValues []) Sample.behindX.exportArguments
      "$missing($\x7bC_ARG0\x7d)" (SpecFault.unknownMacro "$missing(x)").message ∧
    SameOffer (Sample.evaluated (["a"] ++ "$missing($\x7bC_ARG0\x7d)" :: ["b ||| $suffix(/)"]))
      (Sample.evaluated (["a"] ++ ["b ||| $suffix(/)"])) ∧
    (Sample.evaluated (["a"] ++ "$missing($\x7bC_ARG0\x7d)" :: ["b ||| $suffix(/)"])).messages =
      Sample.said ["a"] ++ (SpecFault.unknownMacro "$missing(x)").message ::
        Sample.said ["b ||| $suffix(/)"] := by
  have expanded : Substitution.expandChars Sample.behindX.exportArguments.get?
      "$missing($\x7bC_ARG0\x7d)".toList = some "$missing(x)".toList := by
    decide +kernel
  have fills : Sample.behindX.exportArguments.substitute "$missing($\x7bC_ARG0\x7d)" =
      .ok "$missing(x)" := by
    rw [Context.substitute, Substitution.expand, expanded]
    exact congrArg Except.ok String.ofList_toList
  have fails : Fails (.empty "tool") (fun _ => .ofValues []) Sample.behindX.exportArguments
      "$missing($\x7bC_ARG0\x7d)" (SpecFault.unknownMacro "$missing(x)").message :=
    .call "$missing(x)" (.unknownMacro "$missing(x)") fills (by decide) (by decide) (by decide)
      rfl
  have literal : Element.of Sample.behindX.exportArguments "a" = .literal "a" := by
    decide +kernel
  have modified : Element.of Sample.behindX.exportArguments "b ||| $suffix(/)" =
      .candidates "b" ["$suffix(/)"] := by
    decide +kernel
  obtain ⟨same, messages⟩ := evaluate_insert_failing ["a"] ["b ||| $suffix(/)"] _ _ fails
  refine ⟨fails, same, (messages ?_).2⟩
  intro element member calls
  rcases List.mem_cons.mp member with rfl | later
  · rw [literal]
    simp
  · rw [List.mem_singleton.mp later, modified]
    simp

end Expression
end TabSpec

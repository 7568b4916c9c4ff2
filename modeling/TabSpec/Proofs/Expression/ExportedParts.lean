import TabSpec.Proofs.Context.Parts
import TabSpec.Proofs.Expression.Siblings

/-! The variables for the parts, as the action below a chain of modifiers sees them. Each modifier
exports the parts of the context in which it asks, and the variables of the contexts further out
stay where it has fewer parts than they have. -/
namespace TabSpec

namespace Action

/-- Answering in one context, a layer asks the action below it in another one: what it answers
depends on what the action answers there, and there alone. -/
def Invokes (layer : Action → Action) (context inner : Context) : Prop :=
  ∃ first second : Action, (∀ other, other ≠ inner → first other = second other) ∧
    layer first context ≠ layer second context

/-- An action that offers nothing and tells by being cut off what it was asked for. -/
def probe (holds : Context → Bool) : Action := fun context => ⟨.empty, [], holds context⟩

end Action

namespace Layer

open TabSpec.Action

variable {reached : Context → Prop} {layer : Action → Action} {context : Context}

/-- A layer asks only within its reach. -/
theorem reached_of_invokes (asks : Layer reached fun action => layer action context)
    {inner : Context} (invoked : Invokes layer context inner) : reached inner := by
  obtain ⟨first, second, agree, apart⟩ := invoked
  cases asks with
  | answers answer told => exact absurd ((told first).trans (told second).symm) apart
  | asks asked place change quiet told =>
    by_cases same : asked = inner
    · exact same ▸ place
    · refine absurd ?_ apart
      rw [told first, told second, agree asked same]

/-- The changed answer of the action in a context depends on that answer. -/
theorem invokes_of_told {inner : Context} {change : Completion → Completion}
    (told : ∀ action, layer action context = change <$> action inner) :
    Invokes layer context inner := by
  classical
  refine ⟨probe fun _ => false, probe fun other => decide (other = inner), ?_, ?_⟩
  · intro other apart
    simp [probe, apart]
  · intro same
    have cutOff := congrArg Traced.cutOff same
    rw [told, told, Traced.map_eq, Traced.map_eq] at cutOff
    simp [probe] at cutOff

/-- Whatever a layer asks for can be probed. -/
theorem exists_invokes (asks : Layer reached fun action => layer action context)
    (holds : Context → Bool) (probed : (layer (probe holds) context).cutOff = true) :
    ∃ inner, Invokes layer context inner ∧ holds inner = true := by
  cases asks with
  | answers answer told =>
    rw [told] at probed
    cases probed
  | asks inner place change quiet told =>
    rw [told, Traced.map_eq] at probed
    exact ⟨inner, invokes_of_told told, probed⟩

/-- Actions that agree where they are asked make the same answer. -/
theorem eq_of_invokes (asks : Layer reached fun action => layer action context)
    {first second : Action}
    (agree : ∀ inner, Invokes layer context inner → first inner = second inner) :
    layer first context = layer second context := by
  cases asks with
  | answers answer told => rw [told first, told second]
  | asks inner place change quiet told =>
    rw [told first, told second, agree inner (invokes_of_told told)]

/-- What lies below two layers is asked by the lower one, which the upper one asks. -/
theorem exists_between (asks : Layer reached fun action => layer action context)
    (under : Action → Action) {inner : Context}
    (invoked : Invokes (fun action => layer (under action)) context inner) :
    ∃ middle, Invokes layer context middle ∧ Invokes under middle inner := by
  obtain ⟨first, second, agree, apart⟩ := invoked
  cases asks with
  | answers answer told =>
    exact absurd ((told (under first)).trans (told (under second)).symm) apart
  | asks middle place change quiet told =>
    refine ⟨middle, invokes_of_told told, first, second, agree, fun same => apart ?_⟩
    exact (told (under first)).trans (same ▸ (told (under second)).symm)

end Layer

namespace Expression

open TabSpec.Action

/-- The contexts in which the layers of a chain ask each other, the innermost first. The chain
begins with the innermost call and is asked in the given context. -/
inductive Passes (context : Context) : List String → List Context → Prop
  | nil : Passes context [] []
  | cons {call : String} {calls : List String} {path : List Context} {inner : Context}
      (outer : Passes context calls path)
      (asks : Invokes (Modifier.modify · call) (path.headD context) inner) :
      Passes context (call :: calls) (inner :: path)

/-- What lies below a chain is asked by its layers, one after the other. -/
theorem exists_passes {context inner : Context} {calls : List String}
    (invoked : Invokes (withModifiers · calls) context inner) :
    ∃ path, Passes context calls path ∧ path.headD context = inner := by
  induction calls generalizing inner with
  | nil =>
    have alone : Layer (· = context) fun action => withModifiers action [] context := .ask rfl
    exact ⟨[], .nil, (alone.reached_of_invokes invoked).symm⟩
  | cons call rest ih =>
    obtain ⟨middle, above, asks⟩ := (layer_withModifiers rest context).exists_between
      (Modifier.modify · call) invoked
    obtain ⟨path, passes, rfl⟩ := ih above
    exact ⟨inner :: path, .cons passes asks, rfl⟩

namespace Passes

variable {context inner : Context} {calls : List String} {path : List Context}

/-- Each layer asks in a context that it has exported. -/
theorem exists_exported (passes : Passes context calls (inner :: path)) :
    ∃ asked : Context, asked.bindings = (path.headD context).bindings ∧
      inner = asked.exportParts := by
  cases passes with
  | cons outer asks =>
    obtain ⟨asked, same, exported⟩ := (Modifier.layer_modify _ _).reached_of_invokes asks
    exact ⟨asked, same.bindings, exported⟩

theorem get?_value (passes : Passes context calls (inner :: path)) :
    inner.bindings.get? "C_VALUE" = some inner.value := by
  obtain ⟨asked, _, rfl⟩ := passes.exists_exported
  rw [Context.get?_exportParts_value, Context.value_exportParts]

/-- The variable of a part holds it as the innermost context has it that has such a part. -/
theorem get?_part (clean : ∀ index, context.bindings.get? (Context.partVariable index) = none)
    (passes : Passes context calls path) (index : Nat) :
    (path.headD context).bindings.get? (Context.partVariable index) =
      path.findSome? (·.parts[index]?) := by
  induction passes with
  | nil => exact clean index
  | @cons call calls path inner outer asks ih =>
    obtain ⟨asked, same, rfl⟩ := (Passes.cons outer asks).exists_exported
    rw [List.headD_cons, Context.get?_exportParts_part, same, ih, List.findSome?_cons,
      Context.parts_exportParts]
    cases asked.parts[index]? <;> rfl

end Passes

/-- What a chain of modifiers answers depends on the action below it only where that is asked, and
there the variables for the value and for the parts that there are describe them. The variable for a
part that there is not keeps what the nearest layer around exported that had one. -/
theorem exported_of_invokes {context : Context}
    (clean : ∀ index, context.bindings.get? (Context.partVariable index) = none)
    (call : String) (calls : List String) :
    (∀ first second : Action,
      (∀ inner, Invokes (withModifiers · (call :: calls)) context inner →
        first inner = second inner) →
      withModifiers first (call :: calls) context = withModifiers second (call :: calls) context) ∧
    ∀ inner, Invokes (withModifiers · (call :: calls)) context inner →
      inner.bindings.get? "C_VALUE" = some inner.value ∧
      (∀ index, index < inner.parts.length →
        inner.bindings.get? (Context.partVariable index) = inner.parts[index]?) ∧
      ∃ outer, Passes context (call :: calls) (inner :: outer) ∧
        ∀ index, inner.parts.length ≤ index →
          inner.bindings.get? (Context.partVariable index) =
            outer.findSome? (·.parts[index]?) := by
  refine ⟨fun first second => (layer_withModifiers _ context).eq_of_invokes, ?_⟩
  intro inner invoked
  obtain ⟨path, passes, reaches⟩ := exists_passes invoked
  cases path with
  | nil => cases passes
  | cons asked outer =>
    obtain rfl : asked = inner := reaches
    have exported (index : Nat) : asked.bindings.get? (Context.partVariable index) =
        (asked :: outer).findSome? (·.parts[index]?) := passes.get?_part clean index
    refine ⟨passes.get?_value, fun index there => ?_, outer, passes, fun index beyond => ?_⟩
    · rw [exported, List.findSome?_cons, List.getElem?_eq_getElem there]
    · rw [exported, List.findSome?_cons, List.getElem?_eq_none beyond]

namespace Sample

/-- The third entry of a list is typed. -/
def typed : Context := { (default : Context) with value := "a,b,c" }

/-- A list within the entries of a list. -/
def listed : List String := ["$list(/)", "$uniquelist(,)"]

theorem clean_typed (index : Nat) : typed.bindings.get? (Context.partVariable index) = none := rfl

end Sample

/-- Within the third entry, the first part of the outer list is still exported. -/
theorem exported_of_invokes_sample :
    (∀ index, Sample.typed.bindings.get? (Context.partVariable index) = none) ∧
    ∃ inner, Invokes (withModifiers · Sample.listed) Sample.typed inner ∧
      inner.bindings.get? "C_VALUE" = some inner.value ∧
      ∃ outer, Passes Sample.typed Sample.listed (inner :: outer) ∧
        some "b" = outer.findSome? (·.parts[1]?) := by
  obtain ⟨inner, invoked, found⟩ := (layer_withModifiers Sample.listed Sample.typed).exists_invokes
    (fun inner => decide (inner.parts = [] ∧
      inner.bindings.get? (Context.partVariable 1) = some "b")) (by decide +kernel)
  obtain ⟨empty, kept⟩ := of_decide_eq_true found
  obtain ⟨value, _, outer, passes, stays⟩ :=
    (exported_of_invokes Sample.clean_typed "$list(/)" ["$uniquelist(,)"]).2 inner invoked
  refine ⟨Sample.clean_typed, inner, invoked, value, outer, passes, ?_⟩
  rw [← kept, stays 1 (by rw [empty]; exact Nat.zero_le 1)]

/-- The action in the inner list has no parts, and a variable for one. -/
theorem inner_list_keeps_part :
    (∀ index, Sample.typed.bindings.get? (Context.partVariable index) = none) ∧
    ∃ inner, Invokes (withModifiers · Sample.listed) Sample.typed inner ∧
      inner.value = "c" ∧ inner.parts = [] ∧
      inner.bindings.get? (Context.partVariable 0) = some "a" := by
  obtain ⟨inner, invoked, found⟩ := (layer_withModifiers Sample.listed Sample.typed).exists_invokes
    (fun inner => decide (inner.value = "c" ∧ inner.parts = [] ∧
      inner.bindings.get? (Context.partVariable 0) = some "a")) (by decide +kernel)
  exact ⟨Sample.clean_typed, inner, invoked, of_decide_eq_true found⟩

end Expression
end TabSpec

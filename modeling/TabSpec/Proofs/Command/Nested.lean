import TabSpec.CoreMacros
import TabSpec.Proofs.Walk.Exported

/-! What a nested specification can see of the one that refers to it: the arguments that are not
hidden from it and the typed value, but none of the variables set for the evaluation around it, no
parts, and none of the hidden arguments. This does not depend on what the macros do that it calls,
because already the contexts that they are asked in are the same. -/
namespace TabSpec

/-- Contexts at one place, on one machine, with the same variables besides those that evaluations
set. -/
structure Context.SamePlace (first second : Context) : Prop where
  machine : first.machine = second.machine
  directory : first.directory = second.directory
  ownBindings : first.ownBindings = second.ownBindings

/-- Contexts that may differ only in what is hidden from a nested specification. -/
structure Context.SameBehind (offset : Nat) (first second : Context) : Prop
    extends first.SamePlace second where
  value : first.value = second.value
  args : first.args.drop offset = second.args.drop offset

namespace Context.SamePlace

variable {first second : Context} (same : first.SamePlace second)

include same

theorem resolve (path : String) : first.resolve path = second.resolve path := by
  unfold Context.resolve
  rw [same.machine, same.directory]

/-- Behind a walk nothing is left of what may differ, once the value is set. -/
theorem context (walk : Walk) (value : String) :
    { walk.context first with value } = { walk.context second with value } := by
  rw [Walk.context_eq, Walk.context_eq]
  simp only [same.machine, same.directory, same.ownBindings]

theorem complete (command : Command) (registry : Registry) (nested : SpecTarget → Action)
    (args : List String) :
    command.complete registry nested first args = command.complete registry nested second args := by
  unfold Command.complete
  simp only [same.context]

end Context.SamePlace

theorem fileCompletion_eq_of_sameBehind (registry : Registry) (nested : SpecTarget → Action)
    (target : SpecTarget) {first second : Context} (same : first.SameBehind target.offset second) :
    fileCompletion registry nested target first = fileCompletion registry nested target second := by
  unfold fileCompletion
  simp only [same.machine, same.value, same.args, same.resolve, same.complete]

/-- A nested specification, however deep those go that it refers to, cannot observe the one that
refers to it: the completion and what is logged of it are the same in contexts that differ only in
what is hidden from it. The macro for nested specifications completes at depth `nestingLimit`. -/
theorem nestedCompletion_eq_of_sameBehind (registry : Registry) (depth : Nat) (target : SpecTarget)
    {first second : Context} (same : first.SameBehind target.offset second) :
    nestedCompletion registry depth target first =
      nestedCompletion registry depth target second := by
  cases depth with
  | zero => rfl
  | succ depth =>
    exact fileCompletion_eq_of_sameBehind registry (nestedCompletion registry depth) target same

namespace Sample

/-- A machine with a specification that asks for what lies around it. -/
def nestedMachine : Machine :=
  { (default : Machine) with
    files := FileTree.empty.put ["work", "nested.yaml"] (.file
      ("name: nested\ncompletion:\n  positionalany: " ++
        "[\"$\x7bC_ARG0:-unset\x7d\", \"flag:$\x7bC_FLAG_LEVEL:-unset\x7d\"]\n") false) }

/-- Behind a flag and an argument of the specification around, while a word is typed in parts. -/
def behindLevel : Context :=
  { args := ["a", "x"], value := "y", parts := ["p"], directory := "/work", machine := nestedMachine
    bindings := .ofList [("C_ARG0", "a"), ("C_FLAG_LEVEL", "3"), ("LANG", "C")] }

/-- Behind another argument, with no flag. -/
def behindOther : Context :=
  { args := ["b", "x"], value := "y", parts := [], directory := "/work", machine := nestedMachine
    bindings := .ofList [("C_ARG0", "b"), ("LANG", "C")] }

end Sample

/-- The first argument, the flag and the parts are hidden. -/
theorem nestedCompletion_eq_of_sameBehind_sample :
    Sample.behindLevel.args ≠ Sample.behindOther.args ∧
    Sample.behindLevel.parts ≠ Sample.behindOther.parts ∧
    Sample.behindLevel.get? "C_FLAG_LEVEL" = some "3" ∧
    Sample.behindOther.get? "C_FLAG_LEVEL" = none ∧
    Sample.behindLevel.SameBehind 1 Sample.behindOther ∧
    (Registry.withCore "tool").nested ⟨"nested.yaml", 1⟩ Sample.behindLevel =
      (Registry.withCore "tool").nested ⟨"nested.yaml", 1⟩ Sample.behindOther := by
  have same : Sample.behindLevel.SameBehind 1 Sample.behindOther :=
    { machine := rfl
      directory := rfl
      ownBindings := by decide +kernel
      value := rfl
      args := rfl }
  exact ⟨by decide, by decide, by decide +kernel, by decide +kernel, same,
    nestedCompletion_eq_of_sameBehind _ nestingLimit ⟨"nested.yaml", 1⟩ same⟩

end TabSpec

import Mathlib.Data.List.Basic
import TabSpec.Proofs.Command.Delegation
import TabSpec.Proofs.Command.Termination
import TabSpec.Proofs.Command.WellFormed
import TabSpec.Proofs.Expression.OwnCalls

/-! What depends on a macro of the program's own. Registering it changes what is said of calls of it, and
nothing else, except through nested specifications: they are completed with the same macros, so a call
that leads to a specification which calls the macro depends on it, too. -/
namespace TabSpec

variable {registry : Registry} {name : String}

namespace Expression

/-- No call among the elements is one of the macro, once their placeholders are filled. -/
def Avoids (registry : Registry) (name : String) (context : Context) (elements : List String) : Prop :=
  ∀ head modifiers, Element.candidates head modifiers ∈ elements.map (Element.of context) →
    ¬ registry.CallsOwn name head

end Expression

namespace CommandSpec

/-- Nowhere in the tree does a position mention a call of the macro. -/
def Avoids (registry : Registry) (name : String) (spec : CommandSpec) : Prop :=
  ∀ path above node, nodeAt? CommandSpec.commands spec path = some (above, node) →
    ∀ elements ∈ node.completion.positionalAny :: node.completion.positional,
      Expression.AvoidsAsWritten registry name elements

theorem avoids_iff {spec : CommandSpec} :
    spec.Avoids registry name ↔
      (∀ elements ∈ spec.completion.positionalAny :: spec.completion.positional,
        Expression.AvoidsAsWritten registry name elements) ∧
      ∀ child ∈ spec.commands, child.Avoids registry name :=
  forall_nodeAt?_iff

theorem node_addCustom (plain : '(' ∉ registry.program.toList) {spec : CommandSpec}
    (avoids : ∀ elements ∈ spec.completion.positionalAny :: spec.completion.positional,
      Expression.AvoidsAsWritten registry name elements)
    (entry : Macro) (capabilities : Capabilities) (inherited : Inheritance) :
    node (registry.addCustom name entry) capabilities inherited spec =
      node registry capabilities inherited spec := by
  have raw (elements : List String)
      (member : elements ∈ spec.completion.positionalAny :: spec.completion.positional) :
      Expression.takesRaw (registry.addCustom name entry) elements =
        Expression.takesRaw registry elements :=
    Expression.takesRaw_addCustom plain (avoids elements member) entry
  have positions : spec.completion.positional.findIdx?
        (Expression.takesRaw (registry.addCustom name entry)) =
      spec.completion.positional.findIdx? (Expression.takesRaw registry) := by
    have told (asked : Registry) : spec.completion.positional.findIdx? (Expression.takesRaw asked) =
        (spec.completion.positional.map (Expression.takesRaw asked)).findIdx? id := by
      rw [List.findIdx?_map]
      rfl
    rw [told, told, List.map_congr_left fun elements member =>
      raw elements (List.mem_cons_of_mem _ member)]
  have inferred : inferredMode (registry.addCustom name entry) spec.completion =
      inferredMode registry spec.completion := by
    simp only [inferredMode, positions, raw _ List.mem_cons_self]
  simp only [node, settledMode, inferred]

mutual

theorem assemble_addCustom (plain : '(' ∉ registry.program.toList) (entry : Macro)
    (capabilities : Capabilities) (inherited : Inheritance) (spec : CommandSpec)
    (avoids : spec.Avoids registry name) :
    assemble (registry.addCustom name entry) capabilities inherited spec =
      assemble registry capabilities inherited spec := by
  obtain ⟨here, below⟩ := avoids_iff.mp avoids
  obtain ⟨name, aliases, description, group, hidden, parsing, flags, persistentFlags, exclusiveFlags,
    run, completion, commands⟩ := spec
  rw [assemble, assemble, node_addCustom plain here]
  refine bind_congr fun command => bind_congr fun _ => ?_
  dsimp only
  rw [assembleAll_addCustom plain entry capabilities _ commands below]

theorem assembleAll_addCustom (plain : '(' ∉ registry.program.toList) (entry : Macro)
    (capabilities : Capabilities) (inherited : Inheritance) (specs : List CommandSpec)
    (avoid : ∀ spec ∈ specs, spec.Avoids registry name) :
    assembleAll (registry.addCustom name entry) capabilities inherited specs =
      assembleAll registry capabilities inherited specs := by
  cases specs with
  | nil => rfl
  | cons spec rest =>
    obtain ⟨first, others⟩ := List.forall_mem_cons.mp avoid
    rw [assembleAll, assembleAll, assemble_addCustom plain entry capabilities inherited spec first,
      assembleAll_addCustom plain entry capabilities inherited rest others]

end

end CommandSpec

/-- The specification of an invocation does not call the macro: neither where its positions are listed, nor
in the slot that completes the last argument. -/
structure Invocation.Avoids (registry : Registry) (name : String) (invocation : Invocation) : Prop where
  modes : ∀ spec, CommandSpec.load invocation.2.machine.files (invocation.2.resolve invocation.1.path)
      (invocation.2.resolve invocation.1.path) = .ok spec → spec.Avoids registry name
  slot : ∀ spec command elements,
    CommandSpec.load invocation.2.machine.files (invocation.2.resolve invocation.1.path)
      (invocation.2.resolve invocation.1.path) = .ok spec →
    (spec.build registry .extended).value = .ok command →
    command.completedSlot? (invocation.2.args.drop invocation.1.offset ++ [invocation.2.value]) =
      some (.expressions elements) →
    Expression.Avoids registry name (command.completedContext invocation.2
      (invocation.2.args.drop invocation.1.offset ++ [invocation.2.value])).exportArguments elements

/-- What an invocation leads to is led to by what asks for the invocation. -/
theorem Reached.behind {read : (SpecTarget → Action) → Traced Completion} {first next : Invocation}
    (asks : Asks read first) (reached : Reached registry (first.reads registry) next) :
    Reached registry read next := by
  induction reached with
  | asked later => exact .further (.asked asks) later
  | further _ later ih => exact .further ih later

namespace Invocation

end Invocation

namespace Expression

end Expression

namespace Sample

end Sample

namespace Expression

end Expression
end TabSpec

import TabSpec.Proofs.Command.Slot
import TabSpec.Proofs.Completion.Normal
import TabSpec.Proofs.Expression.Siblings
import TabSpec.Proofs.Outcome
import TabSpec.Proofs.Run.Source

/-! Completing through a slot that names another specification is completing that specification with
the slot's arguments behind the hidden ones. It is always assembled with the extended capabilities,
whichever the command around it was assembled with. -/
namespace TabSpec

/-! ### Elements that name a specification -/

/-- A registry that knows the macro for nested specifications under its name. -/
structure Registry.KnowsSpec (registry : Registry) : Prop where
  entry : ∃ entry, registry.get? "spec" = some entry ∧ entry.body = .nested ∧ entry.shape ≠ .none
  /-- No call of the macro is taken for one of the program's own. -/
  program : '(' ∉ registry.program.toList

namespace Expression

theorem resolve_spec {registry : Registry} (knows : registry.KnowsSpec)
    (nested : SpecTarget → Action) {argument : String} {target : SpecTarget}
    (line : '\n' ∉ argument.toList) (decoded : SpecTarget.decode argument = .ok target) :
    resolve registry nested (Call.written "spec" argument) = .ok (nested target) := by
  have parsed := Call.parse_written (by decide : '(' ∉ "spec".toList) line
  obtain ⟨entry, found, kind, shape⟩ := knows.entry
  rw [resolve_of_parse nested knows.program parsed (by decide) (by decide) found]
  simp [Macro.action, shape, kind, decoded, Except.map]

/-- An element that is, once it is filled, a call for the specification of a target. -/
structure NamesSpec (context : Context) (element : String) (target : SpecTarget) : Prop where
  call : ∃ argument, context.substitute element = .ok (Call.written "spec" argument) ∧
    '\n' ∉ argument.toList ∧ Text.contains separator (Call.written "spec" argument) = false ∧
    SpecTarget.decode argument = .ok target

theorem value_evaluate_of_namesSpec {registry : Registry} (knows : registry.KnowsSpec)
    (nested : SpecTarget → Action) {context : Context} {element : String} {target : SpecTarget}
    (names : NamesSpec context.exportArguments element target) :
    (evaluate registry nested [element] context).value =
      .merge [(nested target context.exportArguments).value] := by
  obtain ⟨argument, filled, line, single, decoded⟩ := names.call
  have resolved := resolve_spec knows nested line decoded
  have called : isCall (Call.written "spec" argument) = true := by
    simp [isCall, Text.startsWith, Call.toList_written, Text.after?]
  have unnamed : Modifier.ofCall? (Call.written "spec" argument) = none :=
    (Call.modifier_of_parse (Call.parse_written (by decide) line)).trans (by decide)
  have kind : Element.of context.exportArguments element =
      .candidates (Call.written "spec" argument) [] := by
    simp [Element.of, filled, Element.ofFilled, headAndModifiers, Text.split_of_not_contains single,
      called, unnamed]
  simp [evaluate, combine, kind, called, Element.action?, Element.literal?, Element.calls,
    withModifiers, Action.value_batch, Expression.call, resolved]

end Expression

/-! ### Completing through a slot -/

/-- Completing a specification from a file is completing the command that is assembled from it, with
the extended capabilities, at the same place; what fails leaves a message. -/
theorem value_fileCompletion (registry : Registry) (nested : SpecTarget → Action)
    (target : SpecTarget) {context base : Context} (same : context.SamePlace base) :
    (∀ fault, CommandSpec.load base.machine.files (base.resolve target.path)
        (base.resolve target.path) = .error fault →
      (fileCompletion registry nested target context).value = .ofMessage fault.message) ∧
    ∀ spec, CommandSpec.load base.machine.files (base.resolve target.path)
        (base.resolve target.path) = .ok spec →
      (∀ fault, (spec.build registry .extended).value = .error fault →
        (fileCompletion registry nested target context).value = .ofMessage fault.message) ∧
      ∀ command, (spec.build registry .extended).value = .ok command →
        (fileCompletion registry nested target context).value =
          (command.complete registry nested base
            (context.args.drop target.offset ++ [context.value])).value := by
  simp only [← same.machine, ← same.resolve]
  refine ⟨fun fault failed => ?_, fun spec loaded => ⟨fun fault failed => ?_, fun command built => ?_⟩⟩
  · simp [fileCompletion, failed, Traced.bind_eq, Traced.pure_eq]
  · simp [fileCompletion, loaded, failed, Traced.bind_eq, Traced.pure_eq]
  · simp [fileCompletion, loaded, built, Traced.bind_eq, same.complete]

namespace Command

/-- Completing a slot with one element that names a specification. A specification that cannot be read
or assembled leaves its fault as the only answer; otherwise the answer is what the command assembled
from it offers at the same place, for the slot's arguments behind the hidden ones and the slot's
value. It is assembled with the extended capabilities: those of the command around it play no part. -/
theorem complete_through_spec {registry : Registry} (knows : registry.KnowsSpec) (depth : Nat)
    {command : Command} {base : Context} {args : List String} {element : String}
    {target : SpecTarget} (slot : command.completedSlot? args = some (.expressions [element]))
    (names : Expression.NamesSpec (command.completedContext base args).exportArguments element
      target) :
    let path := base.resolve target.path
    let around := command.completedContext base args
    let answer := (command.complete registry (nestedCompletion registry (depth + 1)) base args).value
    (∀ fault, CommandSpec.load base.machine.files path path = .error fault →
      answer = command.finished args (.ofMessage fault.message)) ∧
    ∀ spec, CommandSpec.load base.machine.files path path = .ok spec →
      (∀ fault, (spec.build registry .extended).value = .error fault →
        answer = command.finished args (.ofMessage fault.message)) ∧
      ∀ inner, (spec.build registry .extended).value = .ok inner →
        answer = command.finished args (.merge [(inner.complete registry
          (nestedCompletion registry depth) base
            (around.args.drop target.offset ++ [around.value])).value]) := by
  intro path around answer
  have asked : answer = command.finished args
      (.merge [(fileCompletion registry (nestedCompletion registry depth) target
        around.exportArguments).value]) := by
    have told := Expression.value_evaluate_of_namesSpec knows (nestedCompletion registry (depth + 1))
      names
    simp only [answer, complete_eq, slot, askSlot, Slot.action, Traced.bind_eq, Traced.map_eq, told]
    rfl
  have same : around.exportArguments.SamePlace base :=
    around.samePlace_exportArguments.trans (Walk.samePlace_slotContext ..)
  have alone (message : String) : Completion.merge [.ofMessage message] = .ofMessage message :=
    (Completion.merge_singleton_eq_self_iff _).mpr (Completion.isNormal_ofMessage message)
  obtain ⟨unread, read⟩ := value_fileCompletion registry (nestedCompletion registry depth) target same
  refine ⟨fun fault failed => ?_, fun spec loaded => ⟨fun fault failed => ?_, fun inner built => ?_⟩⟩
  · rw [asked, unread fault failed, alone]
  · rw [asked, (read spec loaded).1 fault failed, alone]
  · rw [asked, (read spec loaded).2 inner built, Context.args_exportArguments,
      Context.value_exportArguments]

end Command

namespace Registry

theorem knowsSpec_withCore {program : String} (plain : '(' ∉ program.toList) :
    (withCore program).KnowsSpec := by
  refine ⟨?_, by rwa [withCore_eq]⟩
  have known : ((OrderedMap.ofList coreMacros).get? "spec").any (fun entry =>
      entry.shape != .none && match entry.body with
        | .nested => true
        | .action _ => false) = true := by
    decide +kernel
  obtain ⟨entry, found, holds⟩ := (Option.any_eq_true _ _).mp known
  rw [withCore_eq]
  refine ⟨entry, found, ?_, ?_⟩
  · cases kind : entry.body with
    | nested => rfl
    | action build => simp [kind] at holds
  · simpa using (Bool.and_eq_true_iff.mp holds).1

end Registry

namespace Sample

/-- A machine with a specification whose flag has a shorthand only. -/
def shorthandMachine : Machine :=
  { (default : Machine) with
    files := FileTree.empty.put ["work", "nested.yaml"] (.file
      "name: nested\nflags:\n  -x: d\ncompletion:\n  positional: [[a]]\n" false) }

def atWork : Context :=
  { args := [], value := "", parts := [], directory := "/work", machine := shorthandMachine
    bindings := .empty }

/-- A specification without flags that completes its arguments with another one. -/
def delegating : CommandSpec :=
  { CommandSpec.empty with
    name := "parent"
    completion := { CompletionSpec.empty with positionalAny := ["$spec(nested.yaml, 1)"] } }

end Sample

namespace Command

/-- Behind the argument that is hidden. -/
theorem complete_through_spec_sample :
    ∃ command spec inner,
      (Sample.delegating.build (.withCore "tool") .posix).value = .ok command ∧
      CommandSpec.load Sample.atWork.machine.files "/work/nested.yaml" "/work/nested.yaml" =
        .ok spec ∧
      (spec.build (.withCore "tool") .extended).value = .ok inner ∧
      (command.complete (.withCore "tool") (Registry.withCore "tool").nested Sample.atWork
          ["run", ""]).value =
        command.finished ["run", ""] (.merge [(inner.complete (.withCore "tool")
          (nestedCompletion (.withCore "tool") 999) Sample.atWork [""]).value]) := by
  have outer : (Sample.delegating.build (.withCore "tool") .posix).value.toOption.any
      (fun command =>
        command.completedSlot? ["run", ""] = some (.expressions ["$spec(nested.yaml, 1)"]) &&
        ((command.completedContext Sample.atWork ["run", ""]).exportArguments.substitute
          "$spec(nested.yaml, 1)").toOption = some "$spec(nested.yaml, 1)" &&
        (command.completedContext Sample.atWork ["run", ""]).args = ["run"] &&
        (command.completedContext Sample.atWork ["run", ""]).value = "") = true := by
    decide +kernel
  have file : (CommandSpec.load Sample.atWork.machine.files "/work/nested.yaml"
      "/work/nested.yaml").toOption.any (fun spec =>
        (spec.build (.withCore "tool") .extended).value.toOption.isSome) = true := by
    decide +kernel
  obtain ⟨command, built, facts⟩ := exists_of_toOption_any outer
  obtain ⟨spec, loaded, buildable⟩ := exists_of_toOption_any file
  simp only [Bool.and_eq_true, decide_eq_true_eq] at facts
  obtain ⟨⟨⟨slot, filled⟩, behind⟩, typed⟩ := facts
  obtain ⟨inner, assembled⟩ := Option.isSome_iff_exists.mp buildable
  have names : Expression.NamesSpec
      (command.completedContext Sample.atWork ["run", ""]).exportArguments "$spec(nested.yaml, 1)"
      ⟨"nested.yaml", 1⟩ :=
    ⟨"nested.yaml, 1", eq_ok_of_toOption filled, by decide, by decide +kernel,
      eq_ok_of_toOption (by decide +kernel)⟩
  have knows : (Registry.withCore "tool").KnowsSpec := Registry.knowsSpec_withCore (by decide)
  have answer := ((complete_through_spec knows 999 slot names).2 spec loaded).2 inner
    (eq_ok_of_toOption assembled)
  rw [behind, typed] at answer
  exact ⟨command, spec, inner, built, loaded, eq_ok_of_toOption assembled, answer⟩

/-- A specification that is refused with the POSIX capabilities completes the position of a command
that was assembled with them. -/
theorem nested_ignores_capabilities :
    ∃ command spec,
      (Sample.delegating.build (.withCore "tool") .posix).value = .ok command ∧
      CommandSpec.load Sample.atWork.machine.files "/work/nested.yaml" "/work/nested.yaml" =
        .ok spec ∧
      (spec.build (.withCore "tool") .posix).value.toOption = none ∧
      (command.complete (.withCore "tool") (Registry.withCore "tool").nested Sample.atWork
        ["run", ""]).value = .ofValues ["a"] := by
  have outer : (Sample.delegating.build (.withCore "tool") .posix).value.toOption.any
      (fun command => (command.complete (.withCore "tool") (Registry.withCore "tool").nested
        Sample.atWork ["run", ""]).value = .ofValues ["a"]) = true := by
    decide +kernel
  have file : (CommandSpec.load Sample.atWork.machine.files "/work/nested.yaml"
      "/work/nested.yaml").toOption.any (fun spec =>
        (spec.build (.withCore "tool") .posix).value.toOption.isNone) = true := by
    decide +kernel
  obtain ⟨command, built, answer⟩ := exists_of_toOption_any outer
  obtain ⟨spec, loaded, refused⟩ := exists_of_toOption_any file
  exact ⟨command, spec, built, loaded, Option.isNone_iff_eq_none.mp refused,
    of_decide_eq_true answer⟩

end Command
end TabSpec

import TabSpec.Action.Files
import TabSpec.Command.Assembly
import TabSpec.Command.Complete
import TabSpec.Spec.Reading

/-! The macros that every registry starts with, and completion through specifications that refer to
each other. -/
namespace TabSpec

/-- Names of modifiers that are listed among the macros; as macros they offer nothing. -/
def placeholders : List String := ["chdir", "list", "multiparts", "nospace", "uniquelist"]

private def placeholder : Macro := .ofSingle fun _ : String => Action.ofValues []

/-- The core macros in the order of their registration. -/
def coreMacros : List (String × Macro) :=
  placeholders.map (·, placeholder) ++
  [("directories", (Macro.ofAction Action.directories).described
      "directories below the typed path"),
   ("files", (Macro.ofVariadic Action.files).described
      "files, optionally restricted to suffixes"),
   ("executables", (Macro.ofVariadic Action.executables).described
      "executables in PATH or the given directories"),
   ("message", (Macro.ofSingle Action.ofMessage).described "show a message"),
   ("spec", Macro.nestedSpec.takingRaw.described "complete with a nested spec file"),
   ("", (Macro.ofSingle Shell.default.action).described "run a script in the default shell")] ++
  Shell.all.map fun shell =>
    (shell.name, (Macro.ofSingle shell.action).described ("run a script in " ++ shell.name))

namespace Registry

/-- A registry with the core macros. -/
def withCore (program : String) : Registry :=
  coreMacros.foldl (fun registry (name, entry) => registry.addCore name entry) (.empty program)

/-- The core macros are the same for every program. -/
theorem withCore_eq (program : String) : withCore program = ⟨program, .ofList coreMacros⟩ := by
  have folded (entries : List (String × Macro)) (registry : Registry) :
      entries.foldl (fun registry entry => registry.addCore entry.1 entry.2) registry =
        ⟨registry.program, entries.foldl (fun map entry => map.insert entry.1 entry.2)
          registry.macros⟩ := by
    induction entries generalizing registry with
    | nil => rfl
    | cons entry rest ih => exact ih (registry.addCore entry.1 entry.2)
  exact folded coreMacros (.empty program)

end Registry

/-- Complete with the specification in a file, and with `nested` where it refers to further ones.
Its arguments are those behind the hidden ones, and its last argument is the value. -/
def fileCompletion (registry : Registry) (nested : SpecTarget → Action) (target : SpecTarget) :
    Action := fun context => do
  let path := context.resolve target.path
  Traced.note .debug "SPEC" "load" [("path", .string path), ("offset", .ofNat target.offset)]
  let failed (fault : SpecFault) : Traced Completion := do
    Traced.report .warn "SPEC" "load_failed" fault.message none
    return .ofMessage fault.message
  match CommandSpec.load context.machine.files path path with
  | .error fault => failed fault
  | .ok spec =>
    match ← spec.build registry .extended with
    | .error fault => failed fault
    | .ok command =>
      command.complete registry nested context
        (context.args.drop target.offset ++ [context.value])

/-- Complete with the specification in a file, which may refer to further ones up to `depth`
levels. -/
def nestedCompletion (registry : Registry) : (depth : Nat) → SpecTarget → Action
  | 0 => fun _ _ => Traced.tooDeep .empty
  | depth + 1 => fileCompletion registry (nestedCompletion registry depth)

/-- How many levels of nested specifications a request may reach. -/
def nestingLimit : Nat := 1000

/-- Complete with the specification in a file. -/
def Registry.nested (registry : Registry) : SpecTarget → Action :=
  nestedCompletion registry nestingLimit

end TabSpec

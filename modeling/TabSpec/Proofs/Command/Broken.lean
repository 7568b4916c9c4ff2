import TabSpec.Command.Assembly
import TabSpec.Proofs.Walk.Target
import TabSpec.Proofs.Walk.Verbatim

/-! Specifications that cannot be assembled. The command in their place looks for no flags and has no
subcommands, so every word on its command line is an argument by position; and whatever the position is,
it shows the fault. -/
namespace TabSpec

/-! ### Completing a command that takes its arguments as they are -/

namespace Walk

variable {walk : Walk}

/-- Where nothing but positional arguments is looked for, a word is one more of them. -/
theorem target_of_inactive (inactive : walk.flagsActive = false) (before : walk.dash = none)
    (ready : walk.pending = none) (word : String) :
    walk.target word = .positional walk.positional.length := by
  simp [target, inactive, before, ready]

end Walk

namespace Command

variable {command : Command}

/-- The last argument of a command without flags is completed by its position; no argument at all is an
empty first one. -/
theorem complete_of_disabled (raw : command.parsing = .disabled) (registry : Registry)
    (nested : SpecTarget → Action) (base : Context) (args : List String) :
    (command.complete registry nested base args).value =
      (answer registry nested (command.walk args.dropLast)
        { (command.walk args.dropLast).context base with value := args.getLast?.getD "" }
        (.positional args.dropLast.length)).value := by
  have aims : (command.walk args.dropLast).target (args.getLast?.getD "") =
      .positional args.dropLast.length := by
    rw [walk_of_disabled raw]
    exact Walk.target_of_inactive (Walk.flagsActive_eq_false_iff.mpr (.inl raw)) rfl rfl _
  simp only [complete, aims, Traced.bind_eq]

/-- A position that only shows a message shows it in every context. -/
theorem askSlot_notice (registry : Registry) (nested : SpecTarget → Action) (message : String)
    (context : Context) :
    (askSlot registry nested (some (.notice message)) context).value = .ofMessage message := rfl

end Command

theorem Completion.merge_empty_ofMessage (message : String) :
    merge [empty, ofMessage message] = ofMessage message := rfl

/-! ### The command in place of a specification -/

namespace CommandSpec

variable {spec : CommandSpec} {registry : Registry} {capabilities : Capabilities} {fault : SpecFault}

/-- A specification with a fault is replaced by a command that knows nothing but the fault. -/
theorem value_buildOrBroken (rejected : (spec.build registry capabilities).value = .error fault) :
    (spec.buildOrBroken registry capabilities).value = broken spec.name fault.message := by
  simp only [buildOrBroken, Traced.bind_eq, rejected]
  rfl

/-- Every argument of such a command, the first one or a later one, shows the fault and nothing else. -/
theorem complete_broken (name error : String) (registry : Registry) (nested : SpecTarget → Action)
    (base : Context) (args : List String) :
    ((broken name error).complete registry nested base args).value = .ofMessage error := by
  have reached (tokens : List String) :
      ((broken name error).walk tokens).command = broken name error := by
    rw [Command.walk_of_disabled rfl]
    rfl
  have slot (index : Nat) : (broken name error).positional[index]?.or (broken name error).positionalAny =
      some (.notice error) := rfl
  rw [Command.complete_of_disabled rfl]
  simp only [Command.answer, reached, slot, Traced.bind_eq, Traced.pure_eq, Command.askSlot_notice]
  -- Only the first argument may be a subcommand, and there is none.
  split
  · exact Completion.merge_empty_ofMessage error
  · rfl

/-- No command line of such a command can be run. -/
theorem prepareRun_broken (name error : String) (base : Context) (args : List String) :
    (broken name error).prepareRun base args = .error (.usage (.broken error)) := rfl

/-- A specification with a fault still gives a command, and all that this one answers is the fault. On
every command line, whatever is typed of it, completion shows the message of the fault, and neither
candidates nor a usage; and no command line can be run, for that same reason. -/
theorem buildOrBroken_shows_fault (rejected : (spec.build registry capabilities).value = .error fault) :
    (∀ (asked : Registry) (nested : SpecTarget → Action) (base : Context) (args : List String),
      ((spec.buildOrBroken registry capabilities).value.complete asked nested base args).value =
        { suggestions := [], messages := [fault.message], nospace := "", usage := "" }) ∧
    ∀ (base : Context) (args : List String),
      ∃ usage, (spec.buildOrBroken registry capabilities).value.prepareRun base args =
          .error (.usage usage) ∧
        (SpecFault.usage usage).message = fault.message := by
  rw [value_buildOrBroken rejected]
  constructor
  · intro asked nested base args
    exact complete_broken spec.name fault.message asked nested base args
  · intro base args
    exact ⟨_, prepareRun_broken spec.name fault.message base args, rfl⟩

/-- A flag without a name, in a command that has a subcommand and something to run. -/
def Sample.nameless : CommandSpec :=
  { CommandSpec.empty with
    name := "tool"
    flags := .ofList [("=", .description "nothing"), ("--json", .description "json output")]
    run := some (.script ⟨none, "echo $@", []⟩)
    commands := [{ CommandSpec.empty with name := "sub" }] }

/-- Neither the subcommand nor `--` nor a flag hides the fault. -/
theorem buildOrBroken_shows_fault_sample :
    (Sample.nameless.build (.empty "tool") .extended).value = .error (.flag "=" .nameless) ∧
    ((Sample.nameless.buildOrBroken (.empty "tool") .extended).value.complete (.empty "tool")
        (fun _ => .ofMessage "") default ["sub", "--", "--js"]).value =
      { suggestions := [], messages := ["flag syntax invalid: =: neither shorthand nor longhand"]
        nospace := "", usage := "" } ∧
    ∃ usage, (Sample.nameless.buildOrBroken (.empty "tool") .extended).value.prepareRun default ["sub"] =
        .error (.usage usage) ∧
      (SpecFault.usage usage).message = "flag syntax invalid: =: neither shorthand nor longhand" := by
  have rejected : (Sample.nameless.build (.empty "tool") .extended).value =
      .error (.flag "=" .nameless) := by
    rfl
  obtain ⟨shown, refused⟩ := buildOrBroken_shows_fault rejected
  exact ⟨rejected, shown _ _ _ _, refused _ _⟩

end CommandSpec
end TabSpec

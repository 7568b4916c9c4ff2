import TabSpec.Proofs.Command.Accepted
import TabSpec.Proofs.Command.Assembly
import TabSpec.Proofs.Flag.Binding
import TabSpec.Proofs.Walk.Verbatim

/-! Command lines that a command hands on to the program it runs. A command that runs something and
has no flags takes its arguments as they are, and so does the program. -/
namespace TabSpec

/-! ### The arguments of a program stand behind its own -/

theorem Shell.suffix_invocation (shell : Shell) (machine : Machine) (script : String)
    (arguments : List String) :
    arguments <:+ (shell.invocation machine script arguments).arguments := by
  cases shell <;> exact List.suffix_append ..

theorem RunField.suffix_prepare {run : RunField} {context : Context} {args : List String}
    {prepared : PreparedRun} (ready : run.prepare context args = .ok prepared) :
    args <:+ prepared.launch.arguments := by
  obtain argv | shellScript | interpreted := run
  · obtain ⟨filled, _, made⟩ := bind_eq_ok_iff.mp ready
    obtain rfl := Except.ok.inj made
    exact List.suffix_append ..
  · obtain ⟨inside, _, made⟩ := bind_eq_ok_iff.mp ready
    obtain rfl := Except.ok.inj made
    exact Shell.suffix_invocation ..
  · obtain rfl := Except.ok.inj ready
    exact List.suffix_append ..

namespace CommandSpec

variable {registry : Registry} {capabilities : Capabilities} {inherited : Inheritance}
  {spec : CommandSpec} {command : Command}

/-- Entries that make up no flags are no entries. -/
theorem Binds.isEmpty {others : List Flag} {entries : OrderedMap FlagEntry}
    (binds : Binds capabilities others entries) (none : described entries = []) :
    entries.isEmpty = true := by
  obtain ⟨_ | ⟨entry, rest⟩⟩ := entries
  · rfl
  · obtain ⟨flag, read, _⟩ := binds_cons_iff.mp binds
    rw [described_cons read] at none
    cases none

/-- A command that runs something and has no flags of its own takes its arguments as they are. -/
theorem disabled_of_assemble
    (assembled : (assemble registry capabilities inherited spec).run.value = .ok command)
    (runs : command.run.isSome) (own : command.flags.flags = [])
    (persistent : command.persistentFlags.flags = []) : command.parsing = .disabled := by
  obtain ⟨bare, isNode, _, whole⟩ := assemble_eq_ok assembled
  rw [whole] at runs own persistent ⊢
  obtain ⟨made, madePersistent, _⟩ := node_eq_ok isNode
  obtain ⟨mode, run⟩ := mode_of_node isNode
  obtain ⟨binds, flags⟩ := flagSet_none_eq_ok_iff.mp made
  have distinct : (bare.flags.flags.map Flag.name).Nodup := by
    rw [own]
    exact List.nodup_nil
  obtain ⟨bindsPersistent, persistentFlags⟩ :=
    (flagSet_some_eq_ok_iff distinct).mp madePersistent
  rw [flags] at own
  rw [persistentFlags] at persistent
  have plain : spec.run.isSome ∧ spec.flags.isEmpty ∧ spec.persistentFlags.isEmpty :=
    ⟨run ▸ runs, binds.isEmpty own, bindsPersistent.isEmpty persistent⟩
  show bare.parsing = _
  rw [mode, settledMode, if_pos plain]

end CommandSpec

namespace Command

/-- A program that is run is the one of the reached command, with the collected arguments. -/
theorem prepareRun_eq_ok {command : Command} {base : Context} {tokens : List String}
    {prepared : PreparedRun} (ready : command.prepareRun base tokens = .ok prepared) :
    ∃ run, (command.walk tokens).command.run = some run ∧
      run.prepare ((command.walk tokens).context base)
        ((command.walk tokens).positional ++ (command.walk tokens).dash.getD []) = .ok prepared := by
  unfold prepareRun at ready
  split at ready
  · cases ready
  · obtain ⟨walk, accepted, ready⟩ := bind_eq_ok_iff.mp ready
    obtain ⟨rfl, _⟩ := parse_eq_ok_iff_objection?.mp accepted
    split at ready
    · cases ready
    · rename_i run runs
      exact ⟨run, runs, ready⟩

/-- Arguments that are taken as they are stay as they are. A walk whose command looks for no flags, or
none behind its first positional argument, has the last of its tokens as positional arguments, and a
command that was assembled with something to run and without flags hands all arguments to its program,
behind the program's own. -/
theorem arguments_pass_through :
    (∀ (command : Command) (tokens : List String),
      (command.walk tokens).command.parsing = .disabled ∨
        (command.walk tokens).command.parsing = .nonInterspersed ∧
          (command.walk tokens).positional ≠ [] →
      (command.walk tokens).dash = none ∧ (command.walk tokens).pending = none ∧
        (command.walk tokens).positional <:+ tokens) ∧
    ∀ (registry : Registry) (capabilities : Capabilities) (spec : CommandSpec) (root : Command),
      (spec.build registry capabilities).value = .ok root → root.run.isSome = true →
      root.flags.flags = [] → root.persistentFlags.flags = [] →
      ∀ (base : Context) (args : List String) (prepared : PreparedRun),
        root.prepareRun base args = .ok prepared → args <:+ prepared.launch.arguments := by
  constructor
  · intro command tokens raw
    have verbatim := command.verbatim_walk (Walk.flagsActive_eq_false_iff.mpr raw)
    exact ⟨verbatim.dash, verbatim.pending, verbatim.positional⟩
  · intro registry capabilities spec root built runs own persistent base args prepared ready
    have raw : root.parsing = .disabled :=
      CommandSpec.disabled_of_assemble built runs own persistent
    obtain ⟨run, _, made⟩ := prepareRun_eq_ok ready
    have collected : (root.walk args).positional ++ (root.walk args).dash.getD [] = args := by
      rw [walk_of_disabled raw]
      exact List.append_nil args
    rw [collected] at made
    exact RunField.suffix_prepare made

/-- A command with flags above one that runs whatever stands behind its own flags. -/
def Sample.launcher : Command :=
  { Sample.command with
    commands := [{ (default : Command) with
      name := "exec", parsing := .nonInterspersed, flags := ⟨[Sample.verbose], .extended⟩ }] }

/-- A script for the shell, without flags. -/
def Sample.script : CommandSpec :=
  { CommandSpec.empty with
    name := "tool"
    run := some (.script ⟨none, "echo $@", []⟩) }

/-- Behind `prog` the launcher reads neither `--` nor a flag, and a script is given both. -/
theorem arguments_pass_through_sample :
    ((Sample.launcher.walk ["-v", "exec", "-v", "prog", "--", "-v"]).positional =
        ["prog", "--", "-v"] ∧
      (Sample.launcher.walk ["-v", "exec", "-v", "prog", "--", "-v"]).command.parsing =
        .nonInterspersed ∧
      (Sample.launcher.walk ["-v", "exec", "-v", "prog", "--", "-v"]).dash = none) ∧
    ∃ root prepared, (Sample.script.build (.empty "tool") .extended).value = .ok root ∧
      root.prepareRun default ["--", "-v"] = .ok prepared ∧
      prepared.launch.arguments = ["-c", "echo $@", "--", "--", "-v"] ∧
      ["--", "-v"] <:+ prepared.launch.arguments := by
  constructor
  · have collected : (Sample.launcher.walk ["-v", "exec", "-v", "prog", "--", "-v"]).positional =
        ["prog", "--", "-v"] := by
      decide +kernel
    have mode : (Sample.launcher.walk ["-v", "exec", "-v", "prog", "--", "-v"]).command.parsing =
        .nonInterspersed := by
      decide +kernel
    have raw := arguments_pass_through.1 Sample.launcher ["-v", "exec", "-v", "prog", "--", "-v"]
      (.inr ⟨mode, by rw [collected]; decide⟩)
    exact ⟨collected, mode, raw.1⟩
  · have built : (Sample.script.build (.empty "tool") .extended).value.toOption.any (fun root =>
        decide (root.run.isSome = true ∧ root.flags.flags = [] ∧ root.persistentFlags.flags = [] ∧
          (root.prepareRun default ["--", "-v"]).toOption.any (fun prepared =>
            prepared.launch.arguments == ["-c", "echo $@", "--", "--", "-v"]) = true)) = true := by
      decide +kernel
    obtain ⟨root, succeeds, facts⟩ := exists_of_toOption_any built
    obtain ⟨runs, own, persistent, launched⟩ := of_decide_eq_true facts
    obtain ⟨prepared, ready, whole⟩ := exists_of_toOption_any launched
    refine ⟨root, prepared, succeeds, ready, eq_of_beq whole, ?_⟩
    exact arguments_pass_through.2 _ _ _ root succeeds runs own persistent default _ prepared ready

end Command
end TabSpec

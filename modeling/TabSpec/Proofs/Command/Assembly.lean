import TabSpec.Command.Assembly
import TabSpec.Proofs.Command.Tree
import TabSpec.Proofs.Flag.Forms
import TabSpec.Proofs.Outcome

/-! What an assembled command tree is made of. -/
namespace TabSpec

/-- A command below another one is that one or below one of its subcommands. -/
theorem Command.Within.eq_or_child {root node : Command} (within : root.Within node) :
    node = root ∨ ∃ child ∈ root.commands, child.Within node := by
  induction within with
  | self => exact .inl rfl
  | child above member ih =>
    right
    rcases ih with rfl | ⟨child, below, inside⟩
    · exact ⟨_, member, .self⟩
    · exact ⟨child, below, .child inside member⟩

theorem FlagSet.flags_of_add {set larger : FlagSet} {flag : Flag}
    (added : set.add flag = .ok larger) : larger.flags = set.flags ++ [flag] := by
  unfold add at added
  split at added
  · cases added
  · cases added
    rfl

namespace CommandSpec

variable {registry : Registry} {capabilities : Capabilities} {inherited : Inheritance}

/-- Assembling a command assembles its node, and its subcommands from what it hands on. -/
theorem assemble_eq_ok {spec : CommandSpec} {command : Command}
    (assembled : (assemble registry capabilities inherited spec).run.value = .ok command) :
    ∃ bare, node registry capabilities inherited spec = .ok bare ∧
      (assembleAll registry capabilities
        (bequest inherited (spec.declaredMode inherited.parsing) bare)
        spec.commands).run.value = .ok command.commands ∧
      command = { bare with groups := command.groups, commands := command.commands } := by
  cases spec
  unfold assemble at assembled
  obtain ⟨bare, isNode, assembled⟩ := Traced.run_bind_eq_ok_iff.mp assembled
  obtain ⟨_, _, assembled⟩ := Traced.run_bind_eq_ok_iff.mp assembled
  obtain ⟨children, below, assembled⟩ := Traced.run_bind_eq_ok_iff.mp assembled
  obtain rfl := Except.ok.inj assembled
  exact ⟨bare, isNode, below, rfl⟩

theorem assembleAll_cons_eq_ok {spec : CommandSpec} {rest : List CommandSpec}
    {commands : List Command}
    (assembled : (assembleAll registry capabilities inherited (spec :: rest)).run.value =
      .ok commands) :
    ∃ first others, commands = first :: others ∧
      (assemble registry capabilities inherited spec).run.value = .ok first ∧
      (assembleAll registry capabilities inherited rest).run.value = .ok others := by
  unfold assembleAll at assembled
  obtain ⟨first, one, assembled⟩ := Traced.run_bind_eq_ok_iff.mp assembled
  obtain ⟨others, more, assembled⟩ := Traced.run_bind_eq_ok_iff.mp assembled
  exact ⟨first, others, (Except.ok.inj assembled).symm, one, more⟩

/-! ### Flags of assembled commands come from identifiers -/

theorem isRead_of_flagSet {siblings : Option FlagSet} {entries : OrderedMap FlagEntry}
    {set : FlagSet} (made : flagSet capabilities siblings entries = .ok set) :
    ∀ flag ∈ set.flags, flag.IsRead := by
  obtain ⟨entries⟩ := entries
  have none : ∀ flag ∈ (FlagSet.empty capabilities).flags, flag.IsRead := by
    intro flag member
    cases member
  unfold flagSet at made
  -- The flags added so far come from identifiers, whatever set the rest is added to.
  generalize FlagSet.empty capabilities = start at none made
  induction entries generalizing start with
  | nil =>
    cases made
    exact none
  | cons entry rest ih =>
    obtain ⟨identifier, entry⟩ := entry
    simp only [List.foldlM_cons, bind, Except.bind] at made
    split at made
    · cases made
    · rename_i larger step
      split at step
      · cases step
      · rename_i flag entered
        split at step
        · cases step
        · refine ih larger ?_ made
          intro other member
          rw [FlagSet.flags_of_add step] at member
          rcases List.mem_append.mp member with old | new
          · exact none other old
          · rw [List.mem_singleton.mp new]
            exact ⟨identifier, entry, entered⟩

theorem node_eq_ok {spec : CommandSpec} {command : Command}
    (made : node registry capabilities inherited spec = .ok command) :
    flagSet capabilities none spec.flags = .ok command.flags ∧
    flagSet capabilities (some command.flags) spec.persistentFlags =
      .ok command.persistentFlags ∧
    command.inheritedFlags = inherited.flags := by
  unfold node at made
  simp only [bind, Except.bind] at made
  split at made
  · cases made
  · rename_i flags own
    split at made
    · cases made
    · rename_i persistent handedOn
      split at made
      · cases made
      · cases made
        exact ⟨own, handedOn, rfl⟩

theorem mode_of_node {spec : CommandSpec} {command : Command}
    (made : node registry capabilities inherited spec = .ok command) :
    command.parsing = settledMode registry spec (spec.declaredMode inherited.parsing) ∧
      command.run = spec.run := by
  unfold node at made
  obtain ⟨flags, _, made⟩ := bind_eq_ok_iff.mp made
  obtain ⟨persistent, _, made⟩ := bind_eq_ok_iff.mp made
  dsimp only at made
  split at made
  · cases made
  · cases made
    exact ⟨rfl, rfl⟩

mutual

/-- Every flag in an assembled tree comes from an identifier, when the inherited ones do. -/
theorem isRead_of_assemble (spec : CommandSpec) (inherited : Inheritance) (command : Command)
    (assembled : (assemble registry capabilities inherited spec).run.value = .ok command)
    (handed : ∀ flag ∈ inherited.flags, flag.IsRead) (place : Command)
    (within : command.Within place) : ∀ flag ∈ place.allFlags, flag.IsRead := by
  obtain ⟨bare, isNode, below, whole⟩ := assemble_eq_ok assembled
  obtain ⟨own, persistent, inheritedFlags⟩ := node_eq_ok isNode
  have persistentRead := isRead_of_flagSet persistent
  rcases within.eq_or_child with rfl | ⟨child, member, inside⟩
  · intro flag member
    rw [whole] at member
    simp only [Command.allFlags, List.mem_append, inheritedFlags] at member
    rcases member with (isOwn | isPersistent) | isInherited
    · exact isRead_of_flagSet own flag isOwn
    · exact persistentRead flag isPersistent
    · exact handed flag isInherited
  · refine isRead_of_assembleAll spec.commands _ command.commands below ?_ child member place inside
    intro flag member
    rcases List.mem_append.mp member with old | new
    · exact handed flag old
    · exact persistentRead flag new
termination_by sizeOf spec
decreasing_by
  cases spec
  simp only [CommandSpec.mk.sizeOf_spec]
  omega

theorem isRead_of_assembleAll (specs : List CommandSpec) (inherited : Inheritance)
    (commands : List Command)
    (assembled : (assembleAll registry capabilities inherited specs).run.value = .ok commands)
    (handed : ∀ flag ∈ inherited.flags, flag.IsRead) (command : Command)
    (member : command ∈ commands) (place : Command) (within : command.Within place) :
    ∀ flag ∈ place.allFlags, flag.IsRead := by
  match specs with
  | [] =>
    cases assembled
    cases member
  | spec :: rest =>
    obtain ⟨first, others, rfl, one, more⟩ := assembleAll_cons_eq_ok assembled
    rcases List.mem_cons.mp member with rfl | later
    · exact isRead_of_assemble spec inherited _ one handed place within
    · exact isRead_of_assembleAll rest inherited others more handed command later place within
termination_by sizeOf specs
decreasing_by
  all_goals
    simp only [List.cons.sizeOf_spec]
    omega

end

/-- In a tree that was built, no flag has the form that ends the flags of a command line. -/
theorem separator_not_mem_forms {spec : CommandSpec} {root command : Command}
    (built : (spec.build registry capabilities).value = .ok root) (within : root.Within command) :
    ∀ flag ∈ command.allFlags, "--" ∉ flag.forms := by
  intro flag member form
  have read := isRead_of_assemble spec noInheritance root built (by simp [noInheritance]) command
    within flag member
  have answers := Flag.mem_forms_iff.mp form
  rw [read.answersTo_separator] at answers
  cases answers

end CommandSpec
end TabSpec

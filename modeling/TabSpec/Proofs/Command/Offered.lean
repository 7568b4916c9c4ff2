import TabSpec.Command.Assembly
import TabSpec.Proofs.Completion.Normal
import TabSpec.Proofs.Walk.Target

/-! What becomes of the subcommands that completion offers. Choosing one leads there, except below a
command that takes all arguments as they are: its subcommands are offered as well, but a walk never
reaches them. -/
namespace TabSpec

namespace Completion

/-- What is merged first stays in front. -/
theorem mem_suggestions_merge_pair {first second : Completion} {value : String}
    (offered : value ∈ first.values) :
    ∃ suggestion ∈ (merge [first, second]).suggestions,
      suggestion.value = value ∧ suggestion ∈ first.suggestions := by
  have opened : (merge [first, second]).suggestions =
      gather Suggestion.value (gather Suggestion.value [] first.suggestions)
        second.suggestions := by
    simp only [merge, List.foldl_cons, List.foldl_nil, append, suggestions_addNospace,
      addSuggestions_eq_gather, empty]
  have kept : value ∈ (gather Suggestion.value [] first.suggestions).map Suggestion.value :=
    key_mem_gather _ _ offered
  obtain ⟨suggestion, member, rfl⟩ := List.mem_map.mp kept
  refine ⟨suggestion, ?_, rfl, ?_⟩
  · rw [opened]
    exact subset_gather _ _ _ member
  · exact (mem_gather _ member).resolve_left List.not_mem_nil

end Completion

namespace Command

/-- The candidates for subcommands are the names of those that are not hidden. -/
theorem mem_values_subcommands_iff {command : Command} {name : String} :
    name ∈ command.subcommands.values ↔
      ∃ child ∈ command.commands, child.hidden = false ∧ child.answersTo name = true := by
  have values : command.subcommands.values =
      (command.commands.filter (!·.hidden)).flatMap fun child => child.name :: child.aliases := by
    have own (child : Command) (name : String) :
        ((Suggestion.described name child.description).tagged "commands").value = name := rfl
    simp only [subcommands, Completion.values, Completion.ofSuggestions, List.map_flatMap,
      List.map_map, Function.comp_def, own, List.map_id']
  simp only [values, List.mem_flatMap, List.mem_filter, answersTo_iff, and_assoc, Bool.not_eq_true']

theorem tag_of_mem_subcommands {command : Command} {suggestion : Suggestion}
    (member : suggestion ∈ command.subcommands.suggestions) : suggestion.tag = "commands" := by
  simp only [subcommands, Completion.ofSuggestions, List.mem_flatMap, List.mem_map] at member
  obtain ⟨_, _, name, _, rfl⟩ := member
  rfl

/-- Where no positional argument stands yet, all subcommands are offered that are not hidden. -/
theorem exists_mem_suggestions_complete {command : Command} {tokens : List String} {word name : String}
    (registry : Registry) (nested : SpecTarget → Action) (base : Context)
    (aims : (command.walk tokens).target word = .positional 0)
    (named : name ∈ (command.walk tokens).command.subcommands.values) :
    ∃ suggestion ∈ (command.complete registry nested base (tokens ++ [word])).value.suggestions,
      suggestion.value = name ∧ suggestion.tag = "commands" := by
  have answered : (command.complete registry nested base (tokens ++ [word])).value.suggestions =
      (Completion.merge [(command.walk tokens).command.subcommands,
        (askSlot registry nested ((command.walk tokens).command.positional[0]?.or
          (command.walk tokens).command.positionalAny)
            { (command.walk tokens).context base with value := word }).value]).suggestions := by
    simp [complete, Traced.bind_eq, aims, answer, Traced.pure_eq]
  obtain ⟨suggestion, member, same, own⟩ := Completion.mem_suggestions_merge_pair named
  exact ⟨suggestion, answered ▸ member, same, tag_of_mem_subcommands own⟩

/-- A subcommand that is offered is called by the name under which it is offered, and choosing it
leads there as long as the command reads its arguments. A command that takes them as they are keeps
the name as its first positional argument, though it offers the subcommand too. -/
theorem walk_offered (command : Command) (tokens : List String) (word name : String)
    (aims : (command.walk tokens).target word = .positional 0)
    (named : name ∈ (command.walk tokens).command.subcommands.values) (plain : name ≠ "--") :
    (∀ registry nested base,
      ∃ suggestion ∈ (command.complete registry nested base (tokens ++ [word])).value.suggestions,
        suggestion.value = name ∧ suggestion.tag = "commands") ∧
    ∃ child, (command.walk tokens).command.find? name = some child ∧
      ((command.walk tokens).command.parsing ≠ .disabled →
        command.walk (tokens ++ [name]) = { command.walk tokens with command := child }) ∧
      ((command.walk tokens).command.parsing = .disabled →
        command.walk (tokens ++ [name]) = { command.walk tokens with positional := [name] }) := by
  refine ⟨fun registry nested base => exists_mem_suggestions_complete registry nested base aims named,
    ?_⟩
  obtain ⟨settled, before, first, _⟩ := Walk.of_target_positional aims
  have nothing : (command.walk tokens).positional = [] := List.eq_nil_of_length_eq_zero first.symm
  obtain ⟨child, member, _, answers⟩ := mem_values_subcommands_iff.mp named
  have known : ((command.walk tokens).command.find? name).isSome := by
    rw [find?, List.find?_isSome]
    exact ⟨child, member, answers⟩
  obtain ⟨called, found⟩ := Option.isSome_iff_exists.mp known
  refine ⟨called, found, ?_, ?_⟩
  -- No positional argument stands in front, so only the mode tells whether the name is looked up.
  · intro reads
    have active : (command.walk tokens).flagsActive = true := by
      unfold Walk.flagsActive
      split
      · rename_i raw
        exact absurd raw reads
      · rw [nothing]
        rfl
      · rfl
    have descends : (command.walk tokens).descent? name = some called := by
      simpa [Walk.descent?, nothing] using found
    exact Walk.resume_concat settled (Walk.step_descent before active plain descends []) settled
  · intro raw
    have inactive : (command.walk tokens).flagsActive = false := by
      simp [Walk.flagsActive, raw]
    have step := Walk.step_inactive before inactive name []
    rw [nothing] at step
    exact Walk.resume_concat settled step settled

/-- The second name of a subcommand, behind a flag. -/
theorem walk_offered_sample :
    (Sample.tool.walk ["-v"]).target "" = .positional 0 ∧
    "s" ∈ (Sample.tool.walk ["-v"]).command.subcommands.values ∧
    (Sample.tool.walk ["-v"]).command.parsing ≠ .disabled ∧
    ∃ child, (Sample.tool.walk ["-v"]).command.find? "s" = some child ∧
      Sample.tool.walk (["-v"] ++ ["s"]) = { Sample.tool.walk ["-v"] with command := child } := by
  have aims : (Sample.tool.walk ["-v"]).target "" = .positional 0 := by decide +kernel
  have named : "s" ∈ (Sample.tool.walk ["-v"]).command.subcommands.values := by decide +kernel
  have reads : (Sample.tool.walk ["-v"]).command.parsing ≠ .disabled := by decide +kernel
  obtain ⟨_, child, found, enters, _⟩ := walk_offered Sample.tool ["-v"] "" "s" aims named (by decide)
  exact ⟨aims, named, reads, child, found, enters reads⟩

/-- A command that runs a program and has no flags, above a subcommand. -/
def Sample.wrapper : CommandSpec :=
  { CommandSpec.empty with
    name := "tool"
    run := some (.alias ["echo"])
    commands := [{ CommandSpec.empty with name := "sub" }] }

/-- The wrapper offers its subcommand, and a walk over its name stays at the wrapper. -/
theorem wrapper_keeps_offered :
    ∃ command, (Sample.wrapper.build (.empty "tool") .extended).value = .ok command ∧
      (command.complete (.empty "tool") (fun _ => .ofValues []) default [""]).value.suggestions =
        [(Suggestion.described "sub" "").tagged "commands"] ∧
      (command.find? "sub").map (·.name) = some "sub" ∧
      (command.walk ["sub"]).command.name = "tool" ∧
      (command.walk ["sub"]).positional = ["sub"] := by
  refine ⟨_, rfl, ?_, ?_, ?_, ?_⟩
  · decide +kernel
  · decide +kernel
  · decide +kernel
  · decide +kernel

end Command

end TabSpec

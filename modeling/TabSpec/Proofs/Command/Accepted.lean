import TabSpec.Command.Assembly
import TabSpec.Command.Walk
import TabSpec.Proofs.Outcome

/-! Which command lines are accepted for running. The constraints on flags are those of the command
that the walk reaches. They cover the required flags that it inherits, but no exclusive group that is
declared above it. -/
namespace TabSpec

/-- What a walk must be for its command to be run with it. -/
structure Walk.Accepted (walk : Walk) : Prop where
  settled : walk.pending = none
  known : walk.unknown = []
  required : walk.command.parsesFlags = true → ∀ flag ∈ walk.command.allFlags,
    flag.required = true → walk.flags.contains flag.name = true
  exclusive : ∀ group ∈ walk.command.exclusiveFlags,
    (group.filter walk.flags.contains).length ≤ 1

namespace Command

variable {walk : Walk}

theorem missingFlags_eq_nil_iff : missingFlags walk = [] ↔
    ∀ flag ∈ walk.command.allFlags, flag.required = true →
      walk.flags.contains flag.name = true := by
  simp [missingFlags]

theorem conflict?_eq_none_iff : conflict? walk = none ↔
    ∀ group ∈ walk.command.exclusiveFlags, (group.filter walk.flags.contains).length ≤ 1 := by
  simp [conflict?]

theorem objection?_eq_none_iff : objection? walk = none ↔ walk.Accepted := by
  unfold objection?
  constructor
  · intro accepted
    split at accepted
    · cases accepted
    · cases accepted
    · rename_i settled known
      split at accepted
      · cases accepted
      · rename_i complete
        refine ⟨settled, known, ?_, conflict?_eq_none_iff.mp (Option.map_eq_none_iff.mp accepted)⟩
        intro parses
        exact missingFlags_eq_nil_iff.mp (Decidable.not_not.mp fun missing =>
          complete ⟨parses, missing⟩)
  · intro accepted
    rw [accepted.settled, accepted.known]
    dsimp only
    rw [if_neg fun missing => missing.2 (missingFlags_eq_nil_iff.mpr (accepted.required missing.1)),
      conflict?_eq_none_iff.mpr accepted.exclusive]
    rfl

theorem parse_eq_ok_iff_objection? {command : Command} {tokens : List String} :
    command.parse tokens = .ok walk ↔
      walk = command.walk tokens ∧ objection? (command.walk tokens) = none := by
  unfold parse
  cases objection? (command.walk tokens) with
  | none => simp [eq_comm]
  | some fault => simp

/-- A command line is accepted exactly when its walk is settled, knows all flags, has set those that
the reached command requires, its own and inherited ones, and has set no two members of a group that
the reached command declares. -/
theorem parse_eq_ok_iff (command : Command) (tokens : List String) (walk : Walk) :
    command.parse tokens = .ok walk ↔ walk = command.walk tokens ∧ walk.Accepted := by
  rw [parse_eq_ok_iff_objection?]
  refine and_congr_right fun same => ?_
  rw [← same]
  exact objection?_eq_none_iff

/-- A command that excludes two of its persistent flags, above a subcommand. -/
def Sample.formats : CommandSpec :=
  { CommandSpec.empty with
    name := "tool"
    persistentFlags := .ofList [("--json", .description "j"), ("--yaml", .description "y")]
    exclusiveFlags := [["json", "yaml"]]
    commands := [{ CommandSpec.empty with name := "sub" }] }

/-- Both flags are refused for the command itself and accepted for its subcommand. -/
theorem formats_accepts_both_below :
    ∃ command, (Sample.formats.build (.empty "tool") .extended).value = .ok command ∧
      ["json", "yaml"] ∈ command.exclusiveFlags ∧
      objection? (command.walk ["--json", "--yaml"]) =
        some (.exclusiveFlags ["json", "yaml"] ["json", "yaml"]) ∧
      (command.walk ["sub", "--json", "--yaml"]).command.name = "sub" ∧
      command.parse ["sub", "--json", "--yaml"] = .ok (command.walk ["sub", "--json", "--yaml"]) ∧
      (command.walk ["sub", "--json", "--yaml"]).flags.contains "json" = true ∧
      (command.walk ["sub", "--json", "--yaml"]).flags.contains "yaml" = true := by
  have built : (Sample.formats.build (.empty "tool") .extended).value.toOption.any (fun command =>
      decide (["json", "yaml"] ∈ command.exclusiveFlags ∧
        objection? (command.walk ["--json", "--yaml"]) =
          some (.exclusiveFlags ["json", "yaml"] ["json", "yaml"]) ∧
        (command.walk ["sub", "--json", "--yaml"]).command.name = "sub" ∧
        objection? (command.walk ["sub", "--json", "--yaml"]) = none ∧
        (command.walk ["sub", "--json", "--yaml"]).flags.contains "json" = true ∧
        (command.walk ["sub", "--json", "--yaml"]).flags.contains "yaml" = true)) = true := by
    decide +kernel
  obtain ⟨command, succeeds, facts⟩ := exists_of_toOption_any built
  obtain ⟨declared, refused, below, accepted, json, yaml⟩ := of_decide_eq_true facts
  refine ⟨command, succeeds, declared, refused, below, ?_, json, yaml⟩
  exact parse_eq_ok_iff_objection?.mpr ⟨rfl, accepted⟩

end Command

end TabSpec

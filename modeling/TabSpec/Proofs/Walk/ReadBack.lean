import TabSpec.Command.Assembly
import TabSpec.Proofs.Outcome
import TabSpec.Proofs.Substitution
import TabSpec.Proofs.Walk.Exported
import TabSpec.Proofs.Walk.Frame

/-! Reading a flag back. Where the upper case of its name can be the name of a variable, the
placeholder of that variable stands for the flag's values, unless another set flag has the same upper
case and a later name: flags are handed on in the order of their names, and the last one stays. -/
namespace TabSpec

namespace Walk

theorem upper_eq_of_flagVariable {name other : String}
    (same : flagVariable name = flagVariable other) : Text.upper name = Text.upper other := by
  have chars := congrArg String.toList same
  simp only [flagVariable, String.toList_append] at chars
  exact String.toList_inj.mp (List.append_cancel_left chars)

/-- The variable of a flag has a placeholder, when the upper case of its name allows that. -/
theorem isName_flagVariable {name : String}
    (readable : ∀ c ∈ (Text.upper name).toList, Substitution.isNameChar c = true) :
    Substitution.IsName (flagVariable name) := by
  have front : "_FLAG_".toList.all Substitution.isNameChar = true := by decide
  refine ⟨'C', "_FLAG_".toList ++ (Text.upper name).toList, ?_, by decide, ?_⟩
  · rw [flagVariable, String.toList_append]
    rfl
  · intro c member
    exact (List.mem_append.mp member).elim (List.all_eq_true.mp front c) (readable c)

/-- No set flag with a later name has the same upper case. -/
def LastOfUpper (walk : Walk) (name : String) : Prop :=
  ∀ other ∈ walk.flags.keys, Text.upper other = Text.upper name → ¬ name < other

instance (walk : Walk) (name : String) : Decidable (walk.LastOfUpper name) :=
  inferInstanceAs (Decidable (∀ other ∈ walk.flags.keys, _ → _))

theorem get?_exported {walk : Walk} (sorted : walk.flags.Sorted) {name : String}
    {values : List String} (set : walk.flags.get? name = some values)
    (last : walk.LastOfUpper name) (bindings : OrderedMap String) :
    (walk.exported bindings).get? (flagVariable name) = some (String.intercalate "," values) := by
  obtain ⟨front, back, whole, above⟩ := sorted.exists_of_get? set
  have apart : ∀ entry ∈ back, flagVariable entry.1 ≠ flagVariable name := by
    intro entry member same
    have present : entry.1 ∈ walk.flags.keys := by
      rw [OrderedMap.keys, whole]
      exact List.mem_map_of_mem (List.mem_append_right _ (List.mem_cons_of_mem _ member))
    exact last entry.1 present (upper_eq_of_flagVariable same) (above entry member)
  rw [exported, whole, List.foldl_append, List.foldl_cons,
    OrderedMap.get?_foldl_insert_of_ne (fun entry : String × List String => flagVariable entry.1)
      (fun entry => String.intercalate "," entry.2) apart,
    OrderedMap.get?_insert, if_pos rfl]

end Walk

/-- Every flag set on a command line is read back by the placeholder of its variable, its values
joined by commas, where the upper case of its name is made of letters, digits and underscores and
no set flag with a later name has the same upper case. -/
theorem Command.substitute_flagVariable (command : Command) (tokens : List String)
    (base : Context) {name : String} {values : List String}
    (set : (command.walk tokens).flags.get? name = some values)
    (readable : ∀ c ∈ (Text.upper name).toList, Substitution.isNameChar c = true)
    (last : (command.walk tokens).LastOfUpper name) :
    ((command.walk tokens).context base).substitute
      ("$\x7b" ++ Walk.flagVariable name ++ "\x7d") = .ok (String.intercalate "," values) := by
  have value : ((command.walk tokens).context base).get? (Walk.flagVariable name) =
      some (String.intercalate "," values) := by
    rw [Walk.context_eq, Context.get?,
      Walk.get?_exported (command.sorted_flags tokens) set last]
  rw [Context.substitute, Substitution.expand_variable _ (Walk.isName_flagVariable readable), value]
  rfl

/-- Flags with a dash and a dot in a name, and with names that differ in case only. -/
def Sample.colored : CommandSpec :=
  { CommandSpec.empty with
    name := "tool"
    flags := .ofList [("--dry-run", .description "d"), ("--log.level=", .description "l"),
      ("--color=*", .description "c"), ("--COLOR=", .description "C")] }

/-- The values of the last of two flags with one upper case are read. -/
theorem Command.substitute_flagVariable_sample :
    ∃ command, (Sample.colored.build (.empty "tool") .extended).value = .ok command ∧
      (command.walk ["--color", "a", "--COLOR", "b", "--color", "c"]).flags.get? "color" =
        some ["a", "c"] ∧
      (∀ c ∈ (Text.upper "color").toList, Substitution.isNameChar c = true) ∧
      (command.walk ["--color", "a", "--COLOR", "b", "--color", "c"]).LastOfUpper "color" ∧
      ((command.walk ["--color", "a", "--COLOR", "b", "--color", "c"]).context default).substitute
        "$\x7bC_FLAG_COLOR\x7d" = .ok "a,c" := by
  have built : (Sample.colored.build (.empty "tool") .extended).value.toOption.any (fun command =>
      decide ((command.walk ["--color", "a", "--COLOR", "b", "--color", "c"]).flags.get? "color" =
          some ["a", "c"] ∧
        (command.walk ["--color", "a", "--COLOR", "b", "--color", "c"]).LastOfUpper "color"))
      = true := by
    decide +kernel
  obtain ⟨command, succeeds, facts⟩ := exists_of_toOption_any built
  obtain ⟨set, last⟩ := of_decide_eq_true facts
  have readable : ∀ c ∈ (Text.upper "color").toList, Substitution.isNameChar c = true :=
    List.all_eq_true.mp (by decide +kernel)
  have written : "$\x7b" ++ Walk.flagVariable "color" ++ "\x7d" = "$\x7bC_FLAG_COLOR\x7d" := by
    decide +kernel
  have read := Command.substitute_flagVariable command _ default set readable last
  rw [written] at read
  exact ⟨command, succeeds, set, readable, last, read⟩

/-- A dash in a name begins a default, a dot makes the placeholder malformed, and the first of two
flags with one upper case is hidden by the last. -/
theorem Command.colored_hides_flags :
    ∃ command, (Sample.colored.build (.empty "tool") .extended).value = .ok command ∧
      (command.walk ["--dry-run"]).flags.get? "dry-run" = some ["true"] ∧
      Walk.flagVariable "dry-run" = "C_FLAG_DRY-RUN" ∧
      ((command.walk ["--dry-run"]).context default).substitute "$\x7bC_FLAG_DRY-RUN\x7d" =
        .ok "RUN" ∧
      (command.walk ["--log.level", "3"]).flags.get? "log.level" = some ["3"] ∧
      Walk.flagVariable "log.level" = "C_FLAG_LOG.LEVEL" ∧
      (((command.walk ["--log.level", "3"]).context default).substitute
        "$\x7bC_FLAG_LOG.LEVEL\x7d").toOption = none ∧
      (command.walk ["--color", "a", "--COLOR", "b"]).flags.get? "COLOR" = some ["b"] ∧
      Walk.flagVariable "COLOR" = "C_FLAG_COLOR" ∧
      ((command.walk ["--color", "a", "--COLOR", "b"]).context default).substitute
        "$\x7bC_FLAG_COLOR\x7d" = .ok "a" := by
  have built : (Sample.colored.build (.empty "tool") .extended).value.toOption.any (fun command =>
      decide ((command.walk ["--dry-run"]).flags.get? "dry-run" = some ["true"] ∧
        (((command.walk ["--dry-run"]).context default).substitute
          "$\x7bC_FLAG_DRY-RUN\x7d").toOption = some "RUN" ∧
        (command.walk ["--log.level", "3"]).flags.get? "log.level" = some ["3"] ∧
        (((command.walk ["--log.level", "3"]).context default).substitute
          "$\x7bC_FLAG_LOG.LEVEL\x7d").toOption = none ∧
        (command.walk ["--color", "a", "--COLOR", "b"]).flags.get? "COLOR" = some ["b"] ∧
        (((command.walk ["--color", "a", "--COLOR", "b"]).context default).substitute
          "$\x7bC_FLAG_COLOR\x7d").toOption = some "a")) = true := by
    decide +kernel
  obtain ⟨command, succeeds, facts⟩ := exists_of_toOption_any built
  obtain ⟨dashed, fallback, dotted, malformed, colored, hidden⟩ := of_decide_eq_true facts
  exact ⟨command, succeeds, dashed, by decide +kernel, eq_ok_of_toOption fallback, dotted,
    by decide +kernel, malformed, colored, by decide +kernel, eq_ok_of_toOption hidden⟩

end TabSpec

import TabSpec.Proofs.Command.Assembly
import TabSpec.Proofs.Completion.Normal
import TabSpec.Proofs.Outcome
import TabSpec.Proofs.Walk.Target

/-! What becomes of the flags that completion offers. A form is offered once for each flag that has
it, and choosing it sets the first of them: no two flags side by side have one name, but they may
share a form. -/
namespace TabSpec

namespace Walk

variable {walk : Walk} {word : String}

/-- Where a flag may come next, a dashed word is the name of a flag or holds the value of one. -/
theorem target_of_dashed (settled : walk.pending = none) (before : walk.dash = none)
    (active : walk.flagsActive = true) (dashed : isDashed word = true) :
    walk.target word = .flagName ∨
      ∃ flag name value, walk.target word = .inlineValue flag name value := by
  unfold target
  rw [settled, before]
  simp only [dashed, active, Bool.and_self, if_true]
  cases walk.inlineFlag? word with
  | none => exact .inl rfl
  | some found => exact .inr ⟨_, _, _, rfl⟩

theorem target_of_inlineFlag? (settled : walk.pending = none) (before : walk.dash = none)
    (active : walk.flagsActive = true) (dashed : isDashed word = true)
    (alone : walk.inlineFlag? word = none) : walk.target word = .flagName := by
  unfold target
  simp [settled, before, dashed, active, alone]

/-- The candidates for a flag are forms of it and show its description. -/
theorem of_mem_flagCandidates {longOnly : Bool} {flag : Flag} {suggestion : Suggestion}
    (member : suggestion ∈ flagCandidates longOnly flag) :
    flag.answersTo suggestion.value = true ∧ suggestion.description = flag.description := by
  simp only [flagCandidates, List.mem_append, List.mem_map, List.mem_filter, Option.mem_toList]
    at member
  obtain ⟨form, ⟨long, _⟩, rfl⟩ | ⟨form, ⟨short, _⟩, rfl⟩ := member
  · exact ⟨Flag.answersTo_iff.mpr (.inl long), rfl⟩
  · exact ⟨Flag.answersTo_iff.mpr (.inr short), rfl⟩

/-- The candidates for flag names come from the flags on offer, each at its place. -/
theorem mem_suggestions_flagNames_iff {suggestion : Suggestion} :
    suggestion ∈ (walk.flagNames word).suggestions ↔ ∃ front flag back,
      walk.command.allFlags = front ++ flag :: back ∧ walk.isOffered flag = true ∧
        suggestion ∈ flagCandidates (Text.startsWith "--" word) flag := by
  have listed : (walk.flagNames word).suggestions =
      (walk.command.allFlags.filter walk.isOffered).flatMap
        (flagCandidates (Text.startsWith "--" word)) :=
    Completion.suggestions_addNospace _ _
  simp only [listed, List.mem_flatMap, List.mem_filter]
  constructor
  · rintro ⟨flag, ⟨present, offered⟩, candidate⟩
    obtain ⟨front, back, place⟩ := List.append_of_mem present
    exact ⟨front, flag, back, place, offered, candidate⟩
  · rintro ⟨front, flag, back, place, offered, candidate⟩
    exact ⟨flag, ⟨by simp [place], offered⟩, candidate⟩

/-- One more token behind a walk is one more step. -/
theorem resume_singleton (walk : Walk) (token : String) :
    walk.resume [token] = (walk.step token []).1 := by
  have nothing : (walk.step token []).2 = [] := List.suffix_nil.mp (step_suffix walk token [])
  rw [resume, nothing, resume_nil, ite_self]

end Walk

namespace Command

/-- Of the flags with a form, the first one is found. -/
theorem lookupToken_of_append {command : Command} {front back : List Flag} {flag : Flag}
    (place : command.allFlags = front ++ flag :: back) {form : String}
    (answers : flag.answersTo form = true) :
    command.lookupToken form = some ((front.find? (·.answersTo form)).getD flag) := by
  rw [lookupToken, place, List.find?_append, List.find?_cons, answers]
  cases front.find? (·.answersTo form) <;> rfl

/-- The candidates of completion are those for the target of its last argument. -/
theorem value_complete (command : Command) (registry : Registry) (nested : SpecTarget → Action)
    (base : Context) (tokens : List String) (word : String) :
    (command.complete registry nested base (tokens ++ [word])).value =
      (answer registry nested (command.walk tokens)
        { (command.walk tokens).context base with value := word }
        ((command.walk tokens).target word)).value := by
  simp [complete, Traced.bind_eq]

section

variable {root : Command} {tokens : List String} {form : String} {flag : Flag}

theorem isDashed_of_lookupToken {command : Command} (found : command.lookupToken form = some flag) :
    Walk.isDashed form = true ∧ form ≠ "-" := by
  have answers : flag.answersTo form = true := by simpa using List.find?_some found
  obtain ⟨c, rest, chars⟩ := Flag.toList_of_answersTo answers
  constructor
  · simp [Walk.isDashed, chars]
  · rintro rfl
    simp at chars

/-- A form of a flag gives the flag its values, if no subcommand is called by it. -/
theorem step_of_lookupToken {walk : Walk} (before : walk.dash = none)
    (active : walk.flagsActive = true) (found : walk.command.lookupToken form = some flag)
    (more : form ≠ "--") (plain : '=' ∉ form.toList) (stays : walk.descent? form = none)
    (following : List String) : walk.step form following = walk.assign flag none following := by
  obtain ⟨dashed, long⟩ := isDashed_of_lookupToken found
  rw [Walk.step_flag before active more stays dashed long, Walk.takeFlag_form found plain]

/-- Choosing a form of a flag sets the first flag that has it, if no subcommand is called by it. -/
theorem walk_concat_form (settled : (root.walk tokens).pending = none)
    (before : (root.walk tokens).dash = none) (active : (root.walk tokens).flagsActive = true)
    (found : (root.walk tokens).command.lookupToken form = some flag) (more : form ≠ "--")
    (plain : '=' ∉ form.toList) (stays : (root.walk tokens).descent? form = none) :
    root.walk (tokens ++ [form]) = ((root.walk tokens).assign flag none []).1 := by
  have reads := step_of_lookupToken before active found more plain stays []
  rw [walk, Walk.resume_append tokens [form] settled, Walk.resume_singleton]
  exact congrArg Prod.fst reads

end

/-- The candidates that are forms of flags come from the flags on offer, and show their
descriptions. Behind a dash that begins no value, all forms of those are offered. A form names the
first flag that has it: the one that was described, unless another one in front shares the form.
Choosing it sets that flag, unless it calls a subcommand, too. -/
theorem walk_offered_flag {spec : CommandSpec} {registry : Registry} {capabilities : Capabilities}
    {root : Command} (built : (spec.build registry capabilities).value = .ok root)
    (plain : ∀ node, root.Within node → ∀ flag ∈ node.allFlags, ∀ form ∈ flag.forms,
      '=' ∉ form.toList)
    {tokens : List String} {word : String} (settled : (root.walk tokens).pending = none)
    (before : (root.walk tokens).dash = none) (active : (root.walk tokens).flagsActive = true)
    (dashed : Walk.isDashed word = true) :
    (∀ registry nested base,
      ∀ suggestion ∈ (root.complete registry nested base (tokens ++ [word])).value.suggestions,
        (∃ flag ∈ (root.walk tokens).command.allFlags, suggestion.value ∈ flag.forms) →
        ∃ front flag back, (root.walk tokens).command.allFlags = front ++ flag :: back ∧
          (root.walk tokens).isOffered flag = true ∧
          suggestion ∈ Walk.flagCandidates (Text.startsWith "--" word) flag) ∧
    ((root.walk tokens).inlineFlag? word = none → ∀ registry nested base,
      ∀ front flag back, (root.walk tokens).command.allFlags = front ++ flag :: back →
        (root.walk tokens).isOffered flag = true →
        ∀ suggestion ∈ Walk.flagCandidates (Text.startsWith "--" word) flag,
          suggestion ∈
            (root.complete registry nested base (tokens ++ [word])).value.suggestions) ∧
    ∀ front flag back, (root.walk tokens).command.allFlags = front ++ flag :: back →
      ∀ suggestion ∈ Walk.flagCandidates (Text.startsWith "--" word) flag,
        suggestion.value ∈ flag.forms ∧ suggestion.description = flag.description ∧
        (root.walk tokens).command.lookupToken suggestion.value =
          some ((front.find? (·.answersTo suggestion.value)).getD flag) ∧
        (root.UndashedNames → (root.walk tokens).descent? suggestion.value = none) ∧
        ((root.walk tokens).descent? suggestion.value = none →
          root.walk (tokens ++ [suggestion.value]) = ((root.walk tokens).assign
            ((front.find? (·.answersTo suggestion.value)).getD flag) none []).1) := by
  have inside := root.within_walk tokens
  refine ⟨?_, ?_, ?_⟩
  · rintro registry nested base suggestion member ⟨known, listed, form⟩
    rw [value_complete] at member
    obtain aims | ⟨flag, name, value, aims⟩ := Walk.target_of_dashed settled before active dashed
    · rw [aims] at member
      exact Walk.mem_suggestions_flagNames_iff.mp member
    -- A value behind an equals sign is no form, since no form holds one.
    · rw [aims] at member
      obtain ⟨old, _, rfl⟩ := List.mem_map.mp member
      exact absurd (by simp) (plain _ inside known listed _ form)
  · intro alone registry nested base front flag back place offered suggestion member
    rw [value_complete, Walk.target_of_inlineFlag? settled before active dashed alone]
    exact Walk.mem_suggestions_flagNames_iff.mpr ⟨front, flag, back, place, offered, member⟩
  · intro front flag back place suggestion member
    obtain ⟨answers, described⟩ := Walk.of_mem_flagCandidates member
    have listed : flag ∈ (root.walk tokens).command.allFlags := by simp [place]
    have form := Flag.mem_forms_iff.mpr answers
    have more : suggestion.value ≠ "--" := fun same =>
      CommandSpec.separator_not_mem_forms built inside flag listed (same ▸ form)
    have found := lookupToken_of_append place answers
    exact ⟨form, described, found,
      fun undashed => undashed.descent?_eq_none inside (isDashed_of_lookupToken found).1,
      walk_concat_form settled before active found more (plain _ inside flag listed _ form)⟩

/-- A command without subcommands has nothing below it. -/
theorem Within.eq_of_leaf {root node : Command} (leaf : root.commands = [])
    (within : root.Within node) : node = root := by
  induction within with
  | self => rfl
  | child _ member same =>
    rw [same, leaf] at member
    cases member

theorem undashedNames_of_leaf {root : Command} (leaf : root.commands = []) :
    root.UndashedNames := by
  intro node within child member
  rw [within.eq_of_leaf leaf, leaf] at member
  cases member

namespace Sample

/-- Two flags side by side with one shorthand. -/
def sharing : CommandSpec :=
  { CommandSpec.empty with
    name := "tool"
    flags := .ofList
      [("-a, --all", .description "all entries"), ("-a, --any", .description "any entry")] }

def allEntries : Flag := ⟨"a", "all", "all entries", false, false, false, false, false, false, 0⟩

def anyEntry : Flag := ⟨"a", "any", "any entry", false, false, false, false, false, false, 0⟩

/-- The command is built, and behind `--all` another flag may come. -/
theorem exists_build_sharing :
    ∃ root, (sharing.build (.empty "tool") .extended).value = .ok root ∧ root.UndashedNames ∧
      (∀ node, root.Within node → ∀ flag ∈ node.allFlags, ∀ form ∈ flag.forms,
        '=' ∉ form.toList) ∧
      (root.walk ["--all"]).pending = none ∧ (root.walk ["--all"]).dash = none ∧
      (root.walk ["--all"]).flagsActive = true ∧
      (root.walk ["--all"]).command.allFlags = [allEntries, anyEntry] ∧
      ((root.complete (.empty "tool") (fun _ => .ofValues []) default
        ["--all", "-"]).value.suggestions.filter (·.value == "-a")).map (·.description) =
          ["any entry"] ∧
      (root.walk ["--all", "-a"]).flags.get? "any" = none := by
  have built : (sharing.build (.empty "tool") .extended).value.toOption.any (fun root =>
      decide (root.commands.isEmpty = true ∧
        (∀ flag ∈ root.allFlags, ∀ form ∈ flag.forms, '=' ∉ form.toList) ∧
        (root.walk ["--all"]).pending = none ∧ (root.walk ["--all"]).dash = none ∧
        (root.walk ["--all"]).flagsActive = true ∧
        (root.walk ["--all"]).command.allFlags = [allEntries, anyEntry] ∧
        ((root.complete (.empty "tool") (fun _ => .ofValues []) default
          ["--all", "-"]).value.suggestions.filter (·.value == "-a")).map (·.description) =
            ["any entry"] ∧
        (root.walk ["--all", "-a"]).flags.get? "any" = none)) = true := by
    decide +kernel
  obtain ⟨root, succeeds, facts⟩ := exists_of_toOption_any built
  obtain ⟨childless, plain, facts⟩ := of_decide_eq_true facts
  have leaf := List.isEmpty_iff.mp childless
  exact ⟨root, succeeds, undashedNames_of_leaf leaf,
    fun node within => within.eq_of_leaf leaf ▸ plain, facts⟩

end Sample

/-- Behind `--all`, the shorthand is offered for `--any`, and choosing it sets `--all` again. -/
theorem walk_offered_flag_sample :
    ∃ root, (Sample.sharing.build (.empty "tool") .extended).value = .ok root ∧
      (∀ node, root.Within node → ∀ flag ∈ node.allFlags, ∀ form ∈ flag.forms,
        '=' ∉ form.toList) ∧
      (root.walk ["--all"]).pending = none ∧ (root.walk ["--all"]).dash = none ∧
      (root.walk ["--all"]).flagsActive = true ∧ Walk.isDashed "-" = true ∧
      (root.walk ["--all"]).command.lookupToken "-a" = some Sample.allEntries ∧
      root.walk (["--all"] ++ ["-a"]) =
        ((root.walk ["--all"]).assign Sample.allEntries none []).1 := by
  obtain ⟨root, built, undashed, plain, settled, before, active, flags, _⟩ :=
    Sample.exists_build_sharing
  have dashed : Walk.isDashed "-" = true := by decide
  obtain ⟨_, _, choose⟩ := walk_offered_flag built plain settled before active dashed
  obtain ⟨_, _, found, stays, sets⟩ := choose [Sample.allEntries] Sample.anyEntry [] flags
    ⟨"-a", "-a", "any entry", "", "shorthand flags"⟩ (by decide +kernel)
  exact ⟨root, built, plain, settled, before, active, dashed, found, sets (stays undashed)⟩

/-- The shorthand is offered with the description of a flag that choosing it does not set. -/
theorem offered_form_sets_other :
    ∃ root, (Sample.sharing.build (.empty "tool") .extended).value = .ok root ∧
      root.UndashedNames ∧
      (∀ node, root.Within node → ∀ flag ∈ node.allFlags, ∀ form ∈ flag.forms,
        '=' ∉ form.toList) ∧
      (root.walk ["--all"]).pending = none ∧ (root.walk ["--all"]).dash = none ∧
      (root.walk ["--all"]).flagsActive = true ∧
      Sample.anyEntry ∈ (root.walk ["--all"]).command.allFlags ∧ "-a" ∈ Sample.anyEntry.forms ∧
      ((root.complete (.empty "tool") (fun _ => .ofValues []) default
        ["--all", "-"]).value.suggestions.filter (·.value == "-a")).map (·.description) =
          [Sample.anyEntry.description] ∧
      (root.walk ["--all"]).command.lookupToken "-a" ≠ some Sample.anyEntry ∧
      (root.walk ["--all", "-a"]).flags.get? "any" = none := by
  obtain ⟨root, built, undashed, plain, settled, before, active, flags, offered, unset⟩ :=
    Sample.exists_build_sharing
  have listed : Sample.anyEntry ∈ (root.walk ["--all"]).command.allFlags := by simp [flags]
  have other : (root.walk ["--all"]).command.lookupToken "-a" ≠ some Sample.anyEntry := by
    rw [lookupToken, flags]
    decide +kernel
  exact ⟨root, built, undashed, plain, settled, before, active, listed, by decide +kernel, offered,
    other, unset⟩

end Command
end TabSpec

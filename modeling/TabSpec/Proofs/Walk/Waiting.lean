import Mathlib.Data.List.TakeWhile
import TabSpec.Proofs.Command.Accepted
import TabSpec.Proofs.Command.FlagNames
import TabSpec.Proofs.Walk.Frame
import TabSpec.Proofs.Walk.Rendering

/-! Walks that end in a waiting flag. One token left the flag waiting, and the tokens behind it are the
values that it got. A flag that takes any number of values waits wherever the tokens end, so it cannot
be the last thing on a command line that is to be run; a dashed token behind its values sets it. -/
namespace TabSpec

namespace Walk

/-- From some tokens a walk goes on to a state with tokens left, and no flag is waiting between. -/
inductive Reaches : Walk → List String → Walk → List String → Prop
  | here {walk : Walk} {tokens : List String} : Reaches walk tokens walk tokens
  | next {walk later : Walk} {token : String} {tokens rest : List String}
      (settled : (walk.step token tokens).1.pending = none)
      (reaches : Reaches (walk.step token tokens).1 (walk.step token tokens).2 later rest) :
      Reaches walk (token :: tokens) later rest

namespace Reaches

variable {walk later : Walk} {tokens rest : List String}

theorem resume_eq (reaches : walk.Reaches tokens later rest) :
    walk.resume tokens = later.resume rest := by
  induction reaches with
  | here => rfl
  | next settled _ ih => rw [resume_cons settled, ih]

/-- More tokens behind stay behind. -/
theorem append (reaches : walk.Reaches tokens later rest) (more : List String) :
    walk.Reaches (tokens ++ more) later (rest ++ more) := by
  induction reaches with
  | here => exact .here
  | next settled _ ih =>
    have reads := step_append settled more
    rw [List.cons_append]
    refine .next (by rw [reads]; exact settled) ?_
    rw [reads]
    exact ih

end Reaches

variable {walk : Walk} {token : String} {tokens values : List String} {flag : Flag}

/-- Only where a flag may come can a token leave one waiting. -/
theorem accepting_of_step (ready : walk.pending = none)
    (waits : (walk.step token tokens).1.pending ≠ none) : walk.Accepting := by
  cases before : walk.dash with
  | some earlier =>
    rw [step_of_dash before] at waits
    exact absurd ready waits
  | none =>
    cases active : walk.flagsActive with
    | true => exact ⟨ready, before, active⟩
    | false =>
      rw [step_inactive before active] at waits
      exact absurd ready waits

theorem resume_of_wait {next : Walk} (reads : walk.step token tokens = (next.wait flag values, [])) :
    walk.resume (token :: tokens) = next.wait flag values := by
  rw [resume_cons_of_pending (by rw [reads]; simp [wait]), reads]

/-- A waiting flag was left by one token, and has all tokens behind it for values. -/
theorem exists_reaches_of_waiting (ready : walk.pending = none)
    (waits : (walk.resume tokens).pending = some (flag, values)) :
    ∃ before token flags, walk.Reaches tokens before (token :: values) ∧ before.Accepting ∧
      flag.gathers = true ∧ flag.values? values = none ∧
      ∀ following, before.step token following =
        ({ before with flags } : Walk).assign flag none following := by
  fun_induction resume walk tokens with
  | case1 walk =>
    rw [ready] at waits
    cases waits
  | case2 walk token tokens waiting =>
    have accepting := accepting_of_step ready (Option.isSome_iff_ne_none.mp waiting)
    cases outcome_step walk token with
    | settled next reads pending =>
      rw [reads, pending, ready] at waits
      cases waits
    | gathering flags gathered gathers reads =>
      rw [reads, assign_gathers _ gathers] at waits
      cases found : gathered.values? tokens with
      | some taken => simp [found, ready] at waits
      | none =>
        simp only [found, wait, Option.some.injEq, Prod.mk.injEq] at waits
        obtain ⟨rfl, rfl⟩ := waits
        exact ⟨walk, token, flags, .here, accepting, gathers, found, reads⟩
  | case3 walk token tokens noWait ih =>
    have settled := Option.not_isSome_iff_eq_none.mp noWait
    obtain ⟨before, last, flags, reaches, facts⟩ := ih settled waits
    exact ⟨before, last, flags, .next settled reaches, facts⟩

/-! ### Flags that take any number of values -/

/-- The walk with its waiting flag set to the values that it got. -/
def close (walk : Walk) : Walk :=
  match walk.pending with
  | some (flag, values) => ({ walk with pending := none } : Walk).set flag values
  | none => walk

theorem close_wait (ready : walk.pending = none) (flag : Flag) (values : List String) :
    (walk.wait flag values).close = walk.set flag values := by
  obtain ⟨command, flags, positional, dash, pending, unknown⟩ := walk
  cases ready
  rfl

/-- The tokens run out on a flag that takes any number of values when none of them has a dash. -/
theorem values?_eq_none_iff (any : flag.nargs < 0) :
    flag.values? values = none ↔ ∀ value ∈ values, isDashed value = false := by
  have all : values.dropWhile (!isDashed ·) = [] ↔ ∀ value ∈ values, isDashed value = false := by
    simp [List.dropWhile_eq_nil_iff]
  rw [← all]
  cases dropped : values.dropWhile (!isDashed ·) with
  | nil => simp [Flag.values?, any, dropped]
  | cons next rest => simp [Flag.values?, any, dropped]

/-- A dashed token ends the values of a flag that takes any number of them, and sets it. -/
theorem resume_append_of_waiting (ready : walk.pending = none)
    (waits : (walk.resume tokens).pending = some (flag, values)) (any : flag.nargs < 0)
    {word : String} (dashed : isDashed word = true) (more : List String) :
    walk.resume (tokens ++ word :: more) = (walk.resume tokens).close.resume (word :: more) ∧
      (walk.resume tokens).close.Accepting := by
  obtain ⟨before, token, flags, reaches, accepting, gathers, short, reads⟩ :=
    exists_reaches_of_waiting ready waits
  have settled : ({ before with flags } : Walk).pending = none := accepting.settled
  have waited : walk.resume tokens = ({ before with flags } : Walk).wait flag values := by
    rw [reaches.resume_eq]
    exact resume_of_wait (by rw [reads, assign_gathers _ gathers, short])
  have closed : (walk.resume tokens).close = ({ before with flags } : Walk).set flag values := by
    rw [waited, close_wait settled]
  have undashed := (values?_eq_none_iff any).mp short
  have taken : before.step token (values ++ word :: more) =
      (({ before with flags } : Walk).set flag values, word :: more) := by
    rw [reads, assign_gathers _ gathers,
      Flag.values?_spread (by simpa [any] using undashed) (fun _ => by simpa using dashed)]
  rw [closed]
  constructor
  · have behind := reaches.append (word :: more)
    rw [behind.resume_eq]
    exact resume_of_step taken settled
  · exact ⟨settled, accepting.before, accepting.active⟩

end Walk

namespace Command

namespace Sample

/-- A command with a flag that takes any number of values. -/
def collecting : CommandSpec :=
  { CommandSpec.empty with
    name := "tool"
    flags := .ofList
      [("--files=*{-1}", .description "files"), ("--json", .description "json output")] }

def anyFiles : Flag := ⟨"", "files", "files", false, true, false, true, false, false, -1⟩

/-- The command is built, and its first token may be the flag. -/
theorem exists_build_collecting :
    ∃ root, (collecting.build (.empty "tool") .extended).value = .ok root ∧
      (root.walk []).Accepting ∧ (root.walk []).command.lookupToken "--files" = some anyFiles ∧
      (root.walk []).descent? "--files" = none ∧
      (root.walk ["--files", "a", "b"]).pending = some (anyFiles, ["a", "b"]) ∧
      objection? (root.walk ["--files", "a", "b"]) = some (.missingArgument "--files") ∧
      (root.walk ["--files", "a", "b"]).target "--js" = .flagValue anyFiles ∧
      (root.walk ["--files", "a", "b"]).close.target "--js" = .flagName ∧
      (root.walk ["--files", "a", "b", "--json"]).flags.get? "files" = some ["a", "b"] ∧
      (root.walk ["--files", "a", "b", "--json"]).flags.contains "json" = true := by
  have built : (collecting.build (.empty "tool") .extended).value.toOption.any (fun root =>
      decide ((root.walk []).dash = none ∧ (root.walk []).flagsActive = true ∧
        (root.walk []).command.lookupToken "--files" = some anyFiles ∧
        (root.walk []).command.commands.isEmpty = true ∧
        (root.walk ["--files", "a", "b"]).pending = some (anyFiles, ["a", "b"]) ∧
        objection? (root.walk ["--files", "a", "b"]) = some (.missingArgument "--files") ∧
        (root.walk ["--files", "a", "b"]).target "--js" = .flagValue anyFiles ∧
        (root.walk ["--files", "a", "b"]).close.target "--js" = .flagName ∧
        (root.walk ["--files", "a", "b", "--json"]).flags.get? "files" = some ["a", "b"] ∧
        (root.walk ["--files", "a", "b", "--json"]).flags.contains "json" = true)) = true := by
    decide +kernel
  obtain ⟨root, succeeds, facts⟩ := exists_of_toOption_any built
  obtain ⟨before, active, known, childless, facts⟩ := of_decide_eq_true facts
  have settled : (root.walk []).pending = none := congrArg Walk.pending Walk.resume_nil
  have stays : (root.walk []).descent? "--files" = none :=
    Walk.descent?_eq_none (by simp [List.isEmpty_iff.mp childless]) (by decide)
  exact ⟨root, succeeds, ⟨settled, before, active⟩, known, stays, facts⟩

end Sample

/-- Completion asks for a value of a flag that waits for any number of values, whatever is typed. To a
walk, a dashed word is the end of those values: the flag is set to what it got, and the word stands
where a flag may come, as the name of one or with the value of one. -/
theorem complete_behind_waiting (command : Command) {tokens values : List String} {flag : Flag}
    (waits : (command.walk tokens).pending = some (flag, values)) (any : flag.nargs < 0)
    {word : String} (dashed : Walk.isDashed word = true) :
    (∀ registry nested base,
      (command.complete registry nested base (tokens ++ [word])).value =
        (flagValue registry nested (command.walk tokens).command flag
          { (command.walk tokens).context base with value := word }).value) ∧
    (∀ more, command.walk (tokens ++ word :: more) =
      (command.walk tokens).close.resume (word :: more)) ∧
    ((command.walk tokens).close.target word = .flagName ∨
      ∃ other name value,
        (command.walk tokens).close.target word = .inlineValue other name value) := by
  have aims : (command.walk tokens).target word = .flagValue flag := by simp [Walk.target, waits]
  have behind := Walk.resume_append_of_waiting rfl waits any dashed
  refine ⟨?_, fun more => (behind more).1, ?_⟩
  · intro registry nested base
    rw [value_complete, aims]
    rfl
  · obtain ⟨settled, before, active⟩ := (behind []).2
    exact Walk.target_of_dashed settled before active dashed

/-- Behind two values of `--files`, a dashed word is completed as a third one, and walked as a flag. -/
theorem complete_behind_waiting_sample :
    ∃ root, (Sample.collecting.build (.empty "tool") .extended).value = .ok root ∧
      (root.walk ["--files", "a", "b"]).pending = some (Sample.anyFiles, ["a", "b"]) ∧
      Sample.anyFiles.nargs < 0 ∧ Walk.isDashed "--json" = true ∧
      root.walk ["--files", "a", "b", "--json", "c"] =
        (root.walk ["--files", "a", "b"]).close.resume ["--json", "c"] := by
  obtain ⟨root, built, _, _, _, waits, _⟩ := Sample.exists_build_collecting
  have dashed : Walk.isDashed "--json" = true := by decide
  obtain ⟨_, behind, _⟩ := complete_behind_waiting root waits (by decide) dashed
  exact ⟨root, built, waits, by decide, dashed, behind ["c"]⟩

/-- Completion takes the beginning of a flag for a value of the flag in front, though that one has
values and ends where another flag begins. -/
theorem dashed_word_completed_as_value :
    ∃ root, (Sample.collecting.build (.empty "tool") .extended).value = .ok root ∧
      (root.walk ["--files", "a", "b"]).pending = some (Sample.anyFiles, ["a", "b"]) ∧
      Sample.anyFiles.nargs < 0 ∧ Walk.isDashed "--js" = true ∧
      (root.walk ["--files", "a", "b"]).target "--js" = .flagValue Sample.anyFiles ∧
      (root.walk ["--files", "a", "b"]).close.target "--js" = .flagName ∧
      (root.walk ["--files", "a", "b", "--json"]).flags.get? "files" = some ["a", "b"] ∧
      (root.walk ["--files", "a", "b", "--json"]).flags.contains "json" = true := by
  obtain ⟨root, built, _, _, _, waits, _, aims, closed, values, other⟩ :=
    Sample.exists_build_collecting
  exact ⟨root, built, waits, by decide, by decide, aims, closed, values, other⟩

/-- A flag that takes any number of values refuses to be the last on a command line that is to be run,
whatever values it has. With a dashed token behind them, the same values are recorded. -/
theorem parse_refuses_open_values {spec : CommandSpec} {registry : Registry}
    {capabilities : Capabilities} {root : Command}
    (built : (spec.build registry capabilities).value = .ok root)
    {front values : List String} {form : String} {flag : Flag}
    (accepting : (root.walk front).Accepting)
    (found : (root.walk front).command.lookupToken form = some flag)
    (plain : '=' ∉ form.toList) (stays : (root.walk front).descent? form = none)
    (gathers : flag.gathers = true) (any : flag.nargs < 0)
    (undashed : ∀ value ∈ values, Walk.isDashed value = false) :
    root.parse (front ++ form :: values) =
      .error (.usage (.missingArgument ((flag.longForm?.or flag.shortForm?).getD ""))) ∧
    root.walk (front ++ form :: values) = (root.walk front).wait flag values ∧
    ∀ word more, Walk.isDashed word = true →
      root.walk (front ++ form :: values ++ word :: more) =
        ((root.walk front).set flag values).resume (word :: more) ∧
      ∃ all, ((root.walk front).set flag values).flags.get? flag.name = some all ∧
        values <:+ all := by
  obtain ⟨settled, before, active⟩ := accepting
  have separate : form ≠ "--" := by
    rintro rfl
    have answers : flag.answersTo "--" = true := by simpa using List.find?_some found
    exact CommandSpec.separator_not_mem_forms built (root.within_walk front) flag
      (List.mem_of_find?_eq_some found) (Flag.mem_forms_iff.mpr answers)
  have short := (Walk.values?_eq_none_iff any).mpr undashed
  have reads := step_of_lookupToken before active found separate plain stays values
  rw [Walk.assign_gathers _ gathers, short] at reads
  have waits : root.walk (front ++ form :: values) = (root.walk front).wait flag values :=
    (Walk.resume_append front _ settled).trans (Walk.resume_of_wait reads)
  refine ⟨?_, waits, ?_⟩
  · rw [parse, waits]
    rfl
  · intro word more dashed
    have waiting : (root.walk (front ++ form :: values)).pending = some (flag, values) := by
      rw [waits]
      rfl
    have behind := (Walk.resume_append_of_waiting rfl waiting any dashed more).1
    refine ⟨?_, _, by rw [Walk.get?_set, if_pos rfl], List.suffix_append ..⟩
    rw [← Walk.close_wait settled, ← waits]
    exact behind

/-- Both values of `--files` are there, and the flag still asks for one at the end of the line. -/
theorem parse_refuses_open_values_sample :
    ∃ root, (Sample.collecting.build (.empty "tool") .extended).value = .ok root ∧
      (root.walk []).Accepting ∧
      (root.walk []).command.lookupToken "--files" = some Sample.anyFiles ∧
      '=' ∉ "--files".toList ∧ (root.walk []).descent? "--files" = none ∧
      Sample.anyFiles.gathers = true ∧ Sample.anyFiles.nargs < 0 ∧
      (∀ value ∈ ["a", "b"], Walk.isDashed value = false) ∧
      root.parse ["--files", "a", "b"] = .error (.usage (.missingArgument "--files")) ∧
      root.walk ["--files", "a", "b", "--"] =
        ((root.walk []).set Sample.anyFiles ["a", "b"]).resume ["--"] := by
  obtain ⟨root, built, accepting, found, stays, _⟩ := Sample.exists_build_collecting
  have plain : '=' ∉ "--files".toList := by decide +kernel
  have undashed : ∀ value ∈ ["a", "b"], Walk.isDashed value = false := by decide
  obtain ⟨refuses, _, behind⟩ := parse_refuses_open_values built accepting found plain stays
    (by decide) (by decide) undashed
  exact ⟨root, built, accepting, found, plain, stays, by decide, by decide, undashed, refuses,
    (behind "--" [] (by decide)).1⟩

/-- A command line that ends with the values of a flag is refused for want of a value. -/
theorem values_at_end_refused :
    ∃ root, (Sample.collecting.build (.empty "tool") .extended).value = .ok root ∧
      (root.walk []).Accepting ∧
      (root.walk []).command.lookupToken "--files" = some Sample.anyFiles ∧
      (root.walk []).descent? "--files" = none ∧
      Sample.anyFiles.gathers = true ∧ Sample.anyFiles.nargs < 0 ∧
      (∀ value ∈ ["a", "b"], Walk.isDashed value = false) ∧
      root.parse ["--files", "a", "b"] = .error (.usage (.missingArgument "--files")) := by
  obtain ⟨root, built, accepting, found, stays, _, objects, _⟩ := Sample.exists_build_collecting
  refine ⟨root, built, accepting, found, stays, by decide, by decide, by decide, ?_⟩
  rw [parse, objects]

end Command
end TabSpec

import TabSpec.Command.Complete
import TabSpec.Proofs.Command.Tree

/-! What completion takes the last argument for is what walking makes of it. -/
namespace TabSpec

namespace Walk

/-- A walk agrees with completion about a word: `after` is the walk of the arguments up to the word,
`before` that of the arguments in front of it, and each field tells where the word stands when
completion takes it for such a target. -/
structure Agrees (before : Walk) (word : String) (after : Walk) : Prop where
  flagValue (flag : Flag) (values : List String) :
    before.pending = some (flag, values) → 0 ≤ flag.nargs →
      before.target word = .flagValue flag ∧
      (after.pending = some (flag, values ++ [word]) ∨
        ∃ all, after.flags.get? flag.name = some all ∧ values ++ [word] <:+ all)
  dash (earlier : List String) :
    before.target word = .dash earlier →
      before.dash = some earlier ∧ after.dash = some (earlier ++ [word])
  inlineValue (flag : Flag) (name value : String) :
    before.target word = .inlineValue flag name value →
      word = name ++ "=" ++ value ∧ after.pending = none ∧
      ∃ all, after.flags.get? flag.name = some all ∧ all.getLast? = some value
  positional (index : Nat) :
    before.target word = .positional index →
      index = before.positional.length ∧
      (∀ child, index = 0 → before.flagsActive = true →
        before.command.find? word = some child → after.command = child) ∧
      ((index = 0 → before.flagsActive = true → before.command.find? word = none) →
        after.positional = before.positional ++ [word])

variable {walk : Walk}

/-- One more word behind a step that left a flag of fixed arity waiting: the flag takes it, and goes on
waiting or is set. -/
theorem step_concat_of_pending {token : String} {tokens values : List String} {flag : Flag}
    (ready : walk.pending = none)
    (waits : (walk.step token tokens).1.pending = some (flag, values))
    (fixed : 0 ≤ flag.nargs) (word : String) :
    ∃ flags,
      walk.step token (tokens ++ [word]) =
        (({ walk with flags } : Walk).wait flag (values ++ [word]), []) ∨
      walk.step token (tokens ++ [word]) =
        (({ walk with flags } : Walk).set flag (values ++ [word]), []) := by
  cases outcome_step walk token with
  | settled next reads pending =>
    rw [reads, pending, ready] at waits
    cases waits
  | gathering flags gathered gathers reads =>
    rw [reads, assign_gathers _ gathers] at waits
    rw [reads, assign_gathers _ gathers]
    cases found : gathered.values? tokens with
    | some taken =>
      rw [found] at waits
      simp [ready] at waits
    | none =>
      simp only [found, wait, Option.some.injEq, Prod.mk.injEq] at waits
      obtain ⟨rfl, rfl⟩ := waits
      refine ⟨flags, ?_⟩
      rcases Flag.values?_concat fixed found word with short | enough
      · left
        rw [short]
      · right
        rw [enough]

/-- A flag of fixed arity that waits for values is given the next word. -/
theorem resume_concat_of_pending {tokens values : List String} {flag : Flag}
    (ready : walk.pending = none) (waits : (walk.resume tokens).pending = some (flag, values))
    (fixed : 0 ≤ flag.nargs) (word : String) :
    (walk.resume (tokens ++ [word])).pending = some (flag, values ++ [word]) ∨
      ∃ all, (walk.resume (tokens ++ [word])).flags.get? flag.name = some all ∧
        values ++ [word] <:+ all := by
  fun_induction resume walk tokens with
  | case1 walk =>
    rw [ready] at waits
    cases waits
  | case2 walk token tokens _ =>
    rw [List.cons_append]
    obtain ⟨flags, short | enough⟩ := step_concat_of_pending ready waits fixed word
    · left
      rw [resume_cons_of_pending (by rw [short]; simp [wait]), short]
      rfl
    · right
      rw [resume_of_step enough ready, resume_nil]
      exact ⟨_, by rw [get?_set, if_pos rfl], List.suffix_append ..⟩
  | case3 walk token tokens noWait ih =>
    have quiet := Option.not_isSome_iff_eq_none.mp noWait
    have next := step_append quiet [word]
    rw [List.cons_append, resume_of_step next quiet]
    exact ih quiet waits

/-! ### What a target says about the walk in front of it -/

theorem of_target_dash {word : String} {earlier : List String}
    (aims : walk.target word = .dash earlier) :
    walk.pending = none ∧ walk.dash = some earlier := by
  unfold target at aims
  split at aims
  · cases aims
  · rename_i quiet behind
    cases aims
    exact ⟨quiet, behind⟩
  · split at aims
    · split at aims <;> cases aims
    · cases aims

theorem of_target_inlineValue {word name value : String} {flag : Flag}
    (aims : walk.target word = .inlineValue flag name value) :
    walk.pending = none ∧ walk.dash = none ∧ isDashed word = true ∧ walk.flagsActive = true ∧
      Text.splitOnce? "=" word = some (name, value) ∧
      walk.command.lookupToken name = some flag := by
  unfold target at aims
  split at aims
  · cases aims
  · cases aims
  · rename_i quiet before
    split at aims
    · rename_i dashed
      obtain ⟨dashed, active⟩ := Bool.and_eq_true_iff.mp dashed
      split at aims
      · rename_i found
        cases aims
        simp only [inlineFlag?, Option.bind_eq_bind, Option.bind_eq_some_iff, Prod.exists] at found
        obtain ⟨front, back, cut, other, known, kept⟩ := found
        split at kept
        · cases kept
          exact ⟨quiet, before, dashed, active, cut, known⟩
        · cases kept
      · cases aims
    · cases aims

theorem of_target_positional {word : String} {index : Nat}
    (aims : walk.target word = .positional index) :
    walk.pending = none ∧ walk.dash = none ∧ index = walk.positional.length ∧
      (walk.flagsActive = true → isDashed word = false) := by
  unfold target at aims
  split at aims
  · cases aims
  · cases aims
  · rename_i quiet before
    split at aims
    · split at aims <;> cases aims
    · rename_i plain
      cases aims
      refine ⟨quiet, before, rfl, ?_⟩
      intro active
      simpa [active] using plain

/-! ### The walk up to a word, from what completion takes the word for -/

section

variable {tokens : List String} {word : String} {after : Walk}

theorem resume_concat (settled : (walk.resume tokens).pending = none)
    (reads : (walk.resume tokens).step word [] = (after, [])) (quiet : after.pending = none) :
    walk.resume (tokens ++ [word]) = after := by
  rw [resume_append tokens [word] settled, resume_of_step reads quiet, resume_nil]

theorem resume_concat_of_dash {earlier : List String}
    (aims : (walk.resume tokens).target word = .dash earlier) :
    walk.resume (tokens ++ [word]) =
      { walk.resume tokens with dash := some (earlier ++ [word]) } := by
  obtain ⟨settled, behind⟩ := of_target_dash aims
  exact resume_concat settled (step_of_dash behind word []) settled

theorem resume_concat_of_inlineValue {name value : String} {flag : Flag}
    (aims : (walk.resume tokens).target word = .inlineValue flag name value)
    (stays : (walk.resume tokens).descent? word = none) :
    walk.resume (tokens ++ [word]) = (walk.resume tokens).set flag [value] := by
  obtain ⟨settled, before, dashed, active, cut, known⟩ := of_target_inlineValue aims
  have uncut (other : String) (whole : Text.splitOnce? "=" other = none) : word ≠ other := by
    rintro rfl
    rw [whole] at cut
    cases cut
  have reads := step_flag before active (uncut "--" (by decide)) stays dashed
    (uncut "-" (by decide)) []
  rw [takeFlag_inline cut known] at reads
  exact resume_concat settled reads settled

theorem resume_concat_of_child {index : Nat} {child : Command}
    (aims : (walk.resume tokens).target word = .positional index)
    (active : (walk.resume tokens).flagsActive = true)
    (descends : (walk.resume tokens).descent? word = some child) :
    walk.resume (tokens ++ [word]) = { walk.resume tokens with command := child } := by
  obtain ⟨settled, before, _, plain⟩ := of_target_positional aims
  have more : word ≠ "--" := by
    rintro rfl
    exact absurd (plain active) (by decide)
  exact resume_concat settled (step_descent before active more descends []) settled

theorem resume_concat_of_positional {index : Nat}
    (aims : (walk.resume tokens).target word = .positional index)
    (stays : (walk.resume tokens).flagsActive = true →
      (walk.resume tokens).descent? word = none) :
    walk.resume (tokens ++ [word]) =
      { walk.resume tokens with positional := (walk.resume tokens).positional ++ [word] } := by
  obtain ⟨settled, before, _, plain⟩ := of_target_positional aims
  cases active : (walk.resume tokens).flagsActive with
  | false => exact resume_concat settled (step_inactive before active word []) settled
  | true =>
    exact resume_concat settled
      (step_positional before active (stays active) (.inl (plain active)) []) settled

end

end Walk

/-- No subcommand, at any depth, is called by a dashed word. -/
def Command.UndashedNames (command : Command) : Prop :=
  ∀ node, command.Within node → ∀ child ∈ node.commands,
    ∀ name ∈ child.name :: child.aliases, Walk.isDashed name = false

/-- A dashed word calls none of the subcommands, when no name of theirs is dashed. -/
theorem Walk.descent?_eq_none {walk : Walk}
    (undashed : ∀ child ∈ walk.command.commands, ∀ name ∈ child.name :: child.aliases,
      isDashed name = false)
    {word : String} (dashed : isDashed word = true) : walk.descent? word = none := by
  unfold descent?
  split
  · cases found : walk.command.find? word with
    | none => rfl
    | some child =>
      obtain ⟨member, answers⟩ := Command.mem_of_find? found
      have plain := undashed child member word (Command.answersTo_iff.mp answers)
      rw [plain] at dashed
      cases dashed
  · rfl

theorem Command.UndashedNames.descent?_eq_none {root : Command} (undashed : root.UndashedNames)
    {walk : Walk} (inside : root.Within walk.command) {word : String}
    (dashed : Walk.isDashed word = true) : walk.descent? word = none :=
  Walk.descent?_eq_none (undashed _ inside) dashed

/-- Completion and walking agree on the last argument: completion asks for the target that the walk
in front of the argument gives, and the walk up to the argument puts it where the target says. -/
theorem Command.walk_agrees_with_target (command : Command) (undashed : command.UndashedNames)
    (tokens : List String) (word : String) :
    (command.walk tokens).Agrees word (command.walk (tokens ++ [word])) ∧
    ∀ registry nested base,
      (command.complete registry nested base (tokens ++ [word])).value =
        (answer registry nested (command.walk tokens)
          { (command.walk tokens).context base with value := word }
          ((command.walk tokens).target word)).value := by
  refine ⟨⟨?_, ?_, ?_, ?_⟩, ?_⟩
  · intro flag values waits fixed
    refine ⟨?_, Walk.resume_concat_of_pending rfl waits fixed word⟩
    simp [Walk.target, waits]
  · intro earlier aims
    have after := Walk.resume_concat_of_dash aims
    exact ⟨(Walk.of_target_dash aims).2, congrArg Walk.dash after⟩
  · intro flag name value aims
    obtain ⟨settled, _, dashed, _, cut, _⟩ := Walk.of_target_inlineValue aims
    have stays := undashed.descent?_eq_none (command.within_walk tokens) dashed
    have after : command.walk (tokens ++ [word]) = (command.walk tokens).set flag [value] :=
      Walk.resume_concat_of_inlineValue aims stays
    rw [after]
    refine ⟨Text.eq_of_splitOnce? cut, settled, _, by rw [Walk.get?_set, if_pos rfl], ?_⟩
    simp
  · intro index aims
    obtain ⟨_, _, rfl, _⟩ := Walk.of_target_positional aims
    refine ⟨rfl, ?_, ?_⟩
    · intro child first active named
      have descends : (command.walk tokens).descent? word = some child := by
        simpa [Walk.descent?, List.eq_nil_of_length_eq_zero first] using named
      exact congrArg Walk.command (Walk.resume_concat_of_child aims active descends)
    · intro unnamed
      have stays (active : (command.walk tokens).flagsActive = true) :
          (command.walk tokens).descent? word = none := by
        unfold Walk.descent?
        split
        · rename_i nothing
          exact unnamed (by simpa using nothing) active
        · rfl
      exact congrArg Walk.positional (Walk.resume_concat_of_positional aims stays)
  · intro registry nested base
    simp [complete, Traced.bind_eq]

/-- A command with a subcommand that has two names. -/
def Sample.tool : Command :=
  { Sample.command with commands := [{ (default : Command) with name := "sub", aliases := ["s"] }] }

theorem Sample.tool_undashed : Sample.tool.UndashedNames := by
  intro node within
  have place : node = tool ∨ node.commands = [] := by
    induction within with
    | self => exact .inl rfl
    | child above member place =>
      right
      rcases place with rfl | leaf
      · simp only [tool, List.mem_singleton] at member
        rw [member]
        rfl
      · simp [leaf] at member
  rcases place with rfl | leaf
  · decide
  · simp [leaf]

/-- The value behind an equals sign is completed and recorded for the same flag. -/
theorem Command.walk_agrees_with_target_sample :
    Sample.tool.UndashedNames ∧
    (Sample.tool.walk ["-v"]).target "--pair=ab" = .inlineValue Sample.pair "--pair" "ab" ∧
    (Sample.tool.walk (["-v"] ++ ["--pair=ab"])).pending = none ∧
    ∃ all, (Sample.tool.walk (["-v"] ++ ["--pair=ab"])).flags.get? "pair" = some all ∧
      all.getLast? = some "ab" := by
  have aims : (Sample.tool.walk ["-v"]).target "--pair=ab" =
      .inlineValue Sample.pair "--pair" "ab" := by
    decide +kernel
  obtain ⟨agrees, _⟩ :=
    walk_agrees_with_target Sample.tool Sample.tool_undashed ["-v"] "--pair=ab"
  exact ⟨Sample.tool_undashed, aims, (agrees.inlineValue _ _ _ aims).2⟩

end TabSpec

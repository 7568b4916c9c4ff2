import TabSpec.Proofs.Walk.Reading

/-! Walking is incremental: tokens that are typed later never change how earlier tokens were read,
unless a flag was still waiting for values. -/
namespace TabSpec

namespace Walk

/-- One stage of a walk: the token that was read, the tokens behind it that became its values, and
the state that they led to. -/
structure Stage where
  token : String
  values : List String
  after : Walk

/-- The stages in which a walk goes on with tokens. -/
def stages (walk : Walk) : List String → List Stage
  | [] => []
  | token :: tokens =>
    let next := walk.step token tokens
    let stage : Stage := ⟨token, tokens.take (tokens.length - next.2.length), next.1⟩
    if next.1.pending.isSome then [stage] else stage :: next.1.stages next.2
termination_by tokens => tokens.length
decreasing_by
  have shorter := length_step_le walk token tokens
  simp only [List.length_cons]
  omega

variable {walk : Walk} {token : String} {tokens : List String}

theorem resume_nil : walk.resume [] = walk := by rw [resume]

theorem resume_cons (settled : (walk.step token tokens).1.pending = none) :
    walk.resume (token :: tokens) =
      (walk.step token tokens).1.resume (walk.step token tokens).2 := by
  rw [resume, settled]
  rfl

/-- A step that is known and waits for nothing is left behind. -/
theorem resume_of_step {next : Walk} {rest : List String}
    (reads : walk.step token tokens = (next, rest)) (settled : next.pending = none) :
    walk.resume (token :: tokens) = next.resume rest := by
  rw [resume_cons (by rw [reads]; exact settled), reads]

theorem resume_cons_of_pending (waits : (walk.step token tokens).1.pending ≠ none) :
    walk.resume (token :: tokens) = (walk.step token tokens).1 := by
  rw [resume, if_pos (Option.isSome_iff_ne_none.mpr waits)]

theorem stages_cons (settled : (walk.step token tokens).1.pending = none) :
    walk.stages (token :: tokens) =
      ⟨token, tokens.take (tokens.length - (walk.step token tokens).2.length),
        (walk.step token tokens).1⟩ ::
      (walk.step token tokens).1.stages (walk.step token tokens).2 := by
  rw [stages, settled]
  rfl

theorem stages_cons_of_pending (waits : (walk.step token tokens).1.pending ≠ none) :
    walk.stages (token :: tokens) =
      [⟨token, tokens.take (tokens.length - (walk.step token tokens).2.length),
        (walk.step token tokens).1⟩] := by
  rw [stages, if_pos (Option.isSome_iff_ne_none.mpr waits)]

/-- A step leaves a rear part of the tokens behind its token. -/
theorem step_suffix (walk : Walk) (token : String) (tokens : List String) :
    (walk.step token tokens).2 <:+ tokens := by
  cases outcome_step walk token with
  | settled next reads =>
    exact ⟨[], by simp [reads]⟩
  | gathering flags flag gathers reads =>
    rw [reads, assign_gathers _ gathers]
    cases found : flag.values? tokens with
    | none => exact List.nil_suffix
    | some taken =>
      obtain ⟨values, rest⟩ := taken
      exact ⟨values, (Flag.values?_eq_append found).symm⟩

/-- A step that does not run out of tokens reads the same with more tokens behind. -/
theorem step_append (settled : (walk.step token tokens).1.pending = none) (more : List String) :
    walk.step token (tokens ++ more) =
      ((walk.step token tokens).1, (walk.step token tokens).2 ++ more) := by
  cases outcome_step walk token with
  | settled next reads => rw [reads, reads]
  | gathering flags flag gathers reads =>
    rw [reads, assign_gathers _ gathers] at settled
    rw [reads, reads, assign_gathers _ gathers, assign_gathers _ gathers]
    cases found : flag.values? tokens with
    | none => simp [found, wait] at settled
    | some taken =>
      obtain ⟨values, rest⟩ := taken
      rw [Flag.values?_append found more]

/-- A step that ends in a waiting flag leaves no tokens. -/
theorem step_of_pending (ready : walk.pending = none)
    (waits : (walk.step token tokens).1.pending ≠ none) : (walk.step token tokens).2 = [] := by
  cases outcome_step walk token with
  | settled next reads pending =>
    rw [reads] at waits
    exact absurd (pending.trans ready) waits
  | gathering flags flag gathers reads =>
    rw [reads, assign_gathers _ gathers] at waits ⊢
    cases found : flag.values? tokens with
    | none => rfl
    | some taken =>
      rw [found] at waits
      exact absurd ready waits

/-- The stages of a walk account for every token, in order. -/
theorem flatMap_stages (walk : Walk) (tokens : List String) (ready : walk.pending = none) :
    (walk.stages tokens).flatMap (fun stage => stage.token :: stage.values) = tokens := by
  fun_induction resume walk tokens with
  | case1 walk => simp [stages]
  | case2 walk token tokens waits =>
    have waiting := Option.isSome_iff_ne_none.mp waits
    rw [stages_cons_of_pending waiting, step_of_pending ready waiting]
    simp
  | case3 walk token tokens noWait ih =>
    have quiet := Option.not_isSome_iff_eq_none.mp noWait
    obtain ⟨values, whole⟩ := step_suffix walk token tokens
    rw [stages_cons quiet, List.flatMap_cons, ih quiet]
    generalize (walk.step token tokens).2 = rest at whole
    subst whole
    simp

/-- The state behind a walk is that behind its last stage. -/
theorem resume_eq_last_stage (walk : Walk) (tokens : List String) :
    walk.resume tokens = ((walk.stages tokens).getLast?.map (·.after)).getD walk := by
  fun_induction resume walk tokens with
  | case1 walk => simp [stages]
  | case2 walk token tokens waits =>
    rw [stages_cons_of_pending (Option.isSome_iff_ne_none.mp waits)]
    rfl
  | case3 walk token tokens noWait ih =>
    rw [stages_cons (Option.not_isSome_iff_eq_none.mp noWait), ih, List.getLast?_cons]
    cases (stages _ _).getLast? <;> rfl

theorem resume_append (first second : List String)
    (settled : (walk.resume first).pending = none) :
    walk.resume (first ++ second) = (walk.resume first).resume second := by
  fun_induction resume walk first with
  | case1 walk => rfl
  | case2 walk token tokens waits =>
    rw [settled] at waits
    cases waits
  | case3 walk token tokens noWait ih =>
    have next := step_append (Option.not_isSome_iff_eq_none.mp noWait) second
    rw [List.cons_append, resume_cons (by simpa [next] using noWait), next]
    exact ih settled

theorem stages_append (first second : List String)
    (settled : (walk.resume first).pending = none) :
    walk.stages (first ++ second) =
      walk.stages first ++ (walk.resume first).stages second := by
  fun_induction resume walk first with
  | case1 walk => simp [stages]
  | case2 walk token tokens waits =>
    rw [settled] at waits
    cases waits
  | case3 walk token tokens noWait ih =>
    have quiet := Option.not_isSome_iff_eq_none.mp noWait
    have next := step_append quiet second
    have shorter := (step_suffix walk token tokens).length_le
    rw [List.cons_append, stages_cons (by simpa [next] using noWait), next, stages_cons quiet,
      List.cons_append, ← ih settled]
    simp only [List.length_append]
    rw [List.take_append_of_le_length (by omega), Nat.add_sub_add_right]

end Walk

/-- A command line may be walked in two goes, unless the first one ends within a flag: the state is
the same, and so is what every token of the first part was taken for. -/
theorem Command.walk_append (command : Command) (first second : List String)
    (settled : (command.walk first).pending = none) :
    command.walk (first ++ second) = (command.walk first).resume second ∧
    (Walk.start command).stages (first ++ second) =
      (Walk.start command).stages first ++ (command.walk first).stages second :=
  ⟨Walk.resume_append first second settled, Walk.stages_append first second settled⟩

/-! ### An example -/

namespace Sample

def verbose : Flag := ⟨"v", "verbose", "", false, true, false, false, false, false, 0⟩

def color : Flag := ⟨"", "color", "", false, false, true, true, false, false, 0⟩

def output : Flag := ⟨"o", "output", "", true, false, false, true, false, false, 0⟩

def pair : Flag := ⟨"p", "pair", "", false, false, false, true, false, false, 2⟩

def files : Flag := ⟨"f", "files", "", false, true, false, true, false, false, -1⟩

/-- A command with a flag for each way of being given values. -/
def command : Command :=
  { (default : Command) with flags := ⟨[verbose, color, output, pair, files], .extended⟩ }

end Sample

/-- The values of `--files` end at the dashed token, whatever stands behind it. -/
theorem Command.walk_append_sample :
    (Sample.command.walk ["--files", "a", "b", "-v"]).pending = none ∧
    Sample.command.walk (["--files", "a", "b", "-v"] ++ ["c", "-p", "x"]) =
      (Sample.command.walk ["--files", "a", "b", "-v"]).resume ["c", "-p", "x"] ∧
    (Walk.start Sample.command).stages (["--files", "a", "b", "-v"] ++ ["c", "-p", "x"]) =
      (Walk.start Sample.command).stages ["--files", "a", "b", "-v"] ++
        (Sample.command.walk ["--files", "a", "b", "-v"]).stages ["c", "-p", "x"] := by
  have settled : (Sample.command.walk ["--files", "a", "b", "-v"]).pending = none := by
    decide +kernel
  exact ⟨settled, walk_append Sample.command _ _ settled⟩

end TabSpec

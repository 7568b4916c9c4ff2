import TabSpec.Command.Walk
import TabSpec.Proofs.Text.Cut

/-! What one token of a command line does to a walk. Most tokens settle the next state by
themselves; a token that ends in a flag with values of its own leaves the tokens behind it to that
flag. Whatever holds of whole walks rests on this distinction. -/
namespace TabSpec

/-- Whether the values of a flag are the tokens behind it. -/
def Flag.gathers (flag : Flag) : Bool := flag.takesValue && !flag.optionalArg

/-- How many values a flag takes that does not take any number of them. -/
def Flag.arity (flag : Flag) : Nat := max flag.nargs.toNat 1

/-- The values of a flag at the front of the tokens behind it, and the tokens left; nothing when
the tokens run out first. -/
def Flag.values? (flag : Flag) (tokens : List String) : Option (List String × List String) :=
  if flag.nargs < 0 then
    match tokens.dropWhile (!Walk.isDashed ·) with
    | [] => none
    | rest => some (tokens.takeWhile (!Walk.isDashed ·), rest)
  else if tokens.length < flag.arity then none
  else some (tokens.take flag.arity, tokens.drop flag.arity)

theorem Flag.values?_eq_append {flag : Flag} {tokens values rest : List String}
    (found : flag.values? tokens = some (values, rest)) : tokens = values ++ rest := by
  unfold values? at found
  split at found
  · split at found
    · simp at found
    · simp only [Option.some.injEq, Prod.mk.injEq] at found
      obtain ⟨rfl, rfl⟩ := found
      exact List.takeWhile_append_dropWhile.symm
  · split at found
    · simp at found
    · simp only [Option.some.injEq, Prod.mk.injEq] at found
      obtain ⟨rfl, rfl⟩ := found
      exact (List.take_append_drop ..).symm

/-- Values that were found stay the same whatever else is typed. -/
theorem Flag.values?_append {flag : Flag} {tokens values rest : List String}
    (found : flag.values? tokens = some (values, rest)) (more : List String) :
    flag.values? (tokens ++ more) = some (values, rest ++ more) := by
  unfold values? at found ⊢
  split at found
  · rename_i any
    rw [if_pos any]
    split at found
    · simp at found
    · rename_i stop
      simp only [Option.some.injEq, Prod.mk.injEq] at found
      obtain ⟨rfl, rfl⟩ := found
      -- The look-ahead stopped at a dashed token, so it stops there again.
      have nonempty : (tokens.dropWhile (!Walk.isDashed ·)).isEmpty = false := by
        simpa using stop
      have dropped : (tokens ++ more).dropWhile (!Walk.isDashed ·) =
          tokens.dropWhile (!Walk.isDashed ·) ++ more := by
        rw [List.dropWhile_append, nonempty]
        rfl
      have taken : (tokens ++ more).takeWhile (!Walk.isDashed ·) =
          tokens.takeWhile (!Walk.isDashed ·) := by
        rw [List.takeWhile_append, if_neg]
        intro whole
        apply stop
        have lengths := congrArg List.length
          (List.takeWhile_append_dropWhile (p := (!Walk.isDashed ·)) (l := tokens))
        rw [List.length_append, whole] at lengths
        exact List.eq_nil_of_length_eq_zero (by omega)
      rw [dropped, taken]
      split
      · rename_i empty
        exact absurd (List.append_eq_nil_iff.mp empty).1 stop
      · rfl
  · rename_i fixed
    rw [if_neg fixed]
    split at found
    · simp at found
    · rename_i enough
      simp only [Option.some.injEq, Prod.mk.injEq] at found
      obtain ⟨rfl, rfl⟩ := found
      rw [if_neg (by simp only [List.length_append]; omega),
        List.take_append_of_le_length (by omega), List.drop_append_of_le_length (by omega)]

/-- A flag of fixed arity that ran out of tokens takes the next token as well. -/
theorem Flag.values?_concat {flag : Flag} {tokens : List String} (fixed : 0 ≤ flag.nargs)
    (short : flag.values? tokens = none) (word : String) :
    flag.values? (tokens ++ [word]) = none ∨
      flag.values? (tokens ++ [word]) = some (tokens ++ [word], []) := by
  have notAny : ¬ flag.nargs < 0 := by omega
  have missing : tokens.length < flag.arity := by
    simpa [values?, notAny] using short
  simp only [values?, if_neg notAny, List.length_append, List.length_singleton]
  by_cases last : tokens.length + 1 = flag.arity
  · right
    rw [if_neg (by omega), List.take_of_length_le (by simp; omega),
      List.drop_of_length_le (by simp; omega)]
  · left
    rw [if_pos (by omega)]

namespace Walk

@[simp] theorem set_pending (walk : Walk) (flag : Flag) (values : List String) :
    (walk.set flag values).pending = walk.pending := rfl

@[simp] theorem set_command (walk : Walk) (flag : Flag) (values : List String) :
    (walk.set flag values).command = walk.command := rfl

@[simp] theorem set_positional (walk : Walk) (flag : Flag) (values : List String) :
    (walk.set flag values).positional = walk.positional := rfl

@[simp] theorem set_dash (walk : Walk) (flag : Flag) (values : List String) :
    (walk.set flag values).dash = walk.dash := rfl

@[simp] theorem set_unknown (walk : Walk) (flag : Flag) (values : List String) :
    (walk.set flag values).unknown = walk.unknown := rfl

/-- Setting a flag changes the values under its name only. -/
theorem get?_set (walk : Walk) (flag : Flag) (values : List String) (name : String) :
    (walk.set flag values).flags.get? name =
      if flag.name = name then
        some ((if flag.repeatable then (walk.flags.get? name).getD [] else []) ++ values)
      else walk.flags.get? name := by
  simp only [set, OrderedMap.get?_insert]
  by_cases same : flag.name = name
  · simp [same]
  · simp [same]

theorem assign_inline (walk : Walk) (flag : Flag) (value : String) (tokens : List String) :
    walk.assign flag (some value) tokens = (walk.set flag [value], tokens) := rfl

/-- A flag that gathers no tokens is set at once. -/
theorem assign_bare (walk : Walk) {flag : Flag} (bare : flag.gathers = false)
    (tokens : List String) :
    walk.assign flag none tokens =
      (walk.set flag [if flag.takesValue then "" else "true"], tokens) := by
  cases takes : flag.takesValue with
  | false => simp [assign, takes]
  | true =>
    have optional : flag.optionalArg = true := by simpa [Flag.gathers, takes] using bare
    simp [assign, takes, optional]

theorem assign_gathers (walk : Walk) {flag : Flag} (gathers : flag.gathers = true)
    (tokens : List String) :
    walk.assign flag none tokens =
      match flag.values? tokens with
      | some (values, rest) => (walk.set flag values, rest)
      | none => (walk.wait flag tokens, []) := by
  obtain ⟨takes, needed⟩ : flag.takesValue = true ∧ flag.optionalArg = false := by
    simpa [Flag.gathers] using gathers
  simp only [assign, takes, needed, Flag.values?, Flag.arity]
  by_cases any : flag.nargs < 0
  · simp only [any, if_true, Bool.not_true, Bool.false_eq_true, if_false]
    cases dropped : tokens.dropWhile (!isDashed ·) with
    | nil =>
      -- Without a dashed token all of them are values.
      have whole := List.takeWhile_append_dropWhile (p := (!isDashed ·)) (l := tokens)
      rw [dropped, List.append_nil] at whole
      rw [whole]
    | cons token rest => rfl
  · simp only [any, if_false, Bool.not_true, Bool.false_eq_true]
    by_cases short : tokens.length < max flag.nargs.toNat 1
    · simp only [short, if_true]
    · simp only [short, if_false]

/-! ### Tokens that are read as flags or as positional arguments -/

theorem takeFlag_form {walk : Walk} {form : String} {flag : Flag}
    (known : walk.command.lookupToken form = some flag) (plain : '=' ∉ form.toList)
    (tokens : List String) : walk.takeFlag form tokens = walk.assign flag none tokens := by
  have uncut : Text.splitOnce? "=" form = none := Text.splitOnce?_of_not_mem rfl plain
  simp only [takeFlag, uncut, known]

theorem takeFlag_inline {walk : Walk} {token name value : String} {flag : Flag}
    (cut : Text.splitOnce? "=" token = some (name, value))
    (known : walk.command.lookupToken name = some flag) (tokens : List String) :
    walk.takeFlag token tokens = (walk.set flag [value], tokens) := by
  simp only [takeFlag, cut, known, assign_inline]

theorem step_of_dash {walk : Walk} {earlier : List String} (behind : walk.dash = some earlier)
    (token : String) (tokens : List String) :
    walk.step token tokens = ({ walk with dash := some (earlier ++ [token]) }, tokens) := by
  simp only [step, behind]

theorem step_inactive {walk : Walk} (before : walk.dash = none)
    (inactive : walk.flagsActive = false) (token : String) (tokens : List String) :
    walk.step token tokens = ({ walk with positional := walk.positional ++ [token] }, tokens) := by
  simp [step, before, inactive]

theorem step_separator {walk : Walk} (before : walk.dash = none)
    (active : walk.flagsActive = true) (tokens : List String) :
    walk.step "--" tokens = ({ walk with dash := some [] }, tokens) := by
  simp [step, before, active]

theorem step_descent {walk : Walk} (before : walk.dash = none)
    (active : walk.flagsActive = true) {token : String} (more : token ≠ "--") {command : Command}
    (descends : walk.descent? token = some command) (tokens : List String) :
    walk.step token tokens = ({ walk with command }, tokens) := by
  simp [step, before, active, more, descends]

theorem step_flag {walk : Walk} (before : walk.dash = none)
    (active : walk.flagsActive = true) {token : String} (more : token ≠ "--")
    (stays : walk.descent? token = none) (dashed : isDashed token = true) (long : token ≠ "-")
    (tokens : List String) : walk.step token tokens = walk.takeFlag token tokens := by
  simp [step, before, active, more, stays, dashed, long]

theorem step_positional {walk : Walk} (before : walk.dash = none)
    (active : walk.flagsActive = true) {token : String} (stays : walk.descent? token = none)
    (plain : isDashed token = false ∨ token = "-") (tokens : List String) :
    walk.step token tokens = ({ walk with positional := walk.positional ++ [token] }, tokens) := by
  have more : token ≠ "--" := by
    rintro rfl
    rcases plain with undashed | short
    · exact absurd undashed (by decide)
    · exact absurd short (by decide)
  have noFlag : (isDashed token && token != "-") = false := by
    rcases plain with undashed | short
    · simp [undashed]
    · simp [short]
  simp [step, before, active, more, stays, noFlag]

/-! ### What stands behind a token -/

/-- How reading goes on behind a token, as a function of the tokens that follow. -/
inductive Outcome (walk : Walk) (read : List String → Walk × List String) : Prop where
  /-- The next state is settled whatever follows. -/
  | settled (next : Walk) (reads : ∀ tokens, read tokens = (next, tokens))
      (pending : next.pending = walk.pending)
      (command : next.command = walk.command ∨ next.command ∈ walk.command.commands)
  /-- A flag gathers its values from the tokens that follow. -/
  | gathering (flags : OrderedMap (List String)) (flag : Flag) (gathers : flag.gathers = true)
      (reads : ∀ tokens, read tokens = ({ walk with flags } : Walk).assign flag none tokens)

theorem outcome_assign (walk : Walk) (flag : Flag) (inline : Option String) :
    Outcome walk (walk.assign flag inline) := by
  cases inline with
  | some value => exact .settled _ (assign_inline walk flag value) rfl (.inl rfl)
  | none =>
    cases gathers : flag.gathers with
    | true => exact .gathering walk.flags flag gathers fun _ => rfl
    | false => exact .settled _ (assign_bare walk gathers) rfl (.inl rfl)

/-- The flags set on the way do not matter to the outcome. -/
theorem Outcome.of_set {walk : Walk} {flag : Flag} {values : List String}
    {read : List String → Walk × List String} (outcome : Outcome (walk.set flag values) read) :
    Outcome walk read := by
  cases outcome with
  | settled next reads pending command => exact .settled next reads pending command
  | gathering flags other gathers reads => exact .gathering flags other gathers reads

theorem outcome_assignChain (walk : Walk) (chars : List Char) :
    Outcome walk (walk.assignChain · chars) := by
  induction chars generalizing walk with
  | nil => exact .settled _ (fun _ => rfl) rfl (.inl rfl)
  | cons c rest ih =>
    simp only [assignChain]
    split
    · exact .settled _ (fun _ => rfl) rfl (.inl rfl)
    · split
      · exact (ih _).of_set
      · exact outcome_assign ..

theorem outcome_takeFlag (walk : Walk) (token : String) :
    Outcome walk (walk.takeFlag token) := by
  unfold takeFlag
  split
  split
  · exact outcome_assign ..
  · split
    · exact .settled _ (fun _ => rfl) rfl (.inl rfl)
    · exact outcome_assignChain ..

theorem outcome_step (walk : Walk) (token : String) : Outcome walk (walk.step token) := by
  unfold step
  split
  · exact .settled _ (fun _ => rfl) rfl (.inl rfl)
  · split
    · exact .settled _ (fun _ => rfl) rfl (.inl rfl)
    · split
      · exact .settled _ (fun _ => rfl) rfl (.inl rfl)
      · split
        · rename_i child descends
          refine .settled _ (fun _ => rfl) rfl (.inr ?_)
          unfold descent? at descends
          split at descends
          · exact List.mem_of_find?_eq_some descends
          · cases descends
        · split
          · exact outcome_takeFlag walk token
          · exact .settled _ (fun _ => rfl) rfl (.inl rfl)

end Walk
end TabSpec

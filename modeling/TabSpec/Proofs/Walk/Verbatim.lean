import TabSpec.Proofs.Walk.Frame

/-! Arguments that are taken as they are. As soon as a command no longer looks for flags, every token
behind becomes a positional argument, `--` and dashed ones included, and what was read before is not
among the positional arguments. -/
namespace TabSpec

namespace Walk

variable {walk : Walk} {token : String} {tokens : List String}

/-- A walk behind some tokens that takes all further ones as they are: the last of the tokens are its
positional arguments, and neither `--` nor a waiting flag is in the way. -/
structure Verbatim (walk : Walk) (behind : List String) : Prop where
  inactive : walk.flagsActive = false
  dash : walk.dash = none
  pending : walk.pending = none
  positional : walk.positional <:+ behind

theorem flagsActive_eq_false_iff : walk.flagsActive = false ↔
    walk.command.parsing = .disabled ∨
      walk.command.parsing = .nonInterspersed ∧ walk.positional ≠ [] := by
  unfold flagsActive
  cases walk.command.parsing <;> simp

/-- Every token goes to the end of the positional arguments. -/
theorem resume_of_inactive (inactive : walk.flagsActive = false) (before : walk.dash = none)
    (ready : walk.pending = none) (tokens : List String) :
    walk.resume tokens = { walk with positional := walk.positional ++ tokens } := by
  induction tokens generalizing walk with
  | nil => simp [resume_nil]
  | cons token rest ih =>
    have pushed : ({ walk with positional := walk.positional ++ [token] } : Walk).flagsActive =
        false := by
      rw [flagsActive_eq_false_iff] at inactive ⊢
      exact inactive.imp_right (And.imp_right fun _ => by simp)
    rw [resume_of_step (step_inactive before inactive token rest) ready, ih pushed before ready]
    simp

theorem Verbatim.resume {behind : List String} (verbatim : walk.Verbatim behind)
    (tokens : List String) : (walk.resume tokens).Verbatim (behind ++ tokens) := by
  have whole := resume_of_inactive verbatim.inactive verbatim.dash verbatim.pending tokens
  obtain ⟨front, same⟩ := verbatim.positional
  rw [whole]
  refine ⟨?_, verbatim.dash, verbatim.pending, front, by simp [← same]⟩
  rw [flagsActive_eq_false_iff]
  exact (flagsActive_eq_false_iff.mp verbatim.inactive).imp_right (And.imp_right fun some => by
    simp [some])

/-- Only a walk without positional arguments goes on to a subcommand. -/
theorem positional_of_descent? {command : Command} (descends : walk.descent? token = some command) :
    walk.positional = [] := by
  unfold descent? at descends
  split at descends
  · rename_i empty
    exact List.isEmpty_iff.mp empty
  · cases descends

/-- When a positional argument ends the flags, it is the first one. -/
theorem positional_of_push (active : walk.flagsActive = true)
    (ends : ({ walk with positional := walk.positional ++ [token] } : Walk).flagsActive = false) :
    walk.positional = [] := by
  have reads : ¬ (walk.command.parsing = .disabled ∨
      walk.command.parsing = .nonInterspersed ∧ walk.positional ≠ []) := by
    rw [← flagsActive_eq_false_iff, active]
    simp
  rcases flagsActive_eq_false_iff.mp ends with raw | ⟨mode, _⟩
  · exact absurd (.inl raw) reads
  · exact Decidable.not_not.mp fun some => reads (.inr ⟨mode, some⟩)

/-- Behind a token that may be a flag, the next one may be a flag as well, or the token is the first
behind which all are taken as they are. -/
theorem step_of_active (ready : walk.pending = none) (active : walk.flagsActive = true)
    (token : String) (tokens : List String) :
    (walk.step token tokens).1.flagsActive = true ∨
      (walk.step token tokens).1.Verbatim [token] ∧ (walk.step token tokens).2 = tokens := by
  cases before : walk.dash with
  | some earlier =>
    left
    rw [step_of_dash before]
    exact active
  | none =>
    by_cases separator : token = "--"
    · left
      rw [separator, step_separator before active]
      exact active
    · cases descends : walk.descent? token with
      | some command =>
        have nothing := positional_of_descent? descends
        rw [step_descent before active separator descends]
        cases looks : ({ walk with command } : Walk).flagsActive with
        | true => exact .inl rfl
        | false => exact .inr ⟨⟨looks, before, ready, by simp [nothing]⟩, rfl⟩
      | none =>
        by_cases flag : isDashed token = true ∧ token ≠ "-"
        · left
          rw [step_flag before active separator descends flag.1 flag.2,
            (staysAt_takeFlag walk token tokens).flagsActive]
          exact active
        · have plain : isDashed token = false ∨ token = "-" := by
            simpa [Classical.or_iff_not_imp_left] using flag
          rw [step_positional before active descends plain]
          cases looks : ({ walk with positional := walk.positional ++ [token] } :
              Walk).flagsActive with
          | true => exact .inl rfl
          | false =>
            have nothing := positional_of_push active looks
            exact .inr ⟨⟨looks, before, ready, by simp [nothing]⟩, rfl⟩

/-- A walk that looked for flags and no longer does takes everything as it is from some token on. -/
theorem verbatim_resume (ready : walk.pending = none) (active : walk.flagsActive = true)
    (ends : (walk.resume tokens).flagsActive = false) : (walk.resume tokens).Verbatim tokens := by
  fun_induction resume walk tokens with
  | case1 walk =>
    rw [active] at ends
    cases ends
  | case2 walk token tokens waits =>
    rcases step_of_active ready active token tokens with looks | ⟨verbatim, _⟩
    · rw [looks] at ends
      cases ends
    · rw [verbatim.pending] at waits
      cases waits
  | case3 walk token tokens noWait ih =>
    have quiet := Option.not_isSome_iff_eq_none.mp noWait
    rcases step_of_active ready active token tokens with looks | ⟨verbatim, rest⟩
    · have later := ih quiet looks ends
      refine { later with positional := ?_ }
      exact later.positional.trans ((step_suffix walk token tokens).trans (List.suffix_cons ..))
    · rw [rest]
      exact verbatim.resume tokens

end Walk

/-- A command that takes its arguments as they are from the start has all tokens as positional
arguments. -/
theorem Command.walk_of_disabled {command : Command} (raw : command.parsing = .disabled)
    (tokens : List String) :
    command.walk tokens = { Walk.start command with positional := tokens } := by
  have inactive : (Walk.start command).flagsActive = false :=
    Walk.flagsActive_eq_false_iff.mpr (.inl raw)
  exact Walk.resume_of_inactive inactive rfl rfl tokens

/-- Whatever a walk read before, once it no longer looks for flags the rest of the tokens are its
positional arguments. -/
theorem Command.verbatim_walk (command : Command) {tokens : List String}
    (ends : (command.walk tokens).flagsActive = false) : (command.walk tokens).Verbatim tokens := by
  cases looks : (Walk.start command).flagsActive with
  | true => exact Walk.verbatim_resume rfl looks ends
  | false =>
    have start : (Walk.start command).Verbatim [] := ⟨looks, rfl, rfl, List.suffix_refl _⟩
    exact start.resume tokens

end TabSpec

import TabSpec.Traced

/-! Computations that may fail. One step after another succeeds exactly when both do. -/
namespace TabSpec

section

variable {Failure Value Result : Type} {result : Result}

theorem bind_eq_ok_iff {first : Except Failure Value} {next : Value → Except Failure Result} :
    first >>= next = .ok result ↔ ∃ value, first = .ok value ∧ next value = .ok result := by
  cases first with
  | error failure => simp [bind, Except.bind]
  | ok value => simp [bind, Except.bind]

/-- It does not matter what is read first when all that is built of it has a property. -/
theorem of_bind_eq_ok {holds : Result → Prop} {read : Except Failure Value} {build : Value → Result}
    (done : (read >>= fun value => .ok (build value)) = .ok result)
    (builds : ∀ value, holds (build value)) : holds result := by
  obtain ⟨value, _, same⟩ := bind_eq_ok_iff.mp done
  exact Except.ok.inj same ▸ builds value

theorem map_eq_ok_iff {outcome : Except Failure Value} {change : Value → Result} :
    outcome.map change = .ok result ↔ ∃ value, outcome = .ok value ∧ change value = result := by
  cases outcome with
  | error failure => simp [Except.map]
  | ok value => simp [Except.map]

theorem mapError_eq_ok_iff {Other : Type} {outcome : Except Failure Value} {value : Value}
    {change : Failure → Other} : outcome.mapError change = .ok value ↔ outcome = .ok value := by
  cases outcome with
  | error failure => exact ⟨nofun, nofun⟩
  | ok kept =>
    constructor
    · exact fun same => congrArg Except.ok (Except.ok.inj same)
    · exact fun same => congrArg Except.ok (Except.ok.inj same)

theorem Traced.run_bind_eq_ok_iff {first : ExceptT Failure Traced Value}
    {next : Value → ExceptT Failure Traced Result} :
    (first >>= next).run.value = .ok result ↔
      ∃ value, first.run.value = .ok value ∧ (next value).run.value = .ok result := by
  have opened : (first >>= next).run.value =
      first.run.value >>= fun value => (next value).run.value := by
    change (ExceptT.bindCont next first.run.value).value = _
    cases first.run.value <;> rfl
  rw [opened]
  exact bind_eq_ok_iff

/-- One of several checks finds nothing, and neither do the later ones. -/
theorem ite_some_eq_none_iff {check : Prop} [Decidable check] {fault : Failure}
    {later : Option Failure} :
    (if check then some fault else later) = none ↔ ¬ check ∧ later = none := by
  by_cases found : check <;> simp [found]

/-- A success with a property that can be tested. -/
theorem exists_of_toOption_any {outcome : Except Failure Value} {holds : Value → Bool}
    (succeeds : outcome.toOption.any holds = true) : ∃ value, outcome = .ok value ∧ holds value = true := by
  cases outcome with
  | error failure => cases succeeds
  | ok value => exact ⟨value, rfl, succeeds⟩

theorem eq_ok_of_toOption {outcome : Except Failure Value} {value : Value}
    (succeeds : outcome.toOption = some value) : outcome = .ok value := by
  cases outcome with
  | error failure => cases succeeds
  | ok found => exact congrArg Except.ok (Option.some.inj succeeds)

end

end TabSpec

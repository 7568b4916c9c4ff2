import TabSpec.CoreMacros
import TabSpec.Proofs.Command.WellFormed

/-! How the parsing mode of a command follows from its specification and from the modes declared on the
way down to it. Nothing else in the tree has a part in it. -/
namespace TabSpec.CommandSpec

/-- A command that runs something and declares no flags. -/
def RunsBare (spec : CommandSpec) : Prop :=
  spec.run.isSome ∧ spec.flags.isEmpty ∧ spec.persistentFlags.isEmpty

/-- The mode of a command, by the specifications above it and its own. -/
inductive SettlesMode (registry : Registry) (above : List CommandSpec) (spec : CommandSpec) :
    ParsingMode → Prop where
  | runs (bare : spec.RunsBare) : SettlesMode registry above spec .disabled
  /-- The closest command on the way up that declares a mode, the command itself included. -/
  | declared {further between : List CommandSpec} {closest : CommandSpec} (flagged : ¬ spec.RunsBare)
      (way : above ++ [spec] = further ++ closest :: between) (declares : closest.parsing ≠ .default)
      (silent : ∀ nearer ∈ between, nearer.parsing = .default) :
      SettlesMode registry above spec closest.parsing
  /-- The first position that a macro completes which takes arguments as they are. -/
  | position {front rest : List (List String)} {elements : List String} (flagged : ¬ spec.RunsBare)
      (undeclared : ∀ place ∈ above ++ [spec], place.parsing = .default)
      (positions : spec.completion.positional = front ++ elements :: rest)
      (raw : Expression.takesRaw registry elements = true)
      (first : ∀ earlier ∈ front, Expression.takesRaw registry earlier = false) :
      SettlesMode registry above spec (if front.length = 0 then .disabled else .nonInterspersed)
  /-- The positions behind all others. -/
  | furtherPositions (flagged : ¬ spec.RunsBare)
      (undeclared : ∀ place ∈ above ++ [spec], place.parsing = .default)
      (raw : Expression.takesRaw registry spec.completion.positionalAny = true)
      (none : ∀ elements ∈ spec.completion.positional,
        Expression.takesRaw registry elements = false) :
      SettlesMode registry above spec
        (if spec.completion.positional = [] then .disabled else .nonInterspersed)
  | plain (flagged : ¬ spec.RunsBare)
      (undeclared : ∀ place ∈ above ++ [spec], place.parsing = .default)
      (none : ∀ elements ∈ spec.completion.positional,
        Expression.takesRaw registry elements = false)
      (noneFurther : Expression.takesRaw registry spec.completion.positionalAny = false) :
      SettlesMode registry above spec .default

/-- The mode declared last on a way down, or else the one above it. -/
def closestMode (way : List CommandSpec) (inherited : ParsingMode) : ParsingMode :=
  way.foldl (fun mode spec => spec.declaredMode mode) inherited

/-- Either no command on the way declares a mode, or the last one that does settles it. -/
theorem closestMode_cases (way : List CommandSpec) (inherited : ParsingMode) :
    (closestMode way inherited = inherited ∧ ∀ spec ∈ way, spec.parsing = .default) ∨
      ∃ further closest between, way = further ++ closest :: between ∧
        closest.parsing ≠ .default ∧ (∀ nearer ∈ between, nearer.parsing = .default) ∧
        closestMode way inherited = closest.parsing := by
  induction way generalizing inherited with
  | nil => exact .inl ⟨rfl, by simp⟩
  | cons spec way ih =>
    rcases ih (spec.declaredMode inherited) with ⟨same, silent⟩ | declared
    · by_cases declares : spec.parsing = .default
      · refine .inl ⟨same.trans (if_pos declares), ?_⟩
        exact List.forall_mem_cons.mpr ⟨declares, silent⟩
      · exact .inr ⟨[], spec, way, rfl, declares, silent, same.trans (if_neg declares)⟩
    · obtain ⟨further, closest, between, rfl, declares, silent, mode⟩ := declared
      exact .inr ⟨spec :: further, closest, between, rfl, declares, silent, mode⟩

theorem closestMode_of_silent {way : List CommandSpec}
    (silent : ∀ spec ∈ way, spec.parsing = .default) (inherited : ParsingMode) :
    closestMode way inherited = inherited := by
  rcases closestMode_cases way inherited with ⟨same, _⟩ | declared
  · exact same
  · obtain ⟨further, closest, between, rfl, declares, _⟩ := declared
    exact absurd (silent closest (by simp)) declares

theorem closestMode_of_declared {further between : List CommandSpec} {closest : CommandSpec}
    (declares : closest.parsing ≠ .default) (silent : ∀ nearer ∈ between, nearer.parsing = .default)
    (inherited : ParsingMode) :
    closestMode (further ++ closest :: between) inherited = closest.parsing := by
  have last := closestMode_of_silent silent (closest.declaredMode (closestMode further inherited))
  simp only [closestMode, List.foldl_append, List.foldl_cons] at last ⊢
  exact last.trans (if_neg declares)

section

variable {registry : Registry} {above : List CommandSpec} {spec : CommandSpec} {mode : ParsingMode}

theorem inferredMode_of_position {completion : CompletionSpec} {front rest : List (List String)}
    {elements : List String} (positions : completion.positional = front ++ elements :: rest)
    (raw : Expression.takesRaw registry elements = true)
    (first : ∀ earlier ∈ front, Expression.takesRaw registry earlier = false) :
    inferredMode registry completion =
      if front.length = 0 then .disabled else .nonInterspersed := by
  have skipped : front.findIdx? (Expression.takesRaw registry) = none := by
    simpa [List.findIdx?_eq_none_iff] using first
  have found : completion.positional.findIdx? (Expression.takesRaw registry) =
      some front.length := by
    simp [positions, List.findIdx?_append, skipped, List.findIdx?_cons, raw]
  rw [inferredMode, found]
  cases front with
  | nil => rfl
  | cons => rfl

theorem inferredMode_of_none {completion : CompletionSpec}
    (none : ∀ elements ∈ completion.positional, Expression.takesRaw registry elements = false) :
    inferredMode registry completion =
      if Expression.takesRaw registry completion.positionalAny then
        if completion.positional = [] then .disabled else .nonInterspersed
      else .default := by
  have unfound : completion.positional.findIdx? (Expression.takesRaw registry) = .none := by
    simpa [List.findIdx?_eq_none_iff] using none
  simp only [inferredMode, unfound, List.isEmpty_iff]

theorem settledMode_of_declared (flagged : ¬ spec.RunsBare) (declares : mode ≠ .default) :
    settledMode registry spec mode = mode :=
  (if_neg flagged).trans (if_pos declares)

theorem settledMode_of_undeclared (flagged : ¬ spec.RunsBare) :
    settledMode registry spec .default = inferredMode registry spec.completion :=
  (if_neg flagged).trans (if_neg fun declares => declares rfl)

/-- The rules settle the mode that a command is given. -/
theorem settlesMode_settledMode (registry : Registry) (above : List CommandSpec)
    (spec : CommandSpec) :
    SettlesMode registry above spec
      (settledMode registry spec (closestMode (above ++ [spec]) .default)) := by
  by_cases bare : spec.RunsBare
  · have disabled : settledMode registry spec (closestMode (above ++ [spec]) .default) = .disabled :=
      if_pos bare
    rw [disabled]
    exact .runs bare
  rcases closestMode_cases (above ++ [spec]) .default with ⟨same, undeclared⟩ | declared
  · rw [same, settledMode_of_undeclared bare]
    cases found : spec.completion.positional.find? (Expression.takesRaw registry) with
    | some elements =>
      obtain ⟨raw, front, rest, positions, first⟩ := List.find?_eq_some_iff_append.mp found
      have plain : ∀ earlier ∈ front, Expression.takesRaw registry earlier = false := by
        simpa using first
      rw [inferredMode_of_position positions raw plain]
      exact .position bare undeclared positions raw plain
    | none =>
      have plain : ∀ elements ∈ spec.completion.positional,
          Expression.takesRaw registry elements = false := by
        simpa using found
      rw [inferredMode_of_none plain]
      split
      · rename_i raw
        exact .furtherPositions bare undeclared raw plain
      · rename_i noneFurther
        exact .plain bare undeclared plain (by simpa using noneFurther)
  · obtain ⟨further, closest, between, way, declares, silent, mode⟩ := declared
    rw [mode, settledMode_of_declared bare declares]
    exact .declared bare way declares silent

/-- The rules settle one mode only. -/
theorem SettlesMode.eq_settledMode (settles : SettlesMode registry above spec mode) :
    mode = settledMode registry spec (closestMode (above ++ [spec]) .default) := by
  cases settles with
  | runs bare => exact (if_pos bare).symm
  | declared flagged way declares silent =>
    rw [way, closestMode_of_declared declares silent, settledMode_of_declared flagged declares]
  | position flagged undeclared positions raw first =>
    rw [closestMode_of_silent undeclared, settledMode_of_undeclared flagged,
      inferredMode_of_position positions raw first]
  | furtherPositions flagged undeclared raw none =>
    rw [closestMode_of_silent undeclared, settledMode_of_undeclared flagged,
      inferredMode_of_none none, if_pos raw]
  | plain flagged undeclared none noneFurther =>
    rw [closestMode_of_silent undeclared, settledMode_of_undeclared flagged,
      inferredMode_of_none none, if_neg (by simp [noneFurther])]

end

/-- What the mode of a command is settled by: the modes on the way down to it, and of its own
specification whether it runs without flags and what completes its positions. -/
structure SameSettling (above otherAbove : List CommandSpec) (spec other : CommandSpec) : Prop where
  way : (above ++ [spec]).map parsing = (otherAbove ++ [other]).map parsing
  bare : spec.RunsBare ↔ other.RunsBare
  positional : spec.completion.positional = other.completion.positional
  positionalAny : spec.completion.positionalAny = other.completion.positionalAny

theorem SameSettling.settledMode_eq {above otherAbove : List CommandSpec} {spec other : CommandSpec}
    (same : SameSettling above otherAbove spec other) (registry : Registry) :
    settledMode registry spec (closestMode (above ++ [spec]) .default) =
      settledMode registry other (closestMode (otherAbove ++ [other]) .default) := by
  have folded (way : List CommandSpec) (inherited : ParsingMode) :
      closestMode way inherited = (way.map parsing).foldl
        (fun mode declared => if declared = .default then mode else declared) inherited := by
    rw [List.foldl_map]
    rfl
  have bare : (spec.run.isSome ∧ spec.flags.isEmpty ∧ spec.persistentFlags.isEmpty) =
      (other.run.isSome ∧ other.flags.isEmpty ∧ other.persistentFlags.isEmpty) :=
    propext same.bare
  simp only [settledMode, bare, folded, same.way, inferredMode, same.positional,
    same.positionalAny]

variable {registry : Registry} {capabilities : Capabilities} {spec : CommandSpec}
  {command : Command}

/-- Every place of an assembled tree has the mode that the modes declared on the way down to it and
its own specification settle. -/
theorem rel_settledMode_of_build (built : (spec.build registry capabilities).value = .ok command)
    (path : List Nat) :
    Option.Rel (fun place built => built.2.parsing =
        settledMode registry place.2 (closestMode (place.1 ++ [place.2]) .default))
      (nodeAt? commands spec path) (nodeAt? Command.commands command path) := by
  refine rel_nodeAt?_induction (fun inherited place built => built.2.parsing =
    settledMode registry place.2 (closestMode (place.1 ++ [place.2]) inherited.parsing))
    ?_ ?_ path built
  · intro inherited spec command bare isNode whole
    rw [whole]
    exact (mode_of_node isNode).1
  · intro inherited spec command bare place built _ _ mode
    exact mode

/-- The mode of every command in an assembled tree is the one that the rules settle: it takes its
arguments as they are if it runs something and declares no flags, else it has the mode declared closest
above it, else the one that follows from the macros that complete its own positions. Two commands for
which the rules have the same to go by have the same mode, whatever stands beside or below them. -/
theorem parsing_eq_iff_settlesMode
    (built : (spec.build registry capabilities).value = .ok command) :
    (∀ path, Option.Rel (fun place built => ∀ mode,
        built.2.parsing = mode ↔ SettlesMode registry place.1 place.2 mode)
      (nodeAt? commands spec path) (nodeAt? Command.commands command path)) ∧
    ∀ (otherCapabilities : Capabilities) (other : CommandSpec) (otherCommand : Command),
      (other.build registry otherCapabilities).value = .ok otherCommand →
      ∀ path otherPath above otherAbove place otherPlace,
        nodeAt? commands spec path = some (above, place) →
        nodeAt? commands other otherPath = some (otherAbove, otherPlace) →
        SameSettling above otherAbove place otherPlace →
        (nodeAt? Command.commands command path).map (·.2.parsing) =
          (nodeAt? Command.commands otherCommand otherPath).map (·.2.parsing) := by
  constructor
  · intro path
    have modes := rel_settledMode_of_build built path
    generalize nodeAt? commands spec path = place at modes ⊢
    generalize nodeAt? Command.commands command path = reached at modes ⊢
    cases modes with
    | none => exact .none
    | some settled =>
      refine .some fun mode => ?_
      rw [settled]
      exact ⟨fun same => same ▸ settlesMode_settledMode .., fun settles => settles.eq_settledMode.symm⟩
  · intro otherCapabilities other otherCommand otherBuilt path otherPath above otherAbove place
      otherPlace found otherFound same
    have modes := rel_settledMode_of_build built path
    have otherModes := rel_settledMode_of_build otherBuilt otherPath
    rw [found] at modes
    rw [otherFound] at otherModes
    generalize nodeAt? Command.commands command path = reached at modes ⊢
    generalize nodeAt? Command.commands otherCommand otherPath = otherReached at otherModes ⊢
    cases modes with
    | some settled =>
      cases otherModes with
      | some otherSettled =>
        rw [Option.map_some, Option.map_some, settled, otherSettled, same.settledMode_eq registry]

namespace Sample

/-- A command whose second position takes arguments as they are, with a subcommand that declares a mode
and one that does not. -/
def wrapper : CommandSpec :=
  { empty with
    name := "tool"
    completion := { CompletionSpec.empty with positional := [["a"], ["$spec(other.yaml)"]] }
    commands := [{ empty with name := "plain" },
      { empty with name := "mixed", parsing := .interspersed }] }

end Sample

/-- The mode of the wrapper follows from its second position. Its first subcommand does not inherit it,
and it is the same without the subcommands. -/
theorem parsing_eq_iff_settlesMode_sample :
    ∃ command alone,
      (Sample.wrapper.build (.withCore "tool") .extended).value = .ok command ∧
      ({ Sample.wrapper with commands := [] }.build (.withCore "tool") .posix).value = .ok alone ∧
      command.commands.map Command.parsing = [.default, .interspersed] ∧
      SettlesMode (.withCore "tool") [] Sample.wrapper .nonInterspersed ∧
      command.parsing = alone.parsing := by
  have built : (Sample.wrapper.build (.withCore "tool") .extended).value.toOption.any
      (fun command => decide (command.parsing = .nonInterspersed ∧
        command.commands.map Command.parsing = [.default, .interspersed])) = true := by
    decide +kernel
  have builtAlone : ({ Sample.wrapper with commands := [] }.build (.withCore "tool")
      .posix).value.toOption.any (fun _ => true) = true := by
    decide +kernel
  obtain ⟨command, succeeds, modes⟩ := exists_of_toOption_any built
  obtain ⟨alone, succeedsAlone, _⟩ := exists_of_toOption_any builtAlone
  obtain ⟨mode, below⟩ := of_decide_eq_true modes
  obtain ⟨settled, independent⟩ := parsing_eq_iff_settlesMode succeeds
  refine ⟨command, alone, succeeds, succeedsAlone, below, ?_, ?_⟩
  · cases settled [] with
    | some settles => exact (settles .nonInterspersed).mp mode
  · have same := independent .posix _ alone succeedsAlone [] [] [] [] _ _ rfl rfl
      ⟨rfl, Iff.rfl, rfl, rfl⟩
    exact Option.some.inj same

end TabSpec.CommandSpec

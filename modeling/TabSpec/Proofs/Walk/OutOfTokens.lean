import TabSpec.Proofs.Walk.Chain
import TabSpec.Proofs.Walk.Waiting

/-! Flags that ran out of tokens. A flag waits at the end of a walk exactly when one token opened it and
too few values stand behind that token; what was set on the way are the shorthands in front of it. -/
namespace TabSpec

/-- The tokens run out where there are too few of them, or where none ends the values. -/
theorem Flag.values?_eq_none_iff {flag : Flag} {values : List String} :
    flag.values? values = none ↔
      (0 ≤ flag.nargs → (values.length : Int) < max flag.nargs 1) ∧
      (flag.nargs < 0 → ∀ value ∈ values, Walk.isDashed value = false) := by
  by_cases any : flag.nargs < 0
  · rw [Walk.values?_eq_none_iff any]
    exact ⟨fun undashed => ⟨fun fixed => absurd any (Int.not_lt.mpr fixed), fun _ => undashed⟩,
      fun short => short.2 any⟩
  · have missing : flag.values? values = none ↔ values.length < flag.arity := by
      simp [Flag.values?, any]
    rw [missing, Flag.arity]
    constructor
    · exact fun few => ⟨fun _ => by omega, fun more => absurd more any⟩
    · intro few
      have bound := few.1 (Int.not_lt.mp any)
      omega

/-- A flag that takes a number of values is given at least as many. -/
theorem Flag.arity_le_of_values? {flag : Flag} {tokens values rest : List String}
    (fixed : 0 ≤ flag.nargs) (found : flag.values? tokens = some (values, rest)) :
    flag.arity ≤ values.length := by
  simp only [values?, if_neg (Int.not_lt.mpr fixed)] at found
  split at found
  · cases found
  · simp only [Option.some.injEq, Prod.mk.injEq] at found
    rw [← found.1, List.length_take]
    omega

namespace Walk

variable {walk : Walk} {token : String} {tokens values : List String} {flag : Flag} {bare : List Char}

/-! ### Tokens that leave their flag without a value -/

/-- The part of a token in front of its first equals sign. -/
def nameIn (token : String) : String := ((Text.splitOnce? "=" token).map (·.1)).getD token

/-- A token that names a flag and gives it no value: it is a form of the flag, or it ends with the flag's
shorthand behind those of flags without a value. An equals sign at the very end is no value. -/
inductive Opens (walk : Walk) (token : String) : List Char → Flag → Prop
  | form {flag : Flag} (known : walk.command.lookupToken token = some flag)
      (plain : '=' ∉ token.toList) : Opens walk token [] flag
  | chain {bare : List Char} {last : Char} {flag : Flag} (sign : List Char)
      (unnamed : walk.command.lookupToken (nameIn token) = none)
      (single : Text.startsWith "--" token = false)
      (letters : token.toList.drop 1 = bare ++ last :: sign) (unsigned : sign = [] ∨ sign = ['='])
      (fits : ∀ c ∈ bare, ∃ other, walk.command.lookupToken (Chain.shorthand c) = some other ∧
        other.takesValue = false)
      (known : walk.command.lookupToken (Chain.shorthand last) = some flag)
      (takes : flag.takesValue = true) : Opens walk token bare flag

/-- A token is taken by the flag that it names in front of an equals sign. -/
theorem takeFlag_eq (walk : Walk) (token : String) (tokens : List String) :
    walk.takeFlag token tokens =
      match walk.command.lookupToken (nameIn token) with
      | some flag => walk.assign flag ((Text.splitOnce? "=" token).map (·.2)) tokens
      | none =>
        if Text.startsWith "--" token then
          ({ walk with unknown := walk.unknown ++ [nameIn token] }, tokens)
        else walk.assignChain tokens (token.toList.drop 1) := by
  rw [takeFlag, nameIn]
  cases Text.splitOnce? "=" token <;> rfl

theorem takeFlag_named (named : walk.command.lookupToken (nameIn token) = some flag)
    (tokens : List String) :
    walk.takeFlag token tokens =
      walk.assign flag ((Text.splitOnce? "=" token).map (·.2)) tokens := by
  rw [takeFlag_eq, named]

theorem takeFlag_unnamed (unnamed : walk.command.lookupToken (nameIn token) = none)
    (single : Text.startsWith "--" token = false) (tokens : List String) :
    walk.takeFlag token tokens = walk.assignChain tokens (token.toList.drop 1) := by
  simp only [takeFlag_eq, unnamed, single, Bool.false_eq_true, if_false]

/-- A long form that no flag has is noted as unknown. -/
theorem takeFlag_unknown (unnamed : walk.command.lookupToken (nameIn token) = none)
    (long : Text.startsWith "--" token = true) (tokens : List String) :
    walk.takeFlag token tokens = ({ walk with unknown := walk.unknown ++ [nameIn token] }, tokens) := by
  simp only [takeFlag_eq, unnamed, long, if_true]

/-- A lone equals sign is as good as nothing. -/
theorem attached?_of_unsigned {sign : List Char} (unsigned : sign = [] ∨ sign = ['=']) :
    attached? sign = none := by
  rcases unsigned with rfl | rfl <;> rfl

/-- The flag that a token opens takes its values from the tokens behind. -/
theorem Opens.takeFlag (opens : walk.Opens token bare flag) (tokens : List String) :
    walk.takeFlag token tokens = (walk.raise bare).assign flag none tokens := by
  cases opens with
  | form known plain => exact takeFlag_form known plain tokens
  | chain sign unnamed single letters unsigned fits known takes =>
    rw [takeFlag_unnamed unnamed single, letters, assignChain_append fits,
      assignChain_last ((staysAt_raise walk bare).command ▸ known) takes,
      attached?_of_unsigned unsigned]

/-- Letters that leave a flag waiting end with its shorthand, and only flags without a value are in
front. -/
theorem exists_of_assignChain_waits {letters : List Char} (ready : walk.pending = none)
    (waits : (walk.assignChain tokens letters).1.pending ≠ none) :
    ∃ bare last sign flag, letters = bare ++ last :: sign ∧ (sign = [] ∨ sign = ['=']) ∧
      (∀ c ∈ bare, ∃ other, walk.command.lookupToken (Chain.shorthand c) = some other ∧
        other.takesValue = false) ∧
      walk.command.lookupToken (Chain.shorthand last) = some flag ∧ flag.takesValue = true := by
  induction letters generalizing walk with
  | nil => exact absurd ready waits
  | cons c more ih =>
    cases known : walk.command.lookupToken (Chain.shorthand c) with
    | none =>
      have unknown := known
      rw [Chain.shorthand] at unknown
      simp only [assignChain, unknown] at waits
      exact absurd ready waits
    | some flag =>
      cases takes : flag.takesValue with
      | false =>
        rw [assignChain_bare known takes] at waits
        have settled : (walk.set flag ["true"]).pending = none := ready
        obtain ⟨bare, last, sign, other, rfl, unsigned, fits, found, value⟩ := ih settled waits
        refine ⟨c :: bare, last, sign, other, rfl, unsigned, ?_, found, value⟩
        exact List.forall_mem_cons.mpr ⟨⟨flag, known, takes⟩, fits⟩
      | true =>
        rw [assignChain_last known takes] at waits
        have empty : attached? more = none := by
          cases given : attached? more with
          | none => rfl
          | some value =>
            rw [given, assign_inline] at waits
            exact absurd ready waits
        refine ⟨[], c, more, flag, rfl, ?_, by simp, known, takes⟩
        cases more with
        | nil => exact .inl rfl
        | cons d rest =>
          by_cases sign : d = '='
          · subst sign
            have nothing : rest = [] := by simpa [attached?] using empty
            exact .inr (by rw [nothing])
          · simp [attached?, sign] at empty

/-- A token that leaves a flag waiting opens it. -/
theorem exists_opens_of_waits (ready : walk.pending = none)
    (waits : (walk.takeFlag token tokens).1.pending ≠ none) :
    ∃ bare flag, walk.Opens token bare flag := by
  cases named : walk.command.lookupToken (nameIn token) with
  | none =>
    cases long : Text.startsWith "--" token with
    | true =>
      rw [takeFlag_unknown named long] at waits
      exact absurd ready waits
    | false =>
      rw [takeFlag_unnamed named long] at waits
      obtain ⟨bare, last, sign, flag, letters, unsigned, fits, known, takes⟩ :=
        exists_of_assignChain_waits ready waits
      exact ⟨bare, flag, .chain sign named long letters unsigned fits known takes⟩
  | some flag =>
    rw [takeFlag_named named] at waits
    cases cut : Text.splitOnce? "=" token with
    | none =>
      rw [nameIn, cut] at named
      exact ⟨[], flag, .form named (Text.not_mem_of_splitOnce? rfl cut)⟩
    | some parts =>
      rw [cut, Option.map_some, assign_inline] at waits
      exact absurd ready waits

/-- A token in a place for flags that leaves its flag to the tokens behind it. -/
structure LeavesOpen (walk : Walk) (token : String) (bare : List Char) (flag : Flag) : Prop where
  accepting : walk.Accepting
  separate : token ≠ "--"
  stays : walk.descent? token = none
  dashed : isDashed token = true
  long : token ≠ "-"
  opens : walk.Opens token bare flag
  takes : flag.takesValue = true
  needed : flag.optionalArg = false

theorem LeavesOpen.gathers (leaves : walk.LeavesOpen token bare flag) : flag.gathers = true := by
  simp [Flag.gathers, leaves.takes, leaves.needed]

theorem LeavesOpen.step (leaves : walk.LeavesOpen token bare flag) (tokens : List String) :
    walk.step token tokens = (walk.raise bare).assign flag none tokens := by
  rw [step_flag leaves.accepting.before leaves.accepting.active leaves.separate leaves.stays
    leaves.dashed leaves.long, leaves.opens.takeFlag]

/-- Whatever leaves a flag waiting is such a token. -/
theorem exists_leavesOpen_of_waits (ready : walk.pending = none)
    (waits : (walk.step token tokens).1.pending ≠ none) :
    ∃ bare flag, walk.LeavesOpen token bare flag := by
  have accepting := accepting_of_step ready waits
  have separate : token ≠ "--" := by
    rintro rfl
    rw [step_separator accepting.before accepting.active] at waits
    exact waits ready
  have stays : walk.descent? token = none := by
    cases descends : walk.descent? token with
    | none => rfl
    | some child =>
      rw [step_descent accepting.before accepting.active separate descends] at waits
      exact absurd ready waits
  have dashes : ¬ (isDashed token = false ∨ token = "-") := by
    intro plain
    rw [step_positional accepting.before accepting.active stays plain] at waits
    exact waits ready
  obtain ⟨dashed, long⟩ := not_or.mp dashes
  rw [Bool.not_eq_false] at dashed
  rw [step_flag accepting.before accepting.active separate stays dashed long] at waits
  obtain ⟨bare, flag, opens⟩ := exists_opens_of_waits ready waits
  have gathers : flag.gathers = true := by
    rw [opens.takeFlag] at waits
    cases gathers : flag.gathers with
    | true => rfl
    | false =>
      rw [assign_bare _ gathers] at waits
      exact absurd ((pending_raise walk bare).trans ready) waits
  obtain ⟨takes, needed⟩ : flag.takesValue = true ∧ flag.optionalArg = false := by
    simpa [Flag.gathers] using gathers
  exact ⟨bare, flag, accepting, separate, stays, dashed, long, opens, takes, needed⟩

/-- It waits exactly when the tokens behind are too few, and has all of them. -/
theorem LeavesOpen.waits_iff (leaves : walk.LeavesOpen token bare flag) {other : Flag} :
    (walk.step token tokens).1.pending = some (other, values) ↔
      other = flag ∧ values = tokens ∧ flag.values? tokens = none := by
  have ready : (walk.raise bare).pending = none :=
    (pending_raise walk bare).trans leaves.accepting.settled
  rw [leaves.step, assign_gathers _ leaves.gathers]
  cases flag.values? tokens with
  | none => simp [wait, eq_comm]
  | some taken => simp [ready]

/-! ### The walk in front of the token -/

theorem unknown_raise (walk : Walk) (bare : List Char) : (walk.raise bare).unknown = walk.unknown := by
  induction bare generalizing walk with
  | nil => rfl
  | cons c bare ih =>
    rw [raise, List.foldl_cons]
    cases walk.command.lookupToken (Chain.shorthand c) with
    | none => exact ih walk
    | some flag => exact ih _

namespace Reaches

variable {first later : Walk} {rest before : List String}

theorem suffix (reaches : walk.Reaches tokens later rest) : rest <:+ tokens := by
  induction reaches with
  | here => exact List.suffix_rfl
  | next _ _ ih => exact ih.trans ((step_suffix ..).trans (List.suffix_cons ..))

/-- Of two places of a walk, one is reached from the other. -/
theorem reaches (near : walk.Reaches tokens first before) (far : walk.Reaches tokens later rest)
    (shorter : rest.length ≤ before.length) : first.Reaches before later rest := by
  induction near with
  | here => exact far
  | next settled near ih =>
    cases far with
    | here =>
      have bound := near.suffix.length_le.trans (length_step_le ..)
      rw [List.length_cons] at shorter
      omega
    | next _ far => exact ih far shorter

/-- A walk that goes on beyond a token is past the step that reads it. -/
theorem past (reaches : walk.Reaches (token :: tokens) later rest)
    (beyond : rest.length ≤ tokens.length) :
    (walk.step token tokens).1.pending = none ∧
      (walk.step token tokens).1.Reaches (walk.step token tokens).2 later rest := by
  generalize whole : token :: tokens = all at reaches
  cases reaches with
  | here =>
    rw [← whole, List.length_cons] at beyond
    omega
  | next settled further =>
    obtain ⟨rfl, rfl⟩ := List.cons.inj whole
    exact ⟨settled, further⟩

/-- A walk has one state at a place. -/
theorem eq (one : walk.Reaches tokens first rest) (other : walk.Reaches tokens later rest) :
    first = later := by
  cases one.reaches other (Nat.le_refl _) with
  | here => rfl
  | next _ further =>
    have bound := further.suffix.length_le.trans (length_step_le ..)
    rw [List.length_cons] at bound
    omega

end Reaches

theorem reaches_resume (settled : (walk.resume tokens).pending = none) :
    walk.Reaches tokens (walk.resume tokens) [] := by
  fun_induction resume walk tokens with
  | case1 walk => exact .here
  | case2 walk token tokens waits =>
    rw [settled] at waits
    cases waits
  | case3 walk token tokens noWait ih =>
    exact .next (Option.not_isSome_iff_eq_none.mp noWait) (ih settled)

/-- A walk that goes on to a dashed token is there in the state behind the tokens in front; if a flag
waits there by itself, it takes any number of values and is set by now. -/
theorem Reaches.eq_close {front rest : List String} {later : Walk} (ready : walk.pending = none)
    (reaches : walk.Reaches (front ++ token :: rest) later (token :: rest))
    (dashed : isDashed token = true) :
    later = (walk.resume front).close ∧
      ∀ other got, (walk.resume front).pending = some (other, got) → other.nargs < 0 := by
  cases waiting : (walk.resume front).pending with
  | none =>
    have whole := (reaches_resume waiting).append (token :: rest)
    refine ⟨?_, by simp⟩
    have same : (walk.resume front).close = walk.resume front := by simp [close, waiting]
    rw [same]
    exact reaches.eq whole
  | some waiter =>
    obtain ⟨other, got⟩ := waiter
    obtain ⟨before, opener, flags, reached, accepting, gathers, short, reads⟩ :=
      exists_reaches_of_waiting ready waiting
    have whole := reached.append (token :: rest)
    rw [List.cons_append] at whole
    have settled : ({ before with flags } : Walk).pending = none := accepting.settled
    have stop : walk.resume front = ({ before with flags } : Walk).wait other got := by
      rw [reached.resume_eq]
      exact resume_of_wait (by rw [reads, assign_gathers _ gathers, short])
    have shorter : (token :: rest).length ≤ (got ++ token :: rest).length := by
      rw [List.length_append]
      omega
    obtain ⟨quiet, further⟩ :=
      (whole.reaches reaches (shorter.trans (Nat.le_succ _))).past shorter
    rw [reads, assign_gathers _ gathers] at quiet further
    -- The flag that waited in front of the token has found its values by now.
    cases found : other.values? (got ++ token :: rest) with
    | none => simp [found, wait] at quiet
    | some taken =>
      obtain ⟨values, behind⟩ := taken
      rw [found] at further
      have any : other.nargs < 0 := by
        refine Int.not_le.mp fun fixed => ?_
        have bound := further.suffix.length_le
        have many := Flag.arity_le_of_values? fixed found
        have few := (Flag.values?_eq_none_iff.mp short).1 fixed
        have whole := congrArg List.length (Flag.values?_eq_append found)
        simp only [List.length_append, List.length_cons] at whole bound
        rw [Flag.arity] at many
        omega
      have undashed : ∀ value ∈ got, isDashed value = false := (values?_eq_none_iff any).mp short
      rw [Flag.values?_spread (by simpa [any] using undashed) (fun _ => by simpa using dashed)]
        at found
      cases found
      refine ⟨?_, ?_⟩
      · rw [stop, close_wait settled]
        exact further.eq .here
      · intro same values found
        cases found
        exact any

end Walk

namespace Command

/-- A command line whose last flag ran out of tokens: the flag, the values that it got, the token that
left it open with the flags without a value in front of it, and the tokens and the walk before. -/
structure RunsOut (command : Command) (tokens : List String) (flag : Flag) (values front : List String)
    (token : String) (bare : List Char) (before : Walk) : Prop where
  line : tokens = front ++ token :: values
  reached : (Walk.start command).Reaches tokens before (token :: values)
  leaves : before.LeavesOpen token bare flag
  few : 0 ≤ flag.nargs → (values.length : Int) < max flag.nargs 1
  undashed : flag.nargs < 0 → ∀ value ∈ values, Walk.isDashed value = false

variable {command : Command} {tokens values front : List String} {flag : Flag} {token : String}
  {bare : List Char} {before : Walk}

theorem RunsOut.walk_eq (runs : command.RunsOut tokens flag values front token bare before) :
    command.walk tokens = (before.raise bare).wait flag values := by
  have short := Flag.values?_eq_none_iff.mpr ⟨runs.few, runs.undashed⟩
  rw [walk, runs.reached.resume_eq]
  exact Walk.resume_of_wait (by rw [runs.leaves.step, Walk.assign_gathers _ runs.leaves.gathers, short])

theorem exists_runsOut_of_waits (waits : (command.walk tokens).pending = some (flag, values)) :
    ∃ front token bare before, command.RunsOut tokens flag values front token bare before := by
  obtain ⟨before, token, flags, reached, accepting, gathers, short, reads⟩ :=
    Walk.exists_reaches_of_waiting rfl waits
  obtain ⟨front, line⟩ := reached.suffix
  have waiting : (before.step token values).1.pending = some (flag, values) := by
    rw [reads, Walk.assign_gathers _ gathers, short]
    rfl
  obtain ⟨bare, opened, leaves⟩ :=
    Walk.exists_leavesOpen_of_waits accepting.settled (waiting ▸ Option.some_ne_none _)
  obtain ⟨rfl, -, -⟩ := leaves.waits_iff.mp waiting
  obtain ⟨few, undashed⟩ := Flag.values?_eq_none_iff.mp short
  exact ⟨front, token, bare, before, line.symm, reached, leaves, few, undashed⟩

/-- A flag waits at the end of a command line exactly when it ran out of tokens there. The walk is then
the one in front of the token that left the flag open, with the shorthands of that token set which stand
in front of the flag's own; nothing else has changed. -/
theorem walk_waits_iff (command : Command) (tokens : List String) (flag : Flag)
    (values : List String) :
    ((command.walk tokens).pending = some (flag, values) ↔
      ∃ front token bare before, command.RunsOut tokens flag values front token bare before) ∧
    ∀ front token bare before, command.RunsOut tokens flag values front token bare before →
      before = (command.walk front).close ∧
      (∀ other got, (command.walk front).pending = some (other, got) → other.nargs < 0) ∧
      (command.walk tokens).dash = none ∧
      (command.walk tokens).command = before.command ∧
      (command.walk tokens).positional = before.positional ∧
      (command.walk tokens).unknown = before.unknown ∧
      (command.walk tokens).flags = (before.raise bare).flags := by
  refine ⟨⟨exists_runsOut_of_waits, ?_⟩, ?_⟩
  · rintro ⟨front, token, bare, before, runs⟩
    rw [runs.walk_eq]
    rfl
  · intro front token bare before runs
    obtain ⟨same, any⟩ := (runs.line ▸ runs.reached).eq_close rfl runs.leaves.dashed
    have stays := Walk.staysAt_raise before bare
    rw [runs.walk_eq]
    exact ⟨same, any, stays.dash.trans runs.leaves.accepting.before, stays.command, stays.positional,
      Walk.unknown_raise before bare, rfl⟩

/-- The walk in front of the last dashed token below. -/
def Sample.withFiles : Walk := (Walk.start Sample.command).set Sample.files ["a"]

theorem Sample.runsOut :
    Sample.command.RunsOut ["--files", "a", "-vvp=", "x"] Sample.pair ["x"] ["--files", "a"] "-vvp="
      ['v', 'v'] Sample.withFiles := by
  have first : (Walk.start Sample.command).step "--files" ["a", "-vvp=", "x"] =
      (withFiles, ["-vvp=", "x"]) := by
    have known : (Walk.start Sample.command).command.lookupToken "--files" =
        some Sample.files := by
      decide +kernel
    have dashed : Walk.isDashed "--files" = true := by decide
    rw [Walk.step_flag rfl (by decide) (by decide) (by decide) dashed (by decide),
      Walk.takeFlag_form known (by decide +kernel), Walk.assign_gathers _ (by decide)]
    rfl
  refine ⟨rfl, .next ?_ ?_, ?_, by decide, by decide⟩
  · rw [first]
    rfl
  · rw [first]
    exact .here
  · have known : withFiles.command.lookupToken (Chain.shorthand 'p') = some Sample.pair := by
      decide +kernel
    have fits (c : Char) (member : c ∈ ['v', 'v']) : ∃ other : Flag,
        withFiles.command.lookupToken (Chain.shorthand c) = some other ∧ other.takesValue = false := by
      obtain rfl : c = 'v' := by simpa using member
      exact ⟨Sample.verbose, by decide +kernel, rfl⟩
    exact ⟨⟨rfl, rfl, by decide⟩, by decide, by decide, by decide, by decide,
      .chain ['='] (by decide +kernel) (by decide +kernel) (by decide +kernel) (.inr rfl) fits known rfl,
      rfl, rfl⟩

/-- The flag in front is set when the chain begins, though it still waits if the line ends there; the chain
adds the letter `v` once for each time. -/
theorem walk_waits_iff_sample :
    Sample.command.RunsOut ["--files", "a", "-vvp=", "x"] Sample.pair ["x"] ["--files", "a"] "-vvp="
      ['v', 'v'] Sample.withFiles ∧
    (Sample.command.walk ["--files", "a", "-vvp=", "x"]).pending = some (Sample.pair, ["x"]) ∧
    Sample.withFiles = (Sample.command.walk ["--files", "a"]).close ∧
    (Sample.command.walk ["--files", "a", "-vvp=", "x"]).flags =
      (Sample.withFiles.raise ['v', 'v']).flags ∧
    (Sample.command.walk ["--files", "a", "-vvp=", "x"]).flags.get? "verbose" =
      some ["true", "true"] := by
  obtain ⟨waits, before⟩ :=
    walk_waits_iff Sample.command ["--files", "a", "-vvp=", "x"] Sample.pair ["x"]
  obtain ⟨same, -, -, -, -, -, flags⟩ := before _ _ _ _ Sample.runsOut
  refine ⟨Sample.runsOut, waits.mpr ⟨_, _, _, _, Sample.runsOut⟩, same, flags, ?_⟩
  rw [flags]
  decide +kernel

end Command
end TabSpec

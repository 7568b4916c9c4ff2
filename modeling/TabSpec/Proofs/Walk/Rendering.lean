import TabSpec.Proofs.Flag.Forms
import TabSpec.Proofs.Walk.Incremental

/-! Command lines written from what they are to say. Walking such a line gives back its positional
arguments, what stands behind the separator, and the values of every flag. -/
namespace TabSpec

/-- What is written on a command line in one go. -/
inductive Piece
  | positional (text : String)
  /-- A flag by itself. -/
  | alone (flag : Flag) (form : String)
  /-- A flag with a value behind an equals sign. -/
  | inline (flag : Flag) (form value : String)
  /-- A flag with the tokens behind it as its values. -/
  | spread (flag : Flag) (form : String) (values : List String)
deriving Repr, DecidableEq

/-- A command line: pieces, and what stands behind the separator when one is written. -/
structure Line where
  pieces : List Piece
  dash : Option (List String)
deriving Repr, DecidableEq

/-- Whether a flag of the command is written with a form; the form holds no equals sign. -/
def Command.Names (command : Command) (flag : Flag) (form : String) : Prop :=
  flag ∈ command.allFlags ∧ form ∈ flag.forms ∧ '=' ∉ form.toList

instance (command : Command) (flag : Flag) (form : String) :
    Decidable (command.Names flag form) := inferInstanceAs (Decidable (_ ∧ _ ∧ _))

/-- The flags of a command differ in their names and in all their forms. No form is the separator,
as none ever is in a command that was built (`CommandSpec.separator_not_mem_forms`). -/
structure Command.Unambiguous (command : Command) : Prop where
  names : ∀ first ∈ command.allFlags, ∀ second ∈ command.allFlags,
    first.name = second.name → first = second
  forms : ∀ first ∈ command.allFlags, ∀ second ∈ command.allFlags,
    ∀ form ∈ first.forms, form ∈ second.forms → first = second
  separator : ∀ flag ∈ command.allFlags, "--" ∉ flag.forms

namespace Piece

def tokens : Piece → List String
  | .positional text => [text]
  | .alone _ form => [form]
  | .inline _ form value => [form ++ "=" ++ value]
  | .spread _ form values => form :: values

def positional? : Piece → Option String
  | .positional text => some text
  | _ => none

/-- The flag that is set, and the values it is given. A flag by itself is true, or empty when it
could have a value. -/
def setting? : Piece → Option (Flag × List String)
  | .positional _ => none
  | .alone flag _ => some (flag, [if flag.takesValue then "" else "true"])
  | .inline flag _ value => some (flag, [value])
  | .spread flag _ values => some (flag, values)

/-- Whether the piece ends only where another flag or the separator begins. -/
def isOpen : Piece → Bool
  | .spread flag _ _ => flag.nargs < 0
  | _ => false

/-- Whether a piece may be written for a command. -/
def Fits (command : Command) : Piece → Prop
  | .positional text => Walk.isDashed text = false ∨ text = "-"
  | .alone flag form => command.Names flag form ∧ flag.gathers = false
  | .inline flag form _ => command.Names flag form
  | .spread flag form values => command.Names flag form ∧ flag.gathers = true ∧
      if flag.nargs < 0 then ∀ value ∈ values, Walk.isDashed value = false
      else values.length = flag.arity

instance (command : Command) : (piece : Piece) → Decidable (piece.Fits command)
  | .positional _ => inferInstanceAs (Decidable (_ ∨ _))
  | .alone .. => inferInstanceAs (Decidable (_ ∧ _))
  | .inline .. => inferInstanceAs (Decidable (Command.Names ..))
  | .spread .. => inferInstanceAs (Decidable (_ ∧ _ ∧ _))

end Piece

namespace Line

/-- The separator with what stands behind it. -/
def ending : Option (List String) → List String
  | some behind => "--" :: behind
  | none => []

def tokens (line : Line) : List String := line.pieces.flatMap Piece.tokens ++ ending line.dash

def positional (line : Line) : List String := line.pieces.filterMap Piece.positional?

/-- The values given to a flag, for each time it is written. -/
def occurrences (line : Line) (flag : Flag) : List (List String) :=
  (line.pieces.filterMap Piece.setting?).filterMap fun (other, values) =>
    if other.name = flag.name then some values else none

/-- The values of a flag: all of them if it is repeatable, or else those given last. -/
def valuesOf (line : Line) (flag : Flag) : Option (List String) :=
  (line.occurrences flag).getLast?.map fun last =>
    if flag.repeatable then (line.occurrences flag).flatten else last

/-- Whether a flag or the separator comes next. -/
def beginsDashed (dash : Option (List String)) : List Piece → Bool
  | [] => dash.isSome
  | next :: _ => next.setting?.isSome

/-- Whether every flag that takes any number of values is followed by a flag or the separator. -/
def Closed (dash : Option (List String)) : List Piece → Prop
  | [] => True
  | piece :: rest => (piece.isOpen = true → beginsDashed dash rest = true) ∧ Closed dash rest

instance decidableClosed (dash : Option (List String)) :
    (pieces : List Piece) → Decidable (Closed dash pieces)
  | [] => .isTrue trivial
  | _ :: rest =>
    have := decidableClosed dash rest
    inferInstanceAs (Decidable (_ ∧ _))

/-- Whether a line may be written for a command. -/
structure Fits (command : Command) (line : Line) : Prop where
  pieces : ∀ piece ∈ line.pieces, piece.Fits command
  closed : Closed line.dash line.pieces

end Line

namespace Command

variable {command : Command} {flag : Flag} {form : String}

theorem Names.lookupToken (unambiguous : command.Unambiguous) (names : command.Names flag form) :
    command.lookupToken form = some flag := by
  obtain ⟨member, written, _⟩ := names
  cases found : command.lookupToken form with
  | none =>
    have silent := List.find?_eq_none.mp found flag member
    exact absurd (Flag.mem_forms_iff.mp written) silent
  | some other =>
    have answers : other.answersTo form = true := by
      simpa using List.find?_some found
    have otherMember := List.mem_of_find?_eq_some found
    have shown := Flag.mem_forms_iff.mpr answers
    rw [unambiguous.forms other otherMember flag member form shown written]

theorem Names.isDashed (names : command.Names flag form) (back : String) :
    Walk.isDashed (form ++ back) = true ∧ form ++ back ≠ "-" := by
  obtain ⟨c, rest, chars⟩ := Flag.toList_of_answersTo (Flag.mem_forms_iff.mp names.2.1)
  constructor
  · simp [Walk.isDashed, chars]
  · intro short
    have whole := congrArg String.toList short
    simp [chars] at whole

end Command

/-- A flag that a piece sets is one of the command. -/
theorem Piece.Fits.mem_of_setting? {command : Command} {piece : Piece} {flag : Flag}
    {values : List String} (fits : piece.Fits command)
    (sets : piece.setting? = some (flag, values)) : flag ∈ command.allFlags := by
  cases piece with
  | positional text => cases sets
  | alone other form =>
    cases sets
    exact fits.1.1
  | inline other form value =>
    cases sets
    exact fits.1
  | spread other form others =>
    cases sets
    exact fits.1.1

/-- A leaf of a command tree that takes flags everywhere. -/
structure Command.TakesFlags (command : Command) : Prop where
  leaf : command.commands = []
  mode : command.parsing = .default ∨ command.parsing = .interspersed

/-- The values that a flag gathers are all that stands before what ends them. -/
theorem Flag.values?_spread {flag : Flag} {values more : List String}
    (fits : if flag.nargs < 0 then ∀ value ∈ values, Walk.isDashed value = false
      else values.length = flag.arity)
    (stops : flag.nargs < 0 → more.head?.any Walk.isDashed = true) :
    flag.values? (values ++ more) = some (values, more) := by
  by_cases any : flag.nargs < 0
  · rw [if_pos any] at fits
    have undashed : ∀ value ∈ values, (!Walk.isDashed value) = true := by
      intro value member
      simp [fits value member]
    cases more with
    | nil => simp at stops; omega
    | cons next rest =>
      have dashed : Walk.isDashed next = true := stops any
      simp [values?, any, List.dropWhile_append_of_pos undashed,
        List.takeWhile_append_of_pos undashed, dashed]
  · rw [if_neg any] at fits
    simp [values?, any, ← fits]

namespace Walk

variable {walk : Walk}

/-- The state behind a piece. -/
def add (walk : Walk) (piece : Piece) : Walk :=
  match piece.setting? with
  | some (flag, values) => walk.set flag values
  | none => { walk with positional := walk.positional ++ piece.positional?.toList }

/-- A state in which the next piece may be written. -/
structure Ready (walk : Walk) : Prop where
  takes : walk.command.TakesFlags
  dash : walk.dash = none
  pending : walk.pending = none

theorem Ready.active (ready : walk.Ready) : walk.flagsActive = true := by
  rcases ready.takes.mode with mode | mode
  · simp [flagsActive, mode]
  · simp [flagsActive, mode]

theorem Ready.stays (ready : walk.Ready) (token : String) : walk.descent? token = none := by
  simp [descent?, Command.find?, ready.takes.leaf]

theorem Ready.add (ready : walk.Ready) (piece : Piece) : (walk.add piece).Ready := by
  unfold Walk.add
  split
  · exact ⟨ready.takes, ready.dash, ready.pending⟩
  · exact ⟨ready.takes, ready.dash, ready.pending⟩

theorem Ready.step_form (ready : walk.Ready) (unambiguous : walk.command.Unambiguous)
    {flag : Flag} {form : String} (names : walk.command.Names flag form) (tokens : List String) :
    walk.step form tokens = walk.assign flag none tokens := by
  have dashed := names.isDashed ""
  rw [String.append_empty] at dashed
  have more : form ≠ "--" := by
    rintro rfl
    exact unambiguous.separator flag names.1 names.2.1
  rw [step_flag ready.dash ready.active more (ready.stays form) dashed.1 dashed.2,
    takeFlag_form (names.lookupToken unambiguous) names.2.2]

/-- A piece is read as what it says. -/
theorem Ready.resume_piece (ready : walk.Ready) (unambiguous : walk.command.Unambiguous)
    {piece : Piece} (fits : piece.Fits walk.command) {more : List String}
    (stops : piece.isOpen = true → more.head?.any isDashed = true) :
    walk.resume (piece.tokens ++ more) = (walk.add piece).resume more := by
  have settled := (ready.add piece).pending
  cases piece with
  | positional text =>
    exact resume_of_step (step_positional ready.dash ready.active (ready.stays text) fits more)
      settled
  | alone flag form =>
    obtain ⟨names, bare⟩ := fits
    have reads := ready.step_form unambiguous names more
    rw [assign_bare walk bare] at reads
    exact resume_of_step reads settled
  | inline flag form value =>
    have cut : Text.splitOnce? "=" (form ++ "=" ++ value) = some (form, value) :=
      Text.splitOnce?_append rfl fits.2.2 value
    have dashed := fits.isDashed ("=" ++ value)
    rw [← String.append_assoc] at dashed
    have other : form ++ "=" ++ value ≠ "--" := by
      intro same
      have uncut : Text.splitOnce? "=" "--" = none := by decide
      rw [same, uncut] at cut
      cases cut
    have reads := step_flag ready.dash ready.active other (ready.stays _) dashed.1 dashed.2 more
    rw [takeFlag_inline cut (fits.lookupToken unambiguous)] at reads
    exact resume_of_step reads settled
  | spread flag form values =>
    obtain ⟨names, gathers, count⟩ := fits
    have reads := ready.step_form unambiguous names (values ++ more)
    rw [assign_gathers walk gathers,
      Flag.values?_spread count (by simpa [Piece.isOpen] using stops)] at reads
    exact resume_of_step reads settled

/-- Behind the separator every token is kept as it is. -/
theorem resume_behind (settled : walk.pending = none) (earlier tokens : List String) :
    ({ walk with dash := some earlier } : Walk).resume tokens =
      { walk with dash := some (earlier ++ tokens) } := by
  induction tokens generalizing earlier with
  | nil => rw [resume_nil, List.append_nil]
  | cons token rest ih =>
    have reads : ({ walk with dash := some earlier } : Walk).step token rest =
        ({ walk with dash := some (earlier ++ [token]) }, rest) := rfl
    rw [resume_of_step reads settled]
    simpa using ih (earlier ++ [token])

theorem Ready.resume_ending (ready : walk.Ready) (dash : Option (List String)) :
    walk.resume (Line.ending dash) = { walk with dash } := by
  cases dash with
  | none => rw [Line.ending, resume_nil, ← ready.dash]
  | some behind =>
    rw [Line.ending, resume_of_step (step_separator ready.dash ready.active behind) ready.pending]
    exact resume_behind ready.pending [] behind

/-- A piece that sets a flag begins with a dash. -/
theorem head_tokens_isDashed {command : Command} {piece : Piece} (fits : piece.Fits command)
    (sets : piece.setting?.isSome = true) (more : List String) :
    (piece.tokens ++ more).head?.any isDashed = true := by
  cases piece with
  | positional text => cases sets
  | alone flag form => simpa [Piece.tokens] using (fits.1.isDashed "").1
  | inline flag form value =>
    simpa [Piece.tokens, String.append_assoc] using (fits.isDashed ("=" ++ value)).1
  | spread flag form values => simpa [Piece.tokens] using (fits.1.isDashed "").1

/-- All pieces are read as what they say. -/
theorem Ready.resume_pieces (ready : walk.Ready) (unambiguous : walk.command.Unambiguous)
    {pieces : List Piece} {dash : Option (List String)}
    (fits : ∀ piece ∈ pieces, piece.Fits walk.command) (closed : Line.Closed dash pieces) :
    walk.resume (pieces.flatMap Piece.tokens ++ Line.ending dash) =
      (pieces.foldl Walk.add walk).resume (Line.ending dash) := by
  induction pieces generalizing walk with
  | nil => rfl
  | cons piece rest ih =>
    obtain ⟨stops, closedRest⟩ := closed
    have same : (walk.add piece).command = walk.command := by
      unfold Walk.add
      split <;> rfl
    have endsAtDash : piece.isOpen = true →
        (rest.flatMap Piece.tokens ++ Line.ending dash).head?.any isDashed = true := by
      intro isOpen
      have following := stops isOpen
      cases rest with
      | nil =>
        obtain ⟨behind, rfl⟩ := Option.isSome_iff_exists.mp following
        rfl
      | cons next others =>
        rw [List.flatMap_cons, List.append_assoc]
        exact head_tokens_isDashed (fits next (by simp)) following _
    rw [List.flatMap_cons, List.append_assoc,
      ready.resume_piece unambiguous (fits piece (by simp)) endsAtDash, List.foldl_cons]
    apply ih (ready.add piece)
    · rw [same]
      exact unambiguous
    · intro other member
      rw [same]
      exact fits other (by simp [member])
    · exact closedRest

/-! ### The state behind all pieces -/

/-- What the pieces leave behind, flags apart. -/
theorem foldl_add (pieces : List Piece) (walk : Walk) :
    pieces.foldl add walk = { walk with
      positional := walk.positional ++ pieces.filterMap Piece.positional?
      flags := (pieces.foldl add walk).flags } := by
  induction pieces generalizing walk with
  | nil => simp
  | cons piece rest ih =>
    rw [List.foldl_cons, ih]
    cases piece <;> simp [add, Piece.setting?, Piece.positional?, set, List.filterMap_cons]

theorem Ready.foldl_add (ready : walk.Ready) (pieces : List Piece) :
    (pieces.foldl Walk.add walk).Ready := by
  rw [Walk.foldl_add]
  exact ⟨ready.takes, ready.dash, ready.pending⟩

/-- The values of a flag behind more values that it is given. -/
def gain (flag : Flag) (held : Option (List String)) (values : List String) :
    Option (List String) :=
  some ((if flag.repeatable then held.getD [] else []) ++ values)

theorem foldl_gain (flag : Flag) (occurrences : List (List String)) (held : Option (List String)) :
    occurrences.foldl (gain flag) held =
      match occurrences.getLast? with
      | none => held
      | some last =>
        some (if flag.repeatable then held.getD [] ++ occurrences.flatten else last) := by
  induction occurrences generalizing held with
  | nil => rfl
  | cons values rest ih =>
    rw [List.foldl_cons, ih, List.getLast?_cons]
    cases ends : rest.getLast? with
    | none =>
      rw [List.getLast?_eq_none_iff.mp ends]
      cases repeats : flag.repeatable <;> simp [gain, repeats]
    | some last => cases repeats : flag.repeatable <;> simp [gain, repeats]

/-- The values of one flag are gained piece by piece. -/
theorem get?_foldl_add {command : Command} (unambiguous : command.Unambiguous) {flag : Flag}
    (member : flag ∈ command.allFlags) {pieces : List Piece}
    (fits : ∀ piece ∈ pieces, piece.Fits command) (walk : Walk) (dash : Option (List String)) :
    (pieces.foldl add walk).flags.get? flag.name =
      ((⟨pieces, dash⟩ : Line).occurrences flag).foldl (gain flag)
        (walk.flags.get? flag.name) := by
  induction pieces generalizing walk with
  | nil => rfl
  | cons piece rest ih =>
    rw [List.foldl_cons, ih fun other inside => fits other (by simp [inside])]
    cases sets : piece.setting? with
    | none => simp [add, sets, Line.occurrences]
    | some setting =>
      obtain ⟨other, values⟩ := setting
      have known := (fits piece (by simp)).mem_of_setting? sets
      by_cases same : other.name = flag.name
      · obtain rfl := unambiguous.names other known flag member same
        simp [add, sets, Line.occurrences, get?_set, gain]
      · simp [add, sets, Line.occurrences, get?_set, same]

/-- A name of no flag stays without values. -/
theorem get?_foldl_add_of_unknown {command : Command} {name : String}
    (unknown : ∀ flag ∈ command.allFlags, flag.name ≠ name) {pieces : List Piece}
    (fits : ∀ piece ∈ pieces, piece.Fits command) (walk : Walk) :
    (pieces.foldl add walk).flags.get? name = walk.flags.get? name := by
  induction pieces generalizing walk with
  | nil => rfl
  | cons piece rest ih =>
    rw [List.foldl_cons, ih fun other inside => fits other (by simp [inside])]
    cases sets : piece.setting? with
    | none => simp [add, sets]
    | some setting =>
      obtain ⟨other, values⟩ := setting
      have apart := unknown other ((fits piece (by simp)).mem_of_setting? sets)
      simp [add, sets, get?_set, apart]

end Walk

/-- Walking a line that was written for a command gives back what it says: its positional arguments
in order, what stands behind the separator, and for every flag its values. -/
theorem Command.walk_tokens (command : Command) (line : Line) (takes : command.TakesFlags)
    (unambiguous : command.Unambiguous) (fits : line.Fits command) :
    (command.walk line.tokens).command = command ∧
    (command.walk line.tokens).positional = line.positional ∧
    (command.walk line.tokens).dash = line.dash ∧
    (command.walk line.tokens).pending = none ∧
    (command.walk line.tokens).unknown = [] ∧
    (∀ flag ∈ command.allFlags,
      (command.walk line.tokens).flags.get? flag.name = line.valuesOf flag) ∧
    ∀ name, (∀ flag ∈ command.allFlags, flag.name ≠ name) →
      (command.walk line.tokens).flags.get? name = none := by
  obtain ⟨pieces, dash⟩ := line
  have ready : (Walk.start command).Ready := ⟨takes, rfl, rfl⟩
  have walked : command.walk (Line.tokens ⟨pieces, dash⟩) =
      { pieces.foldl Walk.add (Walk.start command) with dash } :=
    (ready.resume_pieces unambiguous fits.pieces fits.closed).trans
      ((ready.foldl_add pieces).resume_ending dash)
  have behind := Walk.foldl_add pieces (Walk.start command)
  rw [walked]
  refine ⟨?_, ?_, rfl, ?_, ?_, ?_, ?_⟩
  · rw [behind]
    rfl
  · rw [behind]
    rfl
  · rw [behind]
    rfl
  · rw [behind]
    rfl
  · intro flag member
    refine (Walk.get?_foldl_add unambiguous member fits.pieces _ dash).trans ?_
    rw [Walk.foldl_gain, Line.valuesOf]
    cases ((⟨pieces, dash⟩ : Line).occurrences flag).getLast? <;> rfl
  · intro name unknown
    exact Walk.get?_foldl_add_of_unknown unknown fits.pieces _

namespace Sample

/-- A line with every kind of piece; some values look like flags. -/
def line : Line where
  pieces := [.spread pair "--pair" ["-v", "--"], .positional "a", .alone verbose "-v",
    .inline output "-output" "x=y", .alone color "--color", .positional "-",
    .spread files "-f" ["b", "c"], .alone verbose "--verbose", .spread files "--files" []]
  dash := some ["-v", "--"]

theorem line_fits : line.Fits command := ⟨by decide, by decide⟩

theorem command_unambiguous : command.Unambiguous := ⟨by decide, by decide, by decide⟩

end Sample

theorem Command.walk_tokens_sample :
    Sample.line.tokens = ["--pair", "-v", "--", "a", "-v", "-output=x=y", "--color", "-", "-f",
      "b", "c", "--verbose", "--files", "--", "-v", "--"] ∧
    (Sample.command.walk Sample.line.tokens).positional = ["a", "-"] ∧
    (Sample.command.walk Sample.line.tokens).dash = some ["-v", "--"] ∧
    (Sample.command.walk Sample.line.tokens).flags.get? "verbose" = some ["true", "true"] ∧
    (Sample.command.walk Sample.line.tokens).flags.get? "files" = some ["b", "c"] := by
  obtain ⟨_, positional, dash, _, _, values, _⟩ := walk_tokens Sample.command Sample.line
    ⟨rfl, .inl rfl⟩ Sample.command_unambiguous Sample.line_fits
  refine ⟨by decide, positional, dash, ?_, ?_⟩
  · exact (values Sample.verbose (by decide)).trans (by decide)
  · exact (values Sample.files (by decide)).trans (by decide)

end TabSpec

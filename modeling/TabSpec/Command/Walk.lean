import TabSpec.Command.Basic
import TabSpec.Context
import TabSpec.Text.Upper

/-! Walking the arguments of a command line through a command tree: descending into subcommands,
setting flags, and collecting positional arguments and those behind `--`. -/
namespace TabSpec

structure Walk where
  /-- The deepest command reached. -/
  command : Command
  /-- The values of the flags that are set. -/
  flags : OrderedMap (List String)
  positional : List String
  /-- The arguments behind `--`. -/
  dash : Option (List String)
  /-- The flag that ran out of arguments, with those that it got. -/
  pending : Option (Flag × List String)
  /-- Tokens that look like flags and are none. -/
  unknown : List String
deriving Inhabited

namespace Walk

def start (command : Command) : Walk := ⟨command, .empty, [], none, none, []⟩

/-- Whether the next token may be a flag. -/
def flagsActive (walk : Walk) : Bool :=
  match walk.command.parsing with
  | .disabled => false
  | .nonInterspersed => walk.positional.isEmpty
  | _ => true

/-- Record values of a flag; unless the flag is repeatable they replace earlier ones. -/
def set (walk : Walk) (flag : Flag) (values : List String) : Walk :=
  let earlier := if flag.repeatable then (walk.flags.get? flag.name).getD [] else []
  { walk with flags := walk.flags.insert flag.name (earlier ++ values) }

def wait (walk : Walk) (flag : Flag) (values : List String) : Walk :=
  { walk with pending := some (flag, values) }

/-- Whether a text begins with a dash. -/
def isDashed (text : String) : Bool := text.toList.head? == some '-'

/-- Give a flag its value: the one written in its token, or as many of the following tokens as it
wants. The answer holds the tokens left. -/
def assign (walk : Walk) (flag : Flag) (inline : Option String) (tokens : List String) :
    Walk × List String :=
  match inline with
  | some value => (walk.set flag [value], tokens)
  | none =>
    if !flag.takesValue then (walk.set flag ["true"], tokens)
    else if flag.optionalArg then (walk.set flag [""], tokens)
    else if flag.nargs < 0 then
      let values := tokens.takeWhile (!isDashed ·)
      match tokens.dropWhile (!isDashed ·) with
      | [] => (walk.wait flag values, [])
      | rest => (walk.set flag values, rest)
    else
      let wanted := max flag.nargs.toNat 1
      if tokens.length < wanted then (walk.wait flag tokens, [])
      else (walk.set flag (tokens.take wanted), tokens.drop wanted)

/-- Read shorthands written in one token; the first one that takes a value takes the rest of the
token, behind an equals sign or not. -/
def assignChain (walk : Walk) (tokens : List String) : List Char → Walk × List String
  | [] => (walk, tokens)
  | c :: rest =>
    let shorthand := String.ofList ['-', c]
    match walk.command.lookupToken shorthand with
    | none => ({ walk with unknown := walk.unknown ++ [shorthand] }, tokens)
    | some flag =>
      if !flag.takesValue then assignChain (walk.set flag ["true"]) tokens rest
      else
        let value := match rest with
          | '=' :: value => value
          | value => value
        walk.assign flag (if value.isEmpty then none else some (String.ofList value)) tokens

/-- Read a token that begins with a dash. -/
def takeFlag (walk : Walk) (token : String) (tokens : List String) : Walk × List String :=
  let (name, inline) := match Text.splitOnce? "=" token with
    | some (name, value) => (name, some value)
    | none => (token, none)
  match walk.command.lookupToken name with
  | some flag => walk.assign flag inline tokens
  | none =>
    if Text.startsWith "--" token then
      ({ walk with unknown := walk.unknown ++ [name] }, tokens)
    else walk.assignChain tokens (token.toList.drop 1)

/-- The subcommand that a token calls; none is called behind a positional argument. -/
def descent? (walk : Walk) (token : String) : Option Command :=
  if walk.positional.isEmpty then walk.command.find? token else none

/-- Take one token, and the tokens behind it that are its values. -/
def step (walk : Walk) (token : String) (tokens : List String) : Walk × List String :=
  match walk.dash with
  | some dash => ({ walk with dash := some (dash ++ [token]) }, tokens)
  | none =>
    if !walk.flagsActive then ({ walk with positional := walk.positional ++ [token] }, tokens)
    else if token = "--" then ({ walk with dash := some [] }, tokens)
    else
      match walk.descent? token with
      | some command => ({ walk with command }, tokens)
      | none =>
        if isDashed token && token != "-" then walk.takeFlag token tokens
        else ({ walk with positional := walk.positional ++ [token] }, tokens)

theorem length_assign_le (walk : Walk) (flag : Flag) (inline : Option String)
    (tokens : List String) : (walk.assign flag inline tokens).2.length ≤ tokens.length := by
  unfold assign
  split
  · simp
  · split
    · simp
    · split
      · simp
      · split
        · have shorter := (List.dropWhile_suffix (!isDashed ·) (l := tokens)).length_le
          split <;> simp_all
        · dsimp only
          split <;> simp

theorem length_assignChain_le (walk : Walk) (tokens : List String) (chars : List Char) :
    (walk.assignChain tokens chars).2.length ≤ tokens.length := by
  induction chars generalizing walk with
  | nil => simp [assignChain]
  | cons c rest ih =>
    simp only [assignChain]
    split
    · simp
    · split
      · exact ih _
      · exact length_assign_le ..

theorem length_takeFlag_le (walk : Walk) (token : String) (tokens : List String) :
    (walk.takeFlag token tokens).2.length ≤ tokens.length := by
  unfold takeFlag
  split
  split
  · exact length_assign_le ..
  · split
    · simp
    · exact length_assignChain_le ..

theorem length_step_le (walk : Walk) (token : String) (tokens : List String) :
    (walk.step token tokens).2.length ≤ tokens.length := by
  unfold step
  split
  · simp
  · split
    · simp
    · split
      · simp
      · split
        · simp
        · split
          · exact length_takeFlag_le ..
          · simp

/-- Go on with tokens; a flag that ran out of arguments ends the walk. -/
def resume (walk : Walk) : List String → Walk
  | [] => walk
  | token :: tokens =>
    if (walk.step token tokens).1.pending.isSome then (walk.step token tokens).1
    else resume (walk.step token tokens).1 (walk.step token tokens).2
termination_by tokens => tokens.length
decreasing_by
  have shorter := length_step_le walk token tokens
  simp only [List.length_cons]
  omega

/-- The variable that holds the values of a flag. -/
def flagVariable (name : String) : String := "C_FLAG_" ++ Text.upper name

/-- The context for what completes or runs the command: the flags are variables, the positional
arguments are the arguments, and variables of an enclosing evaluation are gone. -/
def context (walk : Walk) (base : Context) : Context :=
  let context := walk.flags.entries.foldl
    (fun context (name, values) =>
      context.set (flagVariable name) (String.intercalate "," values))
    base.clearVariables
  { context with args := walk.positional, parts := [] }

end Walk

namespace Command

/-- Walk the arguments of a command line. -/
def walk (command : Command) (tokens : List String) : Walk := (Walk.start command).resume tokens

/-- The required flags that are not set. -/
def missingFlags (walk : Walk) : List String :=
  (walk.command.allFlags.filter fun flag =>
    flag.required && !walk.flags.contains flag.name).map (·.name)

/-- The first exclusive group with more than one flag set, and those flags. -/
def conflict? (walk : Walk) : Option (List String × List String) :=
  (walk.command.exclusiveFlags.map fun group => (group, group.filter walk.flags.contains)).find?
    fun (_, set) => 1 < set.length

/-- Why a walk cannot be run. -/
def objection? (walk : Walk) : Option UsageFault :=
  match walk.pending, walk.unknown with
  | some (flag, _), _ =>
    some (.missingArgument ((flag.longForm?.or flag.shortForm?).getD ""))
  | none, token :: _ => some (.unknownFlag token)
  | none, [] =>
    if walk.command.parsesFlags ∧ missingFlags walk ≠ [] then
      some (.missingFlags (missingFlags walk))
    else (conflict? walk).map fun (group, set) => .exclusiveFlags group set

/-- Walk the arguments of a command line that is to be run. -/
def parse (command : Command) (tokens : List String) : Except SpecFault Walk :=
  match objection? (command.walk tokens) with
  | some fault => .error (.usage fault)
  | none => .ok (command.walk tokens)

/-- Prepare the program that a command line runs. -/
def prepareRun (command : Command) (base : Context) (tokens : List String) :
    Except SpecFault PreparedRun := do
  match command.buildError with
  | some error => throw (.usage (.broken error))
  | none =>
    let walk ← command.parse tokens
    match walk.command.run with
    | none => throw (.usage (.notRunnable walk.command.name))
    | some run => run.prepare (walk.context base) (walk.positional ++ walk.dash.getD [])

end Command
end TabSpec

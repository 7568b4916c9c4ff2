import TabSpec.Text.Cut

/-! Reading the arguments of the program itself. -/
namespace TabSpec

/-- What the program is asked to do. -/
inductive Request
  | complete (json : Bool) (spec : String) (args : List String)
  | run (spec : String) (args : List String)
  | listMacros
  | callMacro (name : String) (args : List String)
  /-- The protocol by which programs ask each other for candidates. -/
  | protocol (args : List String)
  | version
deriving Repr, DecidableEq

/-- The subcommands of the program. -/
inductive Subcommand
  | complete
  | run
  | callMacro
  | protocol
  | version
deriving Repr, DecidableEq

namespace Subcommand

def name : Subcommand → String
  | .complete => "complete"
  | .run => "run"
  | .callMacro => "macro"
  | .protocol => "_carapace"
  | .version => "version"

def all : List Subcommand := [.complete, .run, .callMacro, .protocol, .version]

/-- Whether a first argument of its own comes before the others, and whether it must be there. -/
def takesFirst : Subcommand → Bool
  | .complete => true
  | .run => true
  | .callMacro => true
  | _ => false

def needsFirst : Subcommand → Bool
  | .complete => true
  | .run => true
  | _ => false

/-- Whether any number of arguments comes last. -/
def takesRest (subcommand : Subcommand) : Bool := subcommand ≠ .version

end Subcommand

/-- What a help text is about. -/
inductive Topic
  | program
  | subcommand (subcommand : Subcommand)
  /-- The subcommand that prints help texts. -/
  | help
deriving Repr, DecidableEq

/-- Why there is nothing to do. -/
inductive Refusal
  | usage
  | help (topic : Topic)
deriving Repr, DecidableEq

namespace Request

/-- What is read of a subcommand's arguments. -/
structure Reading where
  json : Bool := false
  level : Option String := none
  first : Option String := none
  rest : List String := []
  /-- Whether options have ended. -/
  plain : Bool := false
deriving Repr, DecidableEq

/-- Take an argument that is no option. -/
def Reading.put (reading : Reading) (subcommand : Subcommand) (token : String) :
    Except Refusal Reading :=
  if subcommand.takesFirst && reading.first.isNone then .ok { reading with first := some token }
  else if subcommand.takesRest then
    .ok { reading with rest := reading.rest ++ [token], plain := true }
  else .error .usage

/-- What a token is before options have ended. -/
inductive Token
  | escape
  | level (value : Option String)
  | json
  | help
  | unknown
  | plain
deriving Repr, DecidableEq

def Token.of (subcommand : Option Subcommand) (token : String) : Token :=
  match token.toList with
  | ['-'] => .plain
  | ['-', '-'] => .escape
  | '-' :: '-' :: text =>
    let (name, value) := match Text.firstCut? ['='] text with
      | some (name, value) => (name, some (String.ofList value))
      | none => (text, none)
    match String.ofList name, value with
    | "log", value => .level value
    | "json", none => if subcommand = some .complete then .json else .unknown
    | "help", none => .help
    | _, _ => .unknown
  | '-' :: text => if text.all (· == 'h') then .help else .unknown
  | _ => .plain

/-- Whether a token that looks like an option and is none may be an argument. -/
def Reading.mayBeDashed (reading : Reading) (subcommand : Subcommand) (token : String) : Bool :=
  (reading.first.isSome || !subcommand.takesFirst) && subcommand.takesRest &&
    ["--json=", "--help="].all fun form =>
      !(Text.startsWith form token && (form != "--json=" || subcommand = .complete))

/-- Read the arguments of a subcommand. -/
def read (subcommand : Subcommand) (reading : Reading) : List String → Except Refusal Reading
  | [] => .ok reading
  | token :: tokens =>
    if reading.plain then do read subcommand (← reading.put subcommand token) tokens
    else
      match Token.of (some subcommand) token with
      | .escape => read subcommand { reading with plain := true } tokens
      | .help => .error (.help (.subcommand subcommand))
      | .json =>
        if reading.json then .error .usage else read subcommand { reading with json := true } tokens
      | .plain => do read subcommand (← reading.put subcommand token) tokens
      | .unknown =>
        if reading.mayBeDashed subcommand token then do
          read subcommand (← reading.put subcommand token) tokens
        else if Text.startsWith "-h" token then .error (.help (.subcommand subcommand))
        else .error .usage
      | .level (some level) =>
        if reading.level.isSome then .error .usage
        else read subcommand { reading with level := some level } tokens
      | .level none =>
        if reading.level.isSome then .error .usage
        else
          match tokens with
          | [] => .error .usage
          | level :: tokens =>
            match Token.of (some subcommand) level with
            | .plain => read subcommand { reading with level := some level } tokens
            | .help => .error (.help (.subcommand subcommand))
            | .unknown =>
              if reading.mayBeDashed subcommand level then
                read subcommand { reading with level := some level } tokens
              else .error .usage
            | _ => .error .usage

/-- The request that the arguments of a subcommand make. -/
def ofReading (subcommand : Subcommand) (reading : Reading) : Except Refusal Request :=
  if subcommand.needsFirst && reading.first.isNone then .error .usage
  else
    .ok (match subcommand with
      | .complete => .complete reading.json (reading.first.getD "") reading.rest
      | .run => .run (reading.first.getD "") reading.rest
      | .callMacro =>
        match reading.first with
        | some name => .callMacro name reading.rest
        | none => .listMacros
      | .protocol => .protocol reading.rest
      | .version => .version)

/-- Read what follows `help`. -/
def helpOn : List String → Refusal
  | [] => .help .program
  | [name] =>
    match Subcommand.all.find? (·.name == name) with
    | some subcommand => .help (.subcommand subcommand)
    | none => if name = "help" then .help .help else .usage
  | _ => .usage

/-- Read the arguments of the program: the level of the log, unless it stays as it is, and the
request. A level behind the subcommand counts before one in front of it. -/
def parse (level : Option String) : List String → Except Refusal (Option String × Request)
  | [] => .error .usage
  | token :: tokens =>
    match Token.of none token with
    | .help => .error (.help .program)
    | .level (some given) => if level.isSome then .error .usage else parse (some given) tokens
    | .level none =>
      if level.isSome then .error .usage
      else
        match tokens with
        | [] => .error .usage
        | given :: tokens =>
          match Token.of none given with
          | .plain => parse (some given) tokens
          | .help => .error (.help .program)
          | _ => .error .usage
    | .plain =>
      if token = "help" then .error (helpOn tokens)
      else
        match Subcommand.all.find? (·.name == token) with
        | none => .error .usage
        | some subcommand => do
          let reading ← read subcommand {} tokens
          let request ← ofReading subcommand reading
          return (reading.level.or level, request)
    | _ => .error .usage

end Request
end TabSpec

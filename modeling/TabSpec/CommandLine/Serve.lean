import TabSpec.CommandLine.Help
import TabSpec.Configuration
import TabSpec.CoreMacros

/-! Serving the requests of the command line. -/
namespace TabSpec

/-- What the program leaves behind; output, errors and the lines for a log file are octets. -/
structure Served where
  code : Nat
  output : List Char
  errors : List Char
  /-- The lines of the records, which are among the errors as well. -/
  log : List Char := []
deriving Inhabited

/-- Where and how requests are served. -/
structure Service where
  configuration : Configuration
  machine : Machine
  directory : String
  /-- The time shown in records. -/
  timestamp : String

private def printed (lines : List String) : List Char :=
  lines.flatMap fun line => Text.toOctets line ++ ['\n']

namespace Service

def registry (service : Service) : Registry := .withCore service.configuration.program

def context (service : Service) : Context :=
  { args := [], value := "", parts := [], directory := service.directory, bindings := .empty
    machine := service.machine }

/-- The lines written for records. -/
def recorded (service : Service) (records : List Log.Record) : List Char :=
  printed (service.configuration.log.lines service.timestamp records)

/-- Lines of output, and lines of errors behind those of the records. -/
def answer (service : Service) (records : List Log.Record) (output errors : List String) : Served :=
  let log := service.recorded records
  ⟨0, printed output, log ++ printed errors, log⟩

def failure (service : Service) (records : List Log.Record) (message : String) : Served :=
  let log := service.recorded records
  ⟨1, [], log ++ printed ["Error: " ++ message], log⟩

/-- A completion as lines: the candidates with their descriptions, and the messages as errors. -/
def present (service : Service) (json : Bool) (result : Traced Completion) : Served :=
  if json then service.answer result.records [result.value.exported] []
  else
    service.answer result.records
      (result.value.suggestions.map fun suggestion =>
        if suggestion.description = "" then suggestion.value
        else suggestion.value ++ "\t" ++ suggestion.description)
      result.value.messages

/-- The command that a specification file describes. -/
def load (service : Service) (path : String) : Except SpecFault (Traced Command) := do
  let spec ← CommandSpec.load service.machine.files (Path.join service.directory path) path
  return spec.buildOrBroken service.registry service.configuration.capabilities

/-- Complete the last of the arguments, and keep the candidates that begin with it. -/
def complete (service : Service) (json : Bool) (spec : String) (args : List String) : Served :=
  match service.load spec with
  | .error fault => service.failure [] fault.message
  | .ok command =>
    let args := if args.isEmpty then [""] else args
    service.present json do
      let command ← command
      let result ← command.complete service.registry service.registry.nested service.context args
      return result.filterPrefix (args.getLast?.getD "")

/-- Run a command; its exit code becomes that of the program. -/
def run (service : Service) (spec : String) (args : List String) : Served :=
  match service.load spec with
  | .error fault => service.failure [] fault.message
  | .ok command =>
    match command.value.prepareRun service.context args with
    | .error fault => service.failure command.records fault.message
    | .ok prepared =>
      let execution := prepared.execute service.machine
      let before := command.records ++ execution.records
      match execution.value with
      | .error fault => service.failure before fault.message
      | .ok outcome =>
        let code := match outcome.ending with
          | .exited code => code
          | .killed _ => 1
        let after := if code = 0 then []
          else (Traced.report .warn "RUN" "exit" "child exited with non-zero status"
            (some [("program", .string prepared.program), ("code", .ofNat code)])).records
        let (before, after) := (service.recorded before, service.recorded after)
        ⟨code, outcome.output, before ++ outcome.errors ++ after, before ++ after⟩

/-- The context of a macro: the last argument is the value. -/
def macroContext (service : Service) (args : List String) : Context :=
  { service.context with args := args.dropLast, value := args.getLast?.getD "" }

def listMacros (service : Service) : Served :=
  service.answer [] (service.registry.macros.entries.map fun (name, entry) =>
    "$" ++ name ++ "(" ++ entry.signature ++ ")\t" ++ entry.description) []

/-- Show the signature of a macro, or what it offers for arguments. -/
def callMacro (service : Service) (name : String) (args : List String) : Served :=
  let call := "$" ++ name
  match service.registry.lookup call with
  | .error fault => service.failure [] fault.message
  | .ok entry =>
    if args.isEmpty then
      service.answer [] ["$" ++ Call.head name ++ "(" ++ entry.signature ++ ")"] []
    else
      match service.registry.actionOf service.registry.nested call with
      | .error fault => service.failure [] fault.message
      | .ok action => service.present true (action (service.macroContext args))

/-- Answer another program. -/
def protocol (service : Service) (args : List String) : Served :=
  match args with
  | [] => service.failure [] "missing protocol command"
  | kind :: rest =>
    if kind ≠ "macro" then service.failure [] ("unknown protocol command: " ++ kind)
    else
      match rest with
      | [] => service.failure [] "missing macro name"
      | name :: args =>
        let call := "$" ++ Registry.customFront ++ name
        match service.registry.lookup call with
        | .error fault => service.present true (pure (.ofMessage fault.message))
        | .ok _ =>
          match service.registry.actionOf service.registry.nested call with
          | .error fault => service.failure [] fault.message
          | .ok action => service.present true (action (service.macroContext args))

def serve (service : Service) : Request → Served
  | .complete json spec args => service.complete json spec args
  | .run spec args => service.run spec args
  | .listMacros => service.listMacros
  | .callMacro name args => service.callMacro name args
  | .protocol args => service.protocol args
  | .version => service.answer [] ["compspec v0.1.0"] []

end Service

/-- Serve the arguments of the program on a machine. -/
def serveArguments (machine : Machine) (directory timestamp : String) (argv : List String) : Served :=
  match Request.parse none argv with
  | .error .usage => { code := 2, output := [], errors := printed ["error: invalid usage; try --help"] }
  | .error (.help topic) => { code := 0, output := Text.toOctets (helpText topic), errors := [] }
  | .ok (level, request) =>
    let configuration := Configuration.ofVariables "compspec" machine.environment
    let configuration := match level.bind Log.Level.parse with
      | some level => configuration.withLevel level
      | none => configuration
    let files := match configuration.log.file with
      | some path => machine.files.touch (Path.join directory path)
      | none => machine.files
    Service.serve ⟨configuration, { machine with files }, directory, timestamp⟩ request

end TabSpec

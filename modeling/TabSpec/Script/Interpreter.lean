import TabSpec.Script.Arithmetic
import TabSpec.Script.Builtin
import TabSpec.Script.Reader

/-! Running scripts and the programs that they call. Fuel bounds the depth of calls. -/
namespace TabSpec.Script

/-- Where a shell finds its script. -/
inductive Origin
  | file
  | operand
  | input
deriving Repr, DecidableEq, Inhabited

/-- How a process ended. -/
inductive Exit
  | code (status : Nat)
  | signal (number : Nat)
deriving Repr, DecidableEq, Inhabited

/-- The status by which a shell knows how a process ended. -/
def Exit.status : Exit → Nat
  | .code status => status
  | .signal number => 128 + number

/-- What a shell writes when a signal has ended a program. -/
def Exit.mourn (exit : Exit) (session : Session) : Session :=
  match exit, session.dialect with
  | .signal 1, .standard => session.write 2 "Hangup\n".toList
  | .signal 3, .standard => session.write 2 "Quit\n".toList
  | .signal 6, .standard => session.write 2 "Aborted\n".toList
  | .signal 9, .standard => session.write 2 "Killed\n".toList
  | .signal 11, .standard => session.write 2 "Segmentation fault\n".toList
  | .signal 14, .standard => session.write 2 "Alarm clock\n".toList
  | .signal 15, .standard => session.write 2 "Terminated\n".toList
  | _, _ => session

namespace Session

/-- Where programs are looked for. -/
def searchPath (session : Session) : List (List Char) :=
  ((session.valueOf? "PATH".toList).getD "/bin:/usr/bin".toList).splitOn ':'

/-- The path of the program that a name stands for. -/
def findProgram (session : Session) (name : List Char) : Except OsFault String :=
  if name.isEmpty then .error .noEntry
  else if name.contains '/' then
    match session.files.status (session.path name) with
    | .ok _ => .ok (session.path name)
    | .error fault => .error fault
  else
    let places := session.searchPath.map fun directory =>
      session.path (if directory.isEmpty then name else directory ++ '/' :: name)
    match places.find? session.files.isExecutable with
    | some path => .ok path
    | none =>
      if places.any fun path => (session.files.status path).toOption.isSome then
        .error .permissionDenied
      else .error .noEntry

/-- Make a file ready for output. -/
def openFile (session : Session) (append : Bool) (target : List Char) :
    Except OsFault (Session × List String) := do
  if target.isEmpty then throw .noEntry
  let path := session.path target
  match session.files.locate path with
  | .ok place =>
    match session.files.kind? place with
    | some .directory => throw .isDirectory
    | some (.file _ executable) =>
      if append then return (session, place)
      else return ({ session with files := session.files.put place (.file "" executable) }, place)
    | _ => throw .permissionDenied
  | .error .noEntry =>
    let above := (Path.parent? path).getD "/"
    let place := (← session.files.locate above) ++ [Path.fileName path]
    if session.files.isDirectory above then
      return ({ session with files := session.files.put place (.file "" false) }, place)
    else throw .notDirectory
  | .error fault => throw fault

/-- Where a shell looks for programs unless told otherwise. -/
def usualPath : List Char :=
  "/usr/local/sbin:/usr/local/bin:/usr/sbin:/usr/bin:/sbin:/bin".toList

/-- The state in which a shell starts. -/
def forShell (session : Session) (dialect : Dialect) (name : List Char) : Session :=
  let session := { session with
    dialect, name, arguments := [], shadowed := [], functions := [], status := 0,
    captured := none, process := session.process + 1, exitOnError := false,
    unsetIsError := false, findsPaths := true, onExit := none, inCondition := false, line := 1,
    bindings := session.bindings.filter (·.exported) }
  let session := if (session.valueOf? "PATH".toList).isSome then session
    else session.assign "PATH".toList usualPath
  (session.assign "PWD".toList (Text.toOctets session.directory)).setExported "PWD".toList

end Session

/-- The interpreter that the first line of a file names, with its argument. -/
def interpreterLine? (content : List Char) : Option (List Char × List (List Char)) :=
  match content with
  | '#' :: '!' :: rest =>
    let isBlank (c : Char) : Bool := c == ' ' || c == '\t'
    let line := (rest.takeWhile (· != '\n')).dropWhile isBlank
    let line := (line.reverse.dropWhile isBlank).reverse
    let program := line.takeWhile (!isBlank ·)
    let argument := (line.drop program.length).dropWhile isBlank
    some (program, if argument.isEmpty then [] else [argument])
  | _ => none

/-- Programs that read their whole input. -/
private def readsInput (name : String) (arguments : List (List Char)) : Bool :=
  name == "tr" || name == "tee" ||
    (["cat", "sort", "uniq", "head", "tail", "wc", "cut", "rev", "tac"].contains name &&
      arguments.all (·.head? == some '-'))

namespace Run

/-- Run a program that neither runs scripts nor starts programs. -/
def utility (name : String) (arguments : List (List Char)) : Run Exit := do
  let session := { ← get with dialect := .bash }
  let (session, answer) := match Utility.change? name session arguments with
    | some changed => changed
    | none => (session, (Utility.run? name session arguments).getD { status := 127 })
  let session := (session.write 1 answer.output).write 2 answer.errors
  let input := if readsInput name arguments then [] else session.input
  modify fun outer => { outer with files := session.files, written := session.written, input }
  return .code answer.status

/-- Leave the script because a parameter is not set. -/
def noSuchParameter (name message : List Char) : Run Unit := do
  let status := if (← get).dialect = .bash then 127 else 2
  complain (name ++ ": ".toList ++ message) status
  throw .exit

/-- What is wrong with a parameter that has to be set. -/
def demandMessage (dialect : Dialect) (orEmpty : Bool) : List Char :=
  match dialect, orEmpty with
  | _, false => "parameter not set".toList
  | .standard, true => "parameter not set or null".toList
  | .bash, true => "parameter null or not set".toList

/-- The bits of all arguments. -/
def argumentBits (isQuoted isStar : Bool) (session : Session) : List Bit :=
  let arguments := session.arguments
  if isStar && isQuoted then
    let mark := (session.separators.take 1)
    Bit.quoted (mark.intercalate arguments)
  else if arguments.isEmpty then (if isQuoted then [.absent] else [])
  else [Bit.cut].intercalate (arguments.map (Bit.result isQuoted))

/-- What is wrong with an arithmetic expression. -/
def arithmeticMessage (dialect : Dialect) (text : List Char) (fault : Arithmetic.Fault) :
    List Char :=
  match dialect, fault with
  | .standard, .number word => "Illegal number: ".toList ++ word
  | .standard, .expression =>
    "arithmetic expression: expecting primary: \"".toList ++ text ++ ['"']
  | .standard, .leftover => "arithmetic expression: expecting EOF: \"".toList ++ text ++ ['"']
  | .standard, .divisionByZero =>
    "arithmetic expression: division by zero: \"".toList ++ text ++ ['"']
  | .bash, .divisionByZero => text ++ ": division by 0 (error token is \"0\")".toList
  | .bash, _ => text ++ ": syntax error: operand expected".toList

/-- Say why a program could not be called. -/
def refuse (name : List Char) (fault : OsFault) : Run Unit := do
  match fault, (← get).dialect with
  | .noEntry, .standard => complain (name ++ ": not found".toList) 127
  | .noEntry, .bash =>
    if name.contains '/' then complain (name ++ ": No such file or directory".toList) 127
    else complain (name ++ ": command not found".toList) 127
  | fault, _ => complain (name ++ (": " ++ fault.reason).toList) 126

/-- Say what a command's name stands for. -/
def describe (name : List Char) (isLong : Bool) : Run Unit := do
  let session ← get
  let say (short long : List Char) : Run Unit :=
    set { session.write 1 ((if isLong then name ++ long else short) ++ ['\n']) with status := 0 }
  if Reader.reserved.contains (String.ofList name) then say name " is a shell keyword".toList
  else if (session.functions.lookup name).isSome then say name " is a shell function".toList
  else if Builtin.names.contains (String.ofList name) then say name " is a shell builtin".toList
  else
    match session.findProgram name with
    | .ok path => say (Text.toOctets path) (" is " ++ path).toList
    | .error _ =>
      if isLong then
        modify (·.write 1 (name ++ ": not found\n".toList))
      setStatus (if session.dialect = .bash then 1 else 127)

mutual

/-- Expand a piece of a word. -/
def expandPiece : (fuel : Nat) → Piece → Run (List Bit)
  | 0, _ => return []
  | _ + 1, .plain text => return (marks false text).map .mark
  | _ + 1, .quoted text => return Bit.quoted text
  | fuel + 1, .output body isQuoted => do
    let text ← capture fuel body
    return Bit.result isQuoted text
  | fuel + 1, .arithmetic expression isQuoted => do
    let text ← expandText fuel expression
    let session ← get
    match Arithmetic.evaluate (fun name => (session.parameter? name).getD []) text with
    | .ok (value, name?) =>
      let digits := (toString value.toInt).toList
      if let some name := name? then set (session.assign name digits)
      return Bit.result isQuoted digits
    | .error fault =>
      complain (arithmeticMessage session.dialect text fault)
        (if session.dialect = .bash then 1 else 2)
      throw .exit
  | fuel + 1, .variable name form isQuoted => expandVariable fuel name isQuoted form

/-- Expand a variable in the form that is asked for. -/
def expandVariable (fuel : Nat) (name : List Char) (isQuoted : Bool) : Form → Run (List Bit) :=
  match fuel with
  | 0 => fun _ => return []
  | fuel + 1 => fun form => do
    let session ← get
    let value? := session.parameter? name
    let isAll := name = ['@'] || name = ['*']
    let present : List Bit :=
      if isAll then argumentBits isQuoted (name = ['*']) session
      else Bit.result isQuoted (value?.getD [])
    let isSet (orEmpty : Bool) : Bool :=
      match value? with
      | some value => !(orEmpty && value.isEmpty)
      | none => false
    let expandWord (word : Word) : Run (List Bit) := do
      let bits ← expand fuel word
      return if isQuoted then bits else bits.map Bit.soften
    match form with
    | .value =>
      if session.unsetIsError && value?.isNone && !isAll then
        noSuchParameter name (match session.dialect with
          | .standard => "parameter not set".toList
          | .bash => "unbound variable".toList)
      return present
    | .length =>
      return Bit.result isQuoted (toString (value?.getD []).length).toList
    | .fallback orEmpty word => if isSet orEmpty then return present else expandWord word
    | .alternative orEmpty word =>
      if isSet orEmpty then expandWord word else return Bit.result isQuoted []
    | .assign orEmpty word =>
      if isSet orEmpty then return present
      else
        let text ← expandText fuel word
        modify (·.assign name text)
        return Bit.result isQuoted text
    | .demand orEmpty word =>
      if isSet orEmpty then return present
      else
        let text ← expandText fuel word
        noSuchParameter name
          (if text.isEmpty then demandMessage session.dialect orEmpty else text)
        return []
    | .trimFront longest pattern =>
      let pattern ← expandMarks fuel pattern
      return Bit.result isQuoted (trimFrontBy longest pattern (value?.getD []))
    | .trimBack longest pattern =>
      let pattern ← expandMarks fuel pattern
      return Bit.result isQuoted (trimBackBy longest pattern (value?.getD []))

def expand : (fuel : Nat) → Word → Run (List Bit)
  | 0, _ => return []
  | _ + 1, [] => return []
  | fuel + 1, piece :: pieces => do
    let bits ← expandPiece fuel piece
    return bits ++ (← expand fuel pieces)

/-- Expand a word whose leading tilde stands for the home directory. -/
def expandWord : (fuel : Nat) → Word → Run (List Bit)
  | 0, _ => return []
  | fuel + 1, word => do
    match word with
    | .plain ('~' :: text) :: pieces =>
      let session ← get
      match session.valueOf? "HOME".toList with
      | some home =>
        if text.head? = some '/' || (text.isEmpty && pieces.isEmpty) then
          return Bit.quoted home ++ (← expand fuel (.plain text :: pieces))
        else expand fuel word
      | none => expand fuel word
    | word => expand fuel word

/-- Expand a word that is not split. -/
def expandMarks : (fuel : Nat) → Word → Run (List Mark)
  | 0, _ => return []
  | fuel + 1, word => return Bit.joined (← expandWord fuel word)

def expandText : (fuel : Nat) → Word → Run (List Char)
  | 0, _ => return []
  | fuel + 1, word => return unmark (← expandMarks fuel word)

/-- Expand words into the fields that come out of them. -/
def expandFields : (fuel : Nat) → List Word → Run (List (List Char))
  | 0, _ => return []
  | _ + 1, [] => return []
  | fuel + 1, word :: words => do
    let bits ← expandWord fuel word
    let session ← get
    let found := (fields session.separators bits).flatMap session.pathsOf
    return found ++ (← expandFields fuel words)

/-- The output of commands, without the ends of lines behind it. -/
def capture : (fuel : Nat) → List Command → Run (List Char)
  | 0, _ => return []
  | fuel + 1, body => do
    let outer := (← get).inCondition
    modify ({ · with inCondition := false })
    let text ← afterwards ({ · with inCondition := outer })
      (collecting (inSubshell (runAll fuel body)))
    modify fun session => { session with captured := some session.status }
    return (text.reverse.dropWhile (· == '\n')).reverse

def runAll : (fuel : Nat) → List Command → Run Unit
  | 0, _ => return
  | _ + 1, [] => return
  | fuel + 1, command :: commands => do
    runCommand fuel command
    runAll fuel commands

def runCommand : (fuel : Nat) → Command → Run Unit
  | 0, _ => return
  | fuel + 1, .simple line assignments words => do
    modify ({ · with line, captured := none })
    let fields ← expandFields fuel words
    runSimple fuel assignments fields
    checkFailure
  | fuel + 1, .group body => runAll fuel body
  | fuel + 1, .subshell body => do
    inSubshell (runAll fuel body)
    checkFailure
  | fuel + 1, .branch arms otherwise => runArms fuel otherwise arms
  | fuel + 1, .loop untilTrue condition body => do
    runWhile fuel untilTrue condition body 0
  | fuel + 1, .each name words body => do
    let fields ← match words with
      | some words => expandFields fuel words
      | none => pure (← get).arguments
    setStatus 0
    runEach fuel name body fields
  | fuel + 1, .select word arms => do
    let text ← expandText fuel word
    runSelection fuel text arms
  | _ + 1, .define name body =>
    modify fun session =>
      { session with functions := (name, body) :: session.functions.filter (·.1 != name),
                     status := 0 }
  | fuel + 1, .redirected inner redirects => do
    let outer ← get
    let isPermanent := match inner with
      | .simple _ [] [[.plain ['e', 'x', 'e', 'c']]] => true
      | _ => false
    let readsElsewhere := redirects.any fun redirect => match redirect with
      | .input _ => true
      | .text _ => true
      | _ => false
    let undo (session : Session) : Session :=
      { session with sinks := outer.sinks,
                     input := if readsElsewhere then outer.input else session.input }
    if ← applyRedirects fuel redirects then
      if isPermanent then setStatus 0 else afterwards undo (runCommand fuel inner)
    else
      modify undo
      checkFailure
  | fuel + 1, .pipeline negated stages => do
    let input := (← get).input
    if negated then
      asCondition (runStages fuel stages)
      modify fun session => { session with status := if session.status = 0 then 1 else 0, input }
    else
      runStages fuel stages
      modify ({ · with input })
      checkFailure
  | fuel + 1, .chain ifSuccess first second => do
    asCondition (runCommand fuel first)
    if ((← get).status == 0) == ifSuccess then runCommand fuel second

/-- Run the stages of a pipeline, each on the output of the one before. -/
def runStages : (fuel : Nat) → List Command → Run Unit
  | 0, _ => return
  | _ + 1, [] => return
  | fuel + 1, [last] => inSubshell (runCommand fuel last)
  | fuel + 1, stage :: stages => do
    let text ← collecting (inSubshell (runCommand fuel stage))
    modify ({ · with input := text })
    runStages fuel stages

def runArms (fuel : Nat) (otherwise : List Command) :
    List (List Command × List Command) → Run Unit :=
  match fuel with
  | 0 => fun _ => return
  | fuel + 1 => fun arms => do
    match arms with
    | [] => setStatus 0; runAll fuel otherwise
    | (condition, body) :: arms =>
      asCondition (runAll fuel condition)
      if (← get).status = 0 then runAll fuel body else runArms fuel otherwise arms

def runWhile (fuel : Nat) (untilTrue : Bool) (condition body : List Command) (last : Nat) :
    Run Unit :=
  match fuel with
  | 0 => return
  | fuel + 1 => do
    let goesOn ← loopBody (asCondition (runAll fuel condition))
    if !goesOn then setStatus 0
    else if ((← get).status == 0) == untilTrue then setStatus last
    else
      let goesOn ← loopBody (runAll fuel body)
      if goesOn then runWhile fuel untilTrue condition body (← get).status

def runEach (fuel : Nat) (name : List Char) (body : List Command) : List (List Char) → Run Unit :=
  match fuel with
  | 0 => fun _ => return
  | fuel + 1 => fun fields => do
    match fields with
    | [] => return
    | value :: fields =>
      modify (·.assign name value)
      let goesOn ← loopBody (runAll fuel body)
      if goesOn then runEach fuel name body fields

def runSelection (fuel : Nat) (text : List Char) : List (List Word × List Command) → Run Unit :=
  match fuel with
  | 0 => fun _ => return
  | fuel + 1 => fun arms => do
    match arms with
    | [] => setStatus 0
    | (patterns, body) :: arms =>
      if ← matchesSome fuel text patterns then
        setStatus 0
        runAll fuel body
      else runSelection fuel text arms

def matchesSome (fuel : Nat) (text : List Char) : List Word → Run Bool :=
  match fuel with
  | 0 => fun _ => return false
  | fuel + 1 => fun patterns => do
    match patterns with
    | [] => return false
    | pattern :: patterns =>
      if matchesPattern (← expandMarks fuel pattern) text then return true
      else matchesSome fuel text patterns

/-- Redirect descriptors and the input; the answer tells whether all went well. -/
def applyRedirects : (fuel : Nat) → List Redirect → Run Bool
  | 0, _ => return true
  | _ + 1, [] => return true
  | fuel + 1, redirect :: redirects => do
    if ← applyRedirect fuel redirect then applyRedirects fuel redirects else return false

def applyRedirect : (fuel : Nat) → Redirect → Run Bool
  | 0, _ => return true
  | fuel + 1, .text body => do
    let text ← expandText fuel body
    modify ({ · with input := text })
    return true
  | fuel + 1, .input target => do
    let target ← expandText fuel target
    let session ← get
    if target = "/dev/null".toList then
      set { session with input := [] }
      return true
    match session.files.read (session.path target) with
    | .ok content =>
      set { session with input := Text.toOctets content }
      return true
    | .error fault =>
      match session.dialect with
      | .standard =>
        let reason := if fault = .noEntry then "No such file" else fault.reason
        complain ("cannot open ".toList ++ target ++ (": " ++ reason).toList) 2
      | .bash => complain (target ++ (": " ++ fault.reason).toList) 1
      return false
  | fuel + 1, .copy descriptor source => do
    let source ← expandText fuel source
    let session ← get
    match Utility.natOf? source with
    | some number => set (session.redirect descriptor ((session.sinks.lookup number).getD .nothing))
    | none => set (session.redirect descriptor .nothing)
    return true
  | fuel + 1, .output descriptor append target => do
    let target ← expandText fuel target
    let session ← get
    let standard (number : Nat) : Sink := (session.sinks.lookup number).getD .nothing
    let special? : Option Sink := match String.ofList target with
      | "/dev/null" => some .nothing
      | "/dev/stdout" => some (standard 1)
      | "/dev/stderr" => some (standard 2)
      | _ => none
    match special?, session.openFile append target with
    | some sink, _ =>
      set (session.redirect descriptor sink)
      return true
    | none, .ok (session, place) =>
      set (session.redirect descriptor (.file place))
      return true
    | none, .error fault =>
      match session.dialect with
      | .standard =>
        let reason := if fault = .noEntry then "Directory nonexistent" else fault.reason
        complain ("cannot create ".toList ++ target ++ (": " ++ reason).toList) 2
      | .bash => complain (target ++ (": " ++ fault.reason).toList) 1
      return false

/-- Run a command whose words are expanded. -/
def runSimple : (fuel : Nat) → List (List Char × Word) → List (List Char) → Run Unit
  | 0, _, _ => return
  | fuel + 1, assignments, fields => do
    match fields with
    | [] =>
      assign fuel false assignments
      modify fun session => { session with status := session.captured.getD 0 }
    | name :: arguments =>
      if assignments.isEmpty then call fuel true name arguments
      else if Builtin.isSpecial (String.ofList name) then
        assign fuel false assignments
        call fuel true name arguments
      else
        let before := (← get).remember (assignments.map (·.1))
        assign fuel true assignments
        afterwards (·.restore before) (call fuel true name arguments)

def assign (fuel : Nat) (isExported : Bool) : List (List Char × Word) → Run Unit :=
  match fuel with
  | 0 => fun _ => return
  | fuel + 1 => fun assignments => do
    match assignments with
    | [] => return
    | (name, word) :: assignments =>
      let text ← expandText fuel word
      modify fun session =>
        let session := session.assign name text
        if isExported then session.setExported name else session
      assign fuel isExported assignments

/-- Call a function, a built-in command or a program. -/
def call (fuel : Nat) (withFunctions : Bool) (name : List Char) (arguments : List (List Char)) :
    Run Unit :=
  match fuel with
  | 0 => return
  | fuel + 1 => do
    let session ← get
    let function? := if withFunctions then session.functions.lookup name else none
    match function?, String.ofList name, arguments with
    | some body, _, _ => callFunction fuel body arguments
    | none, "eval", _ => runText fuel ([' '].intercalate arguments)
    | none, ".", _ => runSource fuel arguments
    | none, "source", _ => runSource fuel arguments
    | none, "exec", [] => setStatus 0
    | none, "exec", name :: arguments =>
      match session.findProgram name, session.dialect with
      | .error .noEntry, .standard => complain ("exec: ".toList ++ name ++ ": not found".toList) 127
      | _, _ => callProgram fuel name arguments
      throw .exit
    | none, "command", ['-', 'v'] :: names => describe (names.headD []) false
    | none, "command", ['-', 'p'] :: name :: arguments => call fuel false name arguments
    | none, "command", name :: arguments => call fuel false name arguments
    | none, "builtin", name :: arguments => call fuel false name arguments
    | none, "type", names => for name in names do describe name true
    | none, text, _ =>
      match Builtin.run? text arguments with
      | some action => action
      | none => callProgram fuel name arguments

/-- Run the body of a function with arguments of its own. -/
def callFunction : (fuel : Nat) → Command → List (List Char) → Run Unit
  | 0, _, _ => return
  | fuel + 1, body, arguments => do
    let outer ← get
    set { outer with arguments, shadowed := [] }
    let undo (session : Session) : Session :=
      { session.restore session.shadowed with
        arguments := outer.arguments, shadowed := outer.shadowed }
    let result ← observe (afterwards undo (runCommand fuel body))
    match result with
    | .ok () => return
    | .error .leave => return
    | .error flow => throw flow

/-- Run the file that a script includes. -/
def runSource : (fuel : Nat) → List (List Char) → Run Unit
  | 0, _ => return
  | fuel + 1, arguments => do
    let name := arguments.headD []
    let session ← get
    let path := match name.contains '/', session.findProgram name with
      | false, .ok path => path
      | _, _ => session.path name
    match session.files.read path with
    | .ok content =>
      let result ← observe (runText fuel (Text.toOctets content))
      match result with
      | .error .leave => return
      | .error flow => throw flow
      | .ok () => return
    | .error fault =>
      match session.dialect with
      | .standard => complain (".: cannot open ".toList ++ name ++ ": No such file".toList) 2; throw .exit
      | .bash => complain (name ++ (": " ++ fault.reason).toList) 1

/-- Run a script, line by line, up to a line that is none. -/
def runText : (fuel : Nat) → List Char → Run Unit
  | 0, _ => return
  | fuel + 1, text => do
    let (lines, fault?) := read text
    if lines.flatten.isEmpty then setStatus 0
    runAll fuel lines.flatten
    match fault? with
    | none => return
    | some (fault, line) =>
      modify ({ · with line })
      complain fault.message 2
      throw .exit

/-- Call a program and wait for its end. -/
def callProgram : (fuel : Nat) → List Char → List (List Char) → Run Unit
  | 0, _, _ => return
  | fuel + 1, name, arguments => do
    let session ← get
    match session.findProgram name with
    | .error fault => refuse name fault
    | .ok path =>
      match ← runProgram fuel name path arguments with
      | .ok exit =>
        modify fun session => exit.mourn { session with status := exit.status }
      | .error fault => refuse name fault

/-- Run the program at a path, in a process of its own. -/
def runProgram : (fuel : Nat) → (name : List Char) → (path : String) → List (List Char) →
    Run (Except OsFault Exit)
  | 0, _, _, _ => return .error .tooManyLinks
  | fuel + 1, name, path, arguments => do
    let session ← get
    let calledPath := if name.contains '/' then name else Text.toOctets path
    match session.files.status path with
    | .error fault => return .error fault
    | .ok .utility =>
      match Path.fileName path with
      | "sh" => return .ok (← runShell fuel .standard name arguments)
      | "dash" => return .ok (← runShell fuel .standard name arguments)
      | "bash" => return .ok (← runShell fuel .bash name arguments)
      | "env" => return .ok (← runInEnvironment fuel arguments)
      | utilityName => return .ok (← utility utilityName arguments)
    | .ok (.file content true) =>
      match interpreterLine? (Text.toOctets content) with
      | none => return .ok (← runShell fuel .standard "sh".toList (calledPath :: arguments))
      | some (program, options) =>
        match session.files.status (session.path program) with
        | .error fault => return .error fault
        | .ok _ =>
          runProgram fuel program (session.path program)
            (options ++ calledPath :: arguments)
    | .ok _ => return .error .permissionDenied

/-- Run a program with variables on top of those that are set. -/
def runInEnvironment : (fuel : Nat) → List (List Char) → Run Exit
  | 0, _ => return .code 1
  | fuel + 1, arguments => do
    let isFresh := arguments.head? = some ['-', 'i'] || arguments.head? = some ['-']
    let arguments := if isFresh then arguments.drop 1 else arguments
    let (unset, arguments) := match arguments with
      | ['-', 'u'] :: name :: arguments => ([name], arguments)
      | arguments => ([], arguments)
    let settings := arguments.takeWhile (·.contains '=')
    let before := (← get).bindings
    if isFresh then modify ({ · with bindings := [] })
    modify fun session => unset.foldl Session.unset session
    for setting in settings do
      let name := setting.takeWhile (· != '=')
      modify fun session =>
        (session.assign name (setting.drop (name.length + 1))).setExported name
    let session ← get
    let exit ← match arguments.drop settings.length with
      | [] =>
        modify (·.write 1 (Utility.unlines (session.environment.map fun (name, value) =>
          name ++ '=' :: value)))
        pure (Exit.code 0)
      | name :: arguments =>
        let refuse (fault : OsFault) : Run Exit := do
          modify (·.write 2 ("env: '".toList ++ name ++ ("': " ++ fault.reason ++ "\n").toList))
          return .code (if fault = .noEntry then 127 else 126)
        match session.findProgram name with
        | .error fault => refuse fault
        | .ok path =>
          match ← runProgram fuel name path arguments with
          | .ok exit => pure exit
          | .error fault => refuse fault
    modify ({ · with bindings := before })
    return exit

/-- Run a shell in a process of its own. -/
def runShell : (fuel : Nat) → Dialect → (name : List Char) → List (List Char) → Run Exit
  | 0, _, _, _ => return .code 2
  | fuel + 1, dialect, name, arguments => do
    let outer ← get
    set (outer.forShell dialect name)
    let result ← observe (runShellScript fuel .file arguments)
    let result ← match result, (← get).onExit with
      | .error (.killed signal), _ => pure (.error (.killed signal))
      | result, none => pure result
      | _, some text =>
        let status := (← get).status
        let result ← observe (runText fuel text)
        if result.isOk then setStatus status
        pure result
    let inner ← get
    set { inherit outer inner with status := outer.status }
    match result with
    | .error (.killed signal) => return .signal signal
    | _ => return .code inner.status

/-- Read the options of a shell and run its script. -/
def runShellScript (fuel : Nat) (origin : Origin) : List (List Char) → Run Unit :=
  match fuel with
  | 0 => fun _ => return
  | fuel + 1 => fun arguments => do
    match arguments with
    | ['-', '-'] :: operands => runOperands fuel origin operands
    | ['-'] :: operands => runOperands fuel origin operands
    | ['-', 'o'] :: name :: rest =>
      Builtin.switchNamed true name
      runShellScript fuel origin rest
    | ('-' :: options) :: rest =>
      match options.find? fun c => !"acefhilnuvxs".toList.contains c with
      | some c =>
        modify ({ · with line := 0 })
        complain ("Illegal option -".toList ++ [c]) 2
      | none =>
        Builtin.switch true options
        let origin := if options.contains 'c' then .operand
          else if options.contains 's' then .input else origin
        runShellScript fuel origin rest
    | operands => runOperands fuel origin operands

/-- Run the script that the operands of a shell name. -/
def runOperands : (fuel : Nat) → Origin → List (List Char) → Run Unit
  | 0, _, _ => return
  | fuel + 1, .input, arguments => do
    let session ← get
    set { session with input := [], arguments }
    runText fuel session.input
  | fuel + 1, .operand, operands => do
    match operands with
    | [] =>
      modify ({ · with line := 0 })
      complain "-c requires an argument".toList 2
    | [text] => runText fuel text
    | text :: name :: arguments =>
      modify ({ · with name, arguments })
      runText fuel text
  | fuel + 1, .file, operands => do
    let session ← get
    match operands with
    | [] => runOperands fuel .input []
    | file :: arguments =>
      match session.files.read (session.path file) with
      | .ok content =>
        set { session with name := file, arguments }
        runText fuel (Text.toOctets content)
      | .error fault =>
        match session.dialect with
        | .standard =>
          let reason := if fault = .noEntry then "No such file" else fault.reason
          set { session with line := 0 }
          complain ("cannot open ".toList ++ file ++ (": " ++ reason).toList) 2
        | .bash =>
          set { session.write 2 (session.name ++ ": ".toList ++ file ++
            (": " ++ fault.reason ++ "\n").toList) with status := 127 }

end

end Run
end TabSpec.Script

import TabSpec.Fault
import TabSpec.Script.Field
import TabSpec.Script.Utility

/-! Commands that change the state of the shell that runs them. -/
namespace TabSpec.Script.Builtin

private def assignmentOf (word : List Char) : List Char × Option (List Char) :=
  let name := word.takeWhile (· != '=')
  (name, (word.drop name.length).tail?)

private def countOr (default : Nat) (arguments : List (List Char)) : Nat :=
  ((arguments.head?.bind Utility.natOf?)).getD default

def exit (arguments : List (List Char)) : Run Unit := do
  modify fun session => { session with status := countOr session.status arguments % 256 }
  throw .exit

def leave (arguments : List (List Char)) : Run Unit := do
  modify fun session => { session with status := countOr session.status arguments % 256 }
  throw .leave

def changeDirectory (arguments : List (List Char)) : Run Unit := do
  let session ← get
  let arguments := arguments.filter fun word => word != ['-', '-'] && word != ['-', 'P'] &&
    word != ['-', 'L']
  let target := match arguments with
    | [] => (session.valueOf? "HOME".toList).getD []
    | ['-'] :: _ => (session.valueOf? "OLDPWD".toList).getD []
    | target :: _ => target
  match session.files.locate (session.path target) with
  | .ok place =>
    if session.files.kind? place = some .directory then
      let directory := "/" ++ String.intercalate "/" place
      let old := Text.toOctets session.directory
      let session := session.assign "OLDPWD".toList old
      let session := session.assign "PWD".toList (Text.toOctets directory)
      set { session with directory, status := 0 }
      if arguments.head? = some ['-'] then
        modify (·.write 1 (Text.toOctets directory ++ ['\n']))
    else refuse target " Not a directory"
  | .error _ => refuse target " No such file or directory"
where
  refuse (target : List Char) (reason : String) : Run Unit := do
    match (← get).dialect with
    | .standard => Run.complain ("cd: can't cd to ".toList ++ target) 2
    | .bash => Run.complain ("cd: ".toList ++ target ++ (":" ++ reason).toList) 1

/-- Assign variables and perhaps export them. -/
def assignAll (isExported : Bool) (arguments : List (List Char)) : Run Unit := do
  for word in arguments.filter (·.head? != some '-') do
    let (name, value?) := assignmentOf word
    modify fun session =>
      let session := match value? with
        | some value => session.assign name value
        | none => session
      if isExported then session.setExported name else session
  Run.setStatus 0

/-- Give variables values that they lose again when the running function ends. -/
def declare (arguments : List (List Char)) : Run Unit := do
  for word in arguments.filter (·.head? != some '-') do
    let (name, value?) := assignmentOf word
    modify fun session =>
      let session := { session with shadowed := session.remember [name] ++ session.shadowed }
      match value? with
      | some value => session.assign name value
      | none => session
  Run.setStatus 0

def unset (arguments : List (List Char)) : Run Unit := do
  let functions := arguments.contains ['-', 'f']
  for name in arguments.filter (·.head? != some '-') do
    modify fun session =>
      if functions then
        { session with functions := session.functions.filter (·.1 != name) }
      else session.unset name
  Run.setStatus 0

/-- Switch options on and off. -/
def switch (isOn : Bool) (options : List Char) : Run Unit :=
  modify fun session =>
    let session := if options.contains 'e' then { session with exitOnError := isOn } else session
    let session := if options.contains 'f' then { session with findsPaths := !isOn } else session
    if options.contains 'u' then { session with unsetIsError := isOn } else session

/-- Switch an option by its long name. -/
def switchNamed (isOn : Bool) (name : List Char) : Run Unit :=
  match String.ofList name with
  | "errexit" => switch isOn ['e']
  | "nounset" => switch isOn ['u']
  | _ => pure ()

/-- Read options and take the rest as arguments of the script. -/
def setOptions : List (List Char) → Run Unit
  | [] => pure ()
  | ['-', '-'] :: rest => modify ({ · with arguments := rest })
  | ['-', 'o'] :: name :: rest => do switchNamed true name; setOptions rest
  | ['+', 'o'] :: name :: rest => do switchNamed false name; setOptions rest
  | ('-' :: c :: options) :: rest => do
    switch true (c :: options)
    if (c :: options).getLast? = some 'o' then
      match rest with
      | name :: rest => switchNamed true name; setOptions rest
      | [] => pure ()
    else setOptions rest
  | ('+' :: c :: options) :: rest => do switch false (c :: options); setOptions rest
  | rest => modify ({ · with arguments := rest })

def shift (arguments : List (List Char)) : Run Unit := do
  let count := countOr 1 arguments
  let session ← get
  if count ≤ session.arguments.length then
    set { session with arguments := session.arguments.drop count, status := 0 }
  else
    match session.dialect with
    | .standard => Run.complain "shift: can't shift that many".toList 2; throw .exit
    | .bash => Run.setStatus 1

/-- Cut a line into at most `count` fields; the last one takes what is left. -/
private def lineFields (separators : List Char) : (count : Nat) → List Char → List (List Char)
  | 0, _ => []
  | 1, line =>
    let isEnd (c : Char) : Bool := separators.contains c && (c == ' ' || c == '\t')
    [((line.dropWhile isEnd).reverse.dropWhile isEnd).reverse]
  | count + 2, line =>
    let isBlank (c : Char) : Bool := separators.contains c && (c == ' ' || c == '\t')
    let line := line.dropWhile isBlank
    let field := line.takeWhile (!separators.contains ·)
    let after := (line.drop field.length).dropWhile isBlank
    let after := match line.drop field.length, after with
      | c :: _, d :: rest => if isBlank c && separators.contains d then rest
        else if isBlank c then d :: rest else rest
      | _, rest => rest
    field :: lineFields separators (count + 1) after

/-- Undo backslashes in a line that is read. -/
private def unslash : List Char → List Char
  | '\\' :: '\n' :: rest => unslash rest
  | '\\' :: c :: rest => c :: unslash rest
  | c :: rest => c :: unslash rest
  | [] => []

/-- Read a line of the input into variables. -/
def read (arguments : List (List Char)) : Run Unit := do
  let session ← get
  let raw := arguments.contains ['-', 'r']
  let names := arguments.filter (·.head? != some '-')
  let names := if names.isEmpty then ["REPLY".toList] else names
  let line := session.input.takeWhile (· != '\n')
  let complete := line.length < session.input.length
  let text := if raw then line else unslash line
  let values := lineFields session.separators names.length text
  let session := (names.zipIdx).foldl (fun session (name, index) =>
    session.assign name (values[index]?.getD [])) session
  set { session with input := session.input.drop (line.length + 1),
                     status := if complete then 0 else 1 }

/-- The signal that a number or a name stands for. -/
private def signalOf? (word : List Char) : Option Nat :=
  match Utility.natOf? word with
  | some number => some number
  | none =>
    let name := String.ofList word
    (signalNames.find? fun entry => entry.2 = name || entry.2 = "SIG" ++ name).map (·.1)

/-- Signals that a process ignores unless it says otherwise. -/
private def isHarmless (signal : Nat) : Bool := [0, 17, 18, 23, 28].contains signal

/-- Send a signal; the shell itself is the only process there is. -/
def kill (arguments : List (List Char)) : Run Unit := do
  let (signal?, processes) := match arguments with
    | ['-', 's'] :: name :: rest => (signalOf? name, rest)
    | ['-', '-'] :: rest => (some 15, rest)
    | ('-' :: name) :: rest => (signalOf? name, rest)
    | rest => (some 15, rest)
  let own := (toString (← get).process).toList
  match signal? with
  | none => Run.complain "kill: invalid signal".toList 1
  | some signal =>
    if processes.contains own then
      if isHarmless signal then Run.setStatus 0 else throw (.killed signal)
    else Run.complain "kill: No such process".toList 1

/-- Note what is to run when the shell ends; other signals are not awaited. -/
def trap (arguments : List (List Char)) : Run Unit := do
  let arguments := arguments.filter (· != ['-', '-'])
  match arguments with
  | text :: signals =>
    if signals.any fun signal => signal = ['0'] || signal = "EXIT".toList then
      modify fun session =>
        { session with onExit := if text.isEmpty || text = ['-'] then none else some text }
  | [] => return
  Run.setStatus 0

/-- Built-in commands that neither start programs nor run scripts. -/
def run? (name : String) (arguments : List (List Char)) : Option (Run Unit) :=
  match name with
  | "exit" => some (exit arguments)
  | "return" => some (leave arguments)
  | "break" => some do Run.setStatus 0; throw (.break (countOr 1 arguments))
  | "continue" => some do Run.setStatus 0; throw (.next (countOr 1 arguments))
  | "cd" => some (changeDirectory arguments)
  | "export" => some (assignAll true arguments)
  | "readonly" => some (assignAll false arguments)
  | "local" => some (declare arguments)
  | "declare" => some (declare arguments)
  | "typeset" => some (declare arguments)
  | "unset" => some (unset arguments)
  | "set" => some do setOptions arguments; Run.setStatus 0
  | "shift" => some (shift arguments)
  | "read" => some (read arguments)
  | "umask" => some do
    if arguments.isEmpty then modify (·.write 1 "0022\n".toList)
    Run.setStatus 0
  | "kill" => some (kill arguments)
  | "trap" => some (trap arguments)
  | _ => if idle.contains name then some (Run.setStatus 0)
    else if plain.contains name then some (answer name)
    else none
where
  idle : List String := ["wait", "alias", "unalias", "hash", "times", "ulimit"]
  plain : List String := ["true", "false", ":", "echo", "printf", "test", "[", "pwd"]
  answer (name : String) : Run Unit := do
    let session ← get
    match Utility.run? name session arguments with
    | some result =>
      set { (session.write 1 result.output).write 2 result.errors with status := result.status }
    | none => Run.setStatus 0

/-- Names of all built-in commands. -/
def names : List String :=
  ["exit", "return", "break", "continue", "cd", "export", "readonly", "local", "unset", "set",
   "shift", "read", "kill", "trap", "wait", "umask", "alias", "unalias", "hash", "times", "ulimit",
   "true", "false", ":", "echo", "printf", "test", "[", "pwd", "eval", "exec", ".", "command",
   "type"]

/-- Commands whose assignments stay. -/
def isSpecial (name : String) : Bool :=
  ["exit", "return", "break", "continue", "export", "readonly", "unset", "set", "shift", ":",
   "eval", "exec", ".", "trap", "times"].contains name

end TabSpec.Script.Builtin

import TabSpec.Text.Integer
import TabSpec.Text.Quoted

/-! What can go wrong with a specification, as causes; the wording of each cause is its message. -/
namespace TabSpec

/-- Refusals of the operating system. -/
inductive OsFault
  | noEntry
  | permissionDenied
  | notDirectory
  | isDirectory
  | tooManyLinks
  | nulCharacter
deriving Repr, DecidableEq

/-- The message without the number of the refusal. -/
def OsFault.reason : OsFault → String
  | .noEntry => "No such file or directory"
  | .permissionDenied => "Permission denied"
  | .notDirectory => "Not a directory"
  | .isDirectory => "Is a directory"
  | .tooManyLinks => "Too many levels of symbolic links"
  | .nulCharacter => "nul byte found in provided data"

/-- The number by which the operating system knows a refusal. -/
def OsFault.number? : OsFault → Option Nat
  | .noEntry => some 2
  | .permissionDenied => some 13
  | .notDirectory => some 20
  | .isDirectory => some 21
  | .tooManyLinks => some 40
  | .nulCharacter => none

def OsFault.message (fault : OsFault) : String :=
  match fault.number? with
  | some number => fault.reason ++ " (os error " ++ toString number ++ ")"
  | none => fault.reason

/-- Why the text of an argument does not have the declared shape. -/
inductive ArgumentFault
  | notDecodable
  | missingPath
  | unknownTarget
  | negativeOffset
deriving Repr, DecidableEq

def ArgumentFault.message : ArgumentFault → String
  | .notDecodable => "not a YAML value of this shape"
  | .missingPath => "missing path"
  | .unknownTarget => "expected [path] or [path, offset]"
  | .negativeOffset => "offset must not be negative"

/-- Why a text is no flag identifier, or may not stand where it does. -/
inductive FlagFault
  | grammar
  | arity (fault : Text.IntegerFault)
  | nameless
  | unknownMember
deriving Repr, DecidableEq

def FlagFault.message : FlagFault → String
  | .grammar => "does not match flag grammar"
  | .arity fault => "invalid nargs: " ++ fault.message
  | .nameless => "neither shorthand nor longhand"
  | .unknownMember => "exclusive group references an unknown flag"

/-- Why a flag set refuses a flag. -/
inductive BindingFault
  | longShorthand (shorthand : String)
  | shorthandOnly (shorthand : String)
  | arity (name : String)
  | redefined (name : String)
deriving Repr, DecidableEq

def BindingFault.message : BindingFault → String
  | .longShorthand shorthand =>
    "long shorthand only supported with an extended flag set: " ++ shorthand
  | .shorthandOnly shorthand =>
    "shorthand-only only supported with an extended flag set: " ++ shorthand
  | .arity name => "nargs only supported with an extended flag set: " ++ name
  | .redefined name => "flag redefined: " ++ name

/-- Why a text is no script with an interpreter line. -/
inductive ShebangFault
  | missingHeader
  | invalidHeader
  | invalidArguments (text : String)
deriving Repr, DecidableEq

def ShebangFault.message : ShebangFault → String
  | .missingHeader => "missing shebang header"
  | .invalidHeader => "invalid shebang header"
  | .invalidArguments text => "invalid shebang arguments: " ++ text

/-- Why a text is no run field. -/
inductive RunFault
  | emptyAlias
  | malformedAlias
  | unknownForm (text : String)
  | invalidModifier (text : String)
deriving Repr, DecidableEq

def RunFault.message : RunFault → String
  | .emptyAlias => "empty alias"
  | .malformedAlias => "malformed alias: not a YAML list of strings"
  | .unknownForm text => Text.quoted text
  | .invalidModifier text => "invalid modifier: " ++ Text.quoted text

/-- Why a command line cannot be run, or a directory cannot be found. -/
inductive UsageFault
  | missingArgument (flag : String)
  | unknownFlag (token : String)
  | missingFlags (names : List String)
  | exclusiveFlags (group set : List String)
  | notRunnable (command : String)
  | broken (message : String)
  | noParent (levels : Nat) (directory : String)
  | noParentContaining (names : List String)
  | unknownHome
  | unknownCache
  | unknownConfiguration
deriving Repr, DecidableEq

def UsageFault.message : UsageFault → String
  | .missingArgument flag => "flag needs an argument: " ++ flag
  | .unknownFlag token => "unknown flag: " ++ token
  | .missingFlags names =>
    "required flag(s) " ++ String.intercalate ", " (names.map Text.quoted) ++ " not set"
  | .exclusiveFlags group set =>
    "if any flags in the group [" ++ String.intercalate " " group ++
      "] are set none of the others can be; [" ++ String.intercalate " " set ++ "] were all set"
  | .notRunnable command => "command " ++ Text.quoted command ++ " is not runnable"
  | .broken message => message
  | .noParent levels directory =>
    "no parent directory " ++ toString levels ++ " levels above " ++ directory
  | .noParentContaining names =>
    "no parent directory containing any of " ++ Text.quotedList names
  | .unknownHome => "unknown user home dir"
  | .unknownCache => "unknown user cache dir"
  | .unknownConfiguration => "unknown user config dir"

/-- Why a specification file cannot be loaded. -/
inductive LoadFault
  | os (fault : OsFault)
  | malformed
deriving Repr, DecidableEq

def LoadFault.message : LoadFault → String
  | .os fault => fault.message
  | .malformed => "not a YAML command specification"

/-- How a program failed. -/
inductive ProcessFault
  | os (fault : OsFault)
  | exited (code : Nat)
  | killed (signal : Nat)
deriving Repr, DecidableEq

/-- Names of the signals that end a process. -/
def signalNames : List (Nat × String) :=
  [(1, "SIGHUP"), (2, "SIGINT"), (3, "SIGQUIT"), (4, "SIGILL"), (5, "SIGTRAP"), (6, "SIGABRT"),
   (7, "SIGBUS"), (8, "SIGFPE"), (9, "SIGKILL"), (10, "SIGUSR1"), (11, "SIGSEGV"),
   (12, "SIGUSR2"), (13, "SIGPIPE"), (14, "SIGALRM"), (15, "SIGTERM"), (16, "SIGSTKFLT"),
   (17, "SIGCHLD"), (18, "SIGCONT"), (19, "SIGSTOP"), (20, "SIGTSTP"), (21, "SIGTTIN"),
   (22, "SIGTTOU"), (23, "SIGURG"), (24, "SIGXCPU"), (25, "SIGXFSZ"), (26, "SIGVTALRM"),
   (27, "SIGPROF"), (28, "SIGWINCH"), (29, "SIGIO"), (30, "SIGPWR"), (31, "SIGSYS")]

def ProcessFault.message : ProcessFault → String
  | .os fault => fault.message
  | .exited code => "exit status: " ++ toString code
  | .killed signal =>
    "signal: " ++ toString signal ++
      match signalNames.lookup signal with
      | some name => " (" ++ name ++ ")"
      | none => ""

/-- What can go wrong with a specification. -/
inductive SpecFault
  | malformedCall (call : String)
  | unknownMacro (call : String)
  | argument (text expected : String) (fault : ArgumentFault)
  | flag (identifier : String) (fault : FlagFault)
  | binding (fault : BindingFault)
  | shebang (fault : ShebangFault)
  | process (command : String) (fault : ProcessFault)
  | run (fault : RunFault)
  | parsingMode (text : String)
  | substitution (text : String)
  | usage (fault : UsageFault)
  | load (path : String) (fault : LoadFault)
  /-- A text that is no specification at all. -/
  | document
  /-- A text that is no exported completion. -/
  | export (line column : Nat)
deriving Repr, DecidableEq

def SpecFault.message : SpecFault → String
  | .malformedCall call => "malformed macro: " ++ Text.quoted call
  | .unknownMacro call => "unknown macro: " ++ Text.quoted call
  | .argument text expected fault =>
    "malformed macro arg: '" ++ text ++ "', expected '" ++ expected ++ "': " ++ fault.message
  | .flag identifier fault => "flag syntax invalid: " ++ identifier ++ ": " ++ fault.message
  | .binding fault => fault.message
  | .shebang fault => fault.message
  | .process command fault => "failed to execute " ++ command ++ ": " ++ fault.message
  | .run fault => "invalid run field: " ++ fault.message
  | .parsingMode text => "unknown parsing mode: " ++ Text.quoted text
  | .substitution text => "bad substitution: " ++ Text.quoted text
  | .usage fault => fault.message
  | .load path fault => "failed to load " ++ path ++ ": " ++ fault.message
  | .document => LoadFault.malformed.message
  | .export line column =>
    "not an exported completion at line " ++ toString line ++ " column " ++ toString column

end TabSpec

import TabSpec.Flag.Set
import TabSpec.Log

/-! Settings of the program, read from environment variables. -/
namespace TabSpec

structure Configuration where
  log : Log.Settings
  /-- What flag sets may express. -/
  capabilities : Capabilities
  /-- The name under which calls reach the program's own macros. -/
  program : String
deriving Repr, DecidableEq, Inhabited

namespace Configuration

def logVariable : String := "COMPSPEC_LOG"

def logFileVariable : String := "COMPSPEC_LOG_FILE"

def logFormatVariable : String := "COMPSPEC_LOG_FORMAT"

def posixFlagsVariable : String := "COMPSPEC_POSIX_FLAGS"

/-- Set the level from which on records are written. -/
def withLevel (configuration : Configuration) (level : Log.Level) : Configuration :=
  { configuration with log := { configuration.log with enabled := true, least := level } }

/-- Read the settings. Nothing is recorded unless a level is named. -/
def ofVariables (program : String) (bindings : OrderedMap String) : Configuration :=
  let level := (bindings.get? logVariable).bind Log.Level.parse
  let posix := ["1", "true", "yes"].contains ((bindings.get? posixFlagsVariable).getD "")
  { log := {
      enabled := level.isSome
      json := ((bindings.get? logFormatVariable).map String.toLower) != some "text"
      file := (bindings.get? logFileVariable).filter (· != "")
      least := level.getD .warn }
    capabilities := if posix then .posix else .extended
    program }

end Configuration
end TabSpec

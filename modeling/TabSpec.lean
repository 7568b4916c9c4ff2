import TabSpec.Main
import TabSpec.Script.Interpreter
import TabSpec.Script.Builtin
import TabSpec.Script.Field
import TabSpec.CommandLine.Serve
import TabSpec.CoreMacros
import TabSpec.Command.Assembly
import TabSpec.Spec.Source
import TabSpec.Spec.Reading
import TabSpec.RunField
import TabSpec.Shebang
import TabSpec.Shell
import TabSpec.Expression
import TabSpec.Registry
import TabSpec.Modifier
import TabSpec.Traversal
import TabSpec.Argument
import TabSpec.Action.Adjust
import TabSpec.Action.Files
import TabSpec.Action.Process
import TabSpec.Regex.Reader
import TabSpec.Action.Words
import TabSpec.Action.Basic
import TabSpec.Text.ShellWords
import TabSpec.Context
import TabSpec.Machine.Basic
import TabSpec.Configuration
import TabSpec.Traced
import TabSpec.Log
import TabSpec.Script.Utility
import TabSpec.Script.Pattern
import TabSpec.Script.Arithmetic
import TabSpec.Script.Reader
import TabSpec.Machine.Files
import TabSpec.Call
import TabSpec.Completion.Export
import TabSpec.Substitution
import TabSpec.Flag.Identifier
import TabSpec.Flag.Set
import TabSpec.Fault
import TabSpec.Yaml.Document
import TabSpec.Yaml.Reading
import TabSpec.Json.Reader
import TabSpec.Json.Writer
import TabSpec.Binary64
import TabSpec.Text.Integer
import TabSpec.Text.Octets
import TabSpec.OrderedMap
import TabSpec.Text.Blank
import TabSpec.Text.Cut
import TabSpec.Text.Digit
import TabSpec.Text.Quoted
import TabSpec.Text.Upper
import TabSpec.Proofs.Walk.Incremental
import TabSpec.Proofs.Walk.Rendering
import TabSpec.Proofs.Walk.Target
import TabSpec.Proofs.Expression.Siblings
import TabSpec.Proofs.Command.Assembly
import TabSpec.Proofs.Action.Stable
import TabSpec.Proofs.Command.Offered
import TabSpec.Proofs.Expression.Normal
import TabSpec.Proofs.Command.Accepted
import TabSpec.Proofs.Command.WellFormed
import TabSpec.Proofs.Walk.Frame
import TabSpec.Proofs.Command.PassThrough
import TabSpec.Proofs.Command.Nested
import TabSpec.Proofs.Substitution
import TabSpec.Proofs.Walk.ReadBack
import TabSpec.Proofs.Expression.Suffix
import TabSpec.Proofs.Expression.Refused
import TabSpec.Proofs.Flag.Spelling
import TabSpec.Proofs.Run.Source
import TabSpec.Proofs.Command.Delegation
import TabSpec.Proofs.Command.Invocation
import TabSpec.Proofs.Command.Termination
import TabSpec.Proofs.Action.Sound
import TabSpec.Proofs.Completion.Export
import TabSpec.Proofs.Completion.Merge
import TabSpec.Proofs.Command.FlagNames
import TabSpec.Proofs.Expression.ExportedParts
import TabSpec.Proofs.Command.Mode
import TabSpec.Proofs.Action.Stepwise
import TabSpec.Proofs.Action.Placed
import TabSpec.Proofs.Action.Entries
import TabSpec.Proofs.Run.Directory
import TabSpec.Proofs.Walk.Chain
import TabSpec.Proofs.Walk.Waiting
import TabSpec.Proofs.Call
import TabSpec.Proofs.Expression.Interleaving
import TabSpec.Proofs.Substitution.Segments
import TabSpec.Proofs.Flag.Grammar
import TabSpec.Proofs.Action.LastCommand
import TabSpec.Proofs.Expression.OwnCalls
import TabSpec.Proofs.Command.Isolation
import TabSpec.Proofs.SpecTarget
import TabSpec.Proofs.Action.Kept
import TabSpec.Proofs.Command.Broken
import TabSpec.Proofs.Walk.OutOfTokens
import TabSpec.Proofs.Action.Restart
import TabSpec.Proofs.Expression.Literal

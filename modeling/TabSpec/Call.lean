import TabSpec.Fault

/-! Calls of macros and modifiers: a dollar, a name and an argument between parentheses. -/
namespace TabSpec

structure Call where
  name : List Char
  argument : List Char
deriving Repr, DecidableEq

namespace Call

/-- Read a call. An argument ends with the last parenthesis and stays on one line. -/
def ofChars? : List Char → Option Call
  | '$' :: text =>
    let name := text.takeWhile (· != '(')
    match text.dropWhile (· != '(') with
    | [] => some ⟨name, []⟩
    | _ :: body =>
      if body.getLast? = some ')' ∧ '\n' ∉ body then some ⟨name, body.dropLast⟩ else none
  | _ => none

/-- The name and the argument of a call. -/
def parse (call : String) : Except SpecFault (String × String) :=
  match ofChars? call.toList with
  | some parts => .ok (String.ofList parts.name, String.ofList parts.argument)
  | none => .error (.malformedCall call)

/-- What stands before the first parenthesis of a text. -/
def head (text : String) : String := String.ofList (text.toList.takeWhile (· != '('))

end Call
end TabSpec

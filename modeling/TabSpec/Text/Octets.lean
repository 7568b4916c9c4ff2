/-! Text as octets. A program writes octets, which need not be text; an octet is held as the
character with its number, and reading octets as text puts a replacement character for whatever is
no text. -/
namespace TabSpec.Text

/-- The octets of a text in UTF-8, each as the character with its number. -/
def toOctets (text : String) : List Char :=
  text.toList.flatMap fun c => (String.utf8EncodeChar c).map fun octet => Char.ofNat octet.toNat

/-- Octets still missing of a character, the bounds of the next one, and the value so far. -/
structure PartialChar where
  missing : Nat
  least : Nat
  greatest : Nat
  value : Nat
deriving Repr, DecidableEq

/-- What a first octet opens: a character, a character with more octets, or nothing. -/
inductive FirstOctet
  | char (c : Char)
  | opens (rest : PartialChar)
  | stray
deriving Repr, DecidableEq

def FirstOctet.of (n : Nat) : FirstOctet :=
  if n < 0x80 then .char (Char.ofNat n)
  else if 0xc2 ≤ n ∧ n ≤ 0xdf then .opens ⟨1, 0x80, 0xbf, n - 0xc0⟩
  else if n = 0xe0 then .opens ⟨2, 0xa0, 0xbf, 0⟩
  else if n = 0xed then .opens ⟨2, 0x80, 0x9f, 13⟩
  else if 0xe1 ≤ n ∧ n ≤ 0xef then .opens ⟨2, 0x80, 0xbf, n - 0xe0⟩
  else if n = 0xf0 then .opens ⟨3, 0x90, 0xbf, 0⟩
  else if 0xf1 ≤ n ∧ n ≤ 0xf3 then .opens ⟨3, 0x80, 0xbf, n - 0xf0⟩
  else if n = 0xf4 then .opens ⟨3, 0x80, 0x8f, 4⟩
  else .stray

/-- Stands for octets that are no text. -/
def replacement : Char := '\ufffd'

/-- Read octets; `none` in the result stands for a longest run that cannot be completed. -/
def readOctets : (pending : Option PartialChar) → List Char → List (Option Char)
  | none, [] => []
  | some _, [] => [none]
  | none, octet :: rest =>
    match FirstOctet.of octet.toNat with
    | .char c => some c :: readOctets none rest
    | .opens pending => readOctets (some pending) rest
    | .stray => none :: readOctets none rest
  | some pending, octet :: rest =>
    let n := octet.toNat
    if pending.least ≤ n ∧ n ≤ pending.greatest then
      let value := pending.value * 64 + (n - 0x80)
      if pending.missing ≤ 1 then some (Char.ofNat value) :: readOctets none rest
      else readOctets (some ⟨pending.missing - 1, 0x80, 0xbf, value⟩) rest
    else
      match FirstOctet.of n with
      | .char c => none :: some c :: readOctets none rest
      | .opens pending => none :: readOctets (some pending) rest
      | .stray => none :: none :: readOctets none rest

/-- The text that octets stand for, with replacements. -/
def ofOctets (octets : List Char) : String :=
  String.ofList ((readOctets none octets).map fun c? => c?.getD replacement)

/-- The text that octets stand for, when they are text. -/
def ofOctets? (octets : List Char) : Option String :=
  ((readOctets none octets).mapM id).map String.ofList

end TabSpec.Text

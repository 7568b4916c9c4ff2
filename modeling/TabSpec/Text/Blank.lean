/-! White space: the characters that a reader trims from the ends of a text. -/
namespace TabSpec.Text

/-- Whether a character is white space in the Unicode sense. -/
def isBlank (c : Char) : Bool :=
  let n := c.toNat
  (9 ≤ n && n ≤ 13) || n == 0x20 || n == 0x85 || n == 0xa0 || n == 0x1680 ||
    (0x2000 ≤ n && n ≤ 0x200a) || n == 0x2028 || n == 0x2029 || n == 0x202f || n == 0x205f ||
    n == 0x3000

/-- A text without the blanks at its start. -/
def trimFront (text : List Char) : List Char := text.dropWhile isBlank

/-- A text without the blanks at its end. -/
def trimBack (text : List Char) : List Char := (text.reverse.dropWhile isBlank).reverse

/-- A text without the blanks at its ends. -/
def trim (text : String) : String := String.ofList (trimBack (trimFront text.toList))

/-- Whether a text holds nothing but blanks. -/
def allBlank (text : String) : Bool := text.toList.all isBlank

/-- The lines of a text. A line ends with a line feed, before which one carriage return is dropped;
a final line feed opens no further line. -/
def lines (text : String) : List String :=
  let pieces := text.toList.splitOn '\n'
  let pieces := if pieces.getLast? = some [] then pieces.dropLast else pieces
  pieces.map fun piece =>
    String.ofList (if piece.getLast? = some '\r' then piece.dropLast else piece)

end TabSpec.Text

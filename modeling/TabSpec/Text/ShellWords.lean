/-! Words as a shell reads them: cutting a line into words, and quoting a word so that a shell reads
it back. -/
namespace TabSpec.Text.ShellWords

def isSpace (c : Char) : Bool := c == ' ' || c == '\t' || c == '\n'

/-- How the reader stands towards the next character. -/
inductive Mode
  | between
  | comment
  | bare
  | single
  | double
deriving Repr, DecidableEq

/-- Read words; `word` holds what is read of the current one, in reverse. -/
def read : Mode → (word : List Char) → List Char → Option (List (List Char))
  | .between, _, [] => some []
  | .comment, _, [] => some []
  | .bare, word, [] => some [word.reverse]
  | .single, _, [] => none
  | .double, _, [] => none
  | .between, word, c :: rest =>
    if isSpace c then read .between word rest
    else if c = '#' then read .comment word rest
    else if c = '\'' then read .single [] rest
    else if c = '"' then read .double [] rest
    else if c = '\\' then
      match rest with
      | [] => none
      | d :: rest => read .bare (if d = '\n' then [] else [d]) rest
    else read .bare [c] rest
  | .comment, word, c :: rest => read (if c = '\n' then .between else .comment) word rest
  | .bare, word, c :: rest =>
    if isSpace c then (read .between [] rest).map (word.reverse :: ·)
    else if c = '\'' then read .single word rest
    else if c = '"' then read .double word rest
    else if c = '\\' then
      match rest with
      | [] => none
      | d :: rest => read .bare (if d = '\n' then word else d :: word) rest
    else read .bare (c :: word) rest
  | .single, word, c :: rest =>
    if c = '\'' then read .bare word rest else read .single (c :: word) rest
  | .double, word, c :: rest =>
    if c = '"' then read .bare word rest
    else if c = '\\' then
      match rest with
      | [] => none
      | d :: rest =>
        if d = '\n' then read .double word rest
        else if "$\x60\"\\".toList.contains d then read .double (d :: word) rest
        else read .double (d :: '\\' :: word) rest
    else read .double (c :: word) rest

/-- The words of a line, unless a quotation stays open. -/
def split? (line : String) : Option (List String) :=
  (read .between [] line.toList).map fun words => words.map String.ofList

/-- Ways to write characters, in the order of preference. -/
inductive Quoting
  | bare
  | single
  | double
deriving Repr, DecidableEq

def Quoting.all : List Quoting := [.bare, .single, .double]

/-- Whether a character may be written that way. A caret may only open a single quotation. -/
def Quoting.allows (c : Char) : Quoting → Bool
  | .bare => c.isAlphanum || "+-./:@]_".toList.contains c
  | .single => !"'^\\".toList.contains c
  | .double => !"\x60$!^".toList.contains c

/-- A front that can be written in one of several ways, and what stands behind it. -/
structure Chunk where
  ways : List Quoting
  body : List Char
  after : List Char
deriving Repr, DecidableEq

/-- The longest front that can be written in one of the allowed ways. -/
def chunk (ways : List Quoting) : List Char → Chunk
  | [] => ⟨ways, [], []⟩
  | c :: rest =>
    match ways.filter (·.allows c) with
    | [] => ⟨ways, [], c :: rest⟩
    | way :: others =>
      let longer := chunk (way :: others) rest
      { longer with body := c :: longer.body }

theorem length_after_chunk_le (ways : List Quoting) (text : List Char) :
    (chunk ways text).after.length ≤ text.length := by
  induction text generalizing ways with
  | nil => simp [chunk]
  | cons c rest ih =>
    simp only [chunk]
    split
    · simp
    · next way others _ =>
      have shorter := ih (way :: others)
      simp only [List.length_cons]
      omega

/-- The ways to write a character that opens a chunk. -/
def openers (c : Char) : List Quoting :=
  if c = '^' then [.single] else Quoting.all.filter (·.allows c)

def Quoting.write (body : List Char) : Quoting → List Char
  | .bare => body
  | .single => '\'' :: body ++ ['\'']
  | .double =>
    '"' :: (body.flatMap fun c => if c = '"' ∨ c = '\\' then ['\\', c] else [c]) ++ ['"']

/-- Write a text in chunks, each as long as one way of writing reaches. -/
def quoteChunks : List Char → List Char
  | [] => []
  | c :: rest =>
    ((chunk (openers c) rest).ways.head?.getD .double).write (c :: (chunk (openers c) rest).body) ++
      quoteChunks (chunk (openers c) rest).after
termination_by text => text.length
decreasing_by
  have shorter := length_after_chunk_le (openers c) rest
  simp only [List.length_cons]
  omega

/-- A text as one word, unless it holds a character that no word can hold. -/
def quote? (text : String) : Option String :=
  if text = "" then some "''"
  else if text.toList.contains '\x00' then none
  else some (String.ofList (quoteChunks text.toList))

/-- A line with these words. -/
def join? (words : List String) : Option String :=
  (words.mapM quote?).map (String.intercalate " ")

end TabSpec.Text.ShellWords

import TabSpec.Proofs.Action.Words
import TabSpec.Proofs.Text.ShellWords

/-! The texts of the words on a command line, without their places, and where the word under the
cursor takes its beginning. -/
namespace TabSpec.WordToken

/-- The texts of the words among tokens. -/
def wordTexts (tokens : List WordToken) : List (List Char) := (tokens.filter isWord).map text

/-- The texts of the words that are read behind what is read of the current one. Spaces and operators
alike end a word. -/
def texts : (current : Option (List Char)) → (quote : Option Char) → List Char → List (List Char)
  | current, _, [] => [current.getD []]
  | current, some quote, c :: rest =>
    if c = quote then texts current none rest
    else if c = '\\' ∧ quote = '"' then
      match rest with
      | [] => texts current (some quote) []
      | next :: rest => texts (some (current.getD [] ++ [next])) (some quote) rest
    else texts (some (current.getD [] ++ [c])) (some quote) rest
  | current, none, c :: rest =>
    if isSpace c then current.toList ++ texts none none rest
    else if c = '\'' ∨ c = '"' then texts (some (current.getD [])) (some c) rest
    else if c = '\\' then
      match rest with
      | [] => texts current none []
      | next :: rest => texts (some (current.getD [] ++ [next])) none rest
    else if isOperatorChar c then current.toList ++ texts none none rest
    else texts (some (current.getD [] ++ [c])) none rest

/-! ### One step of reading -/

section

variable (current : Option (List Char)) (rest : List Char) {quote c : Char}

theorem texts_nil (quote : Option Char) : texts current quote [] = [current.getD []] := by
  rw [texts.eq_def]

theorem texts_close : texts current (some quote) (quote :: rest) = texts current none rest := by
  rw [texts.eq_def]
  simp only [if_pos]

theorem texts_quoted_escaped :
    texts current (some '"') ('\\' :: c :: rest) =
      texts (some (current.getD [] ++ [c])) (some '"') rest := by
  rw [texts.eq_def]
  rfl

theorem texts_quoted (inside : c ≠ quote) (plain : ¬ (c = '\\' ∧ quote = '"')) :
    texts current (some quote) (c :: rest) =
      texts (some (current.getD [] ++ [c])) (some quote) rest := by
  rw [texts.eq_def]
  simp only [if_neg inside, if_neg plain]

theorem texts_open (opens : c = '\'' ∨ c = '"') :
    texts current none (c :: rest) = texts (some (current.getD [])) (some c) rest := by
  rcases opens with rfl | rfl <;> rw [texts.eq_def] <;> rfl

theorem texts_escaped :
    texts current none ('\\' :: c :: rest) = texts (some (current.getD [] ++ [c])) none rest := by
  rw [texts.eq_def]
  rfl

theorem texts_space (space : isSpace c = true) :
    texts current none (c :: rest) = current.toList ++ texts none none rest := by
  rw [texts.eq_def]
  simp only [if_pos space]

theorem texts_operator (operator : isOperatorChar c = true) :
    texts current none (c :: rest) = current.toList ++ texts none none rest := by
  have special : c = '|' ∨ c = '&' ∨ c = ';' := by
    simpa [isOperatorChar, or_assoc] using operator
  rcases special with rfl | rfl | rfl <;> rw [texts.eq_def] <;> rfl

/-- A character that stands for itself outside of quotations. -/
structure Plain (c : Char) : Prop where
  space : isSpace c = false
  quote : ¬ (c = '\'' ∨ c = '"')
  escape : c ≠ '\\'
  operator : isOperatorChar c = false

theorem texts_plain (plain : Plain c) :
    texts current none (c :: rest) = texts (some (current.getD [] ++ [c])) none rest := by
  rw [texts.eq_def]
  simp [plain.space, plain.quote, plain.escape, plain.operator]

end

/-! ### The words among the tokens -/

theorem wordTexts_append (front back : List WordToken) :
    wordTexts (front ++ back) = wordTexts front ++ wordTexts back := by
  simp [wordTexts]

theorem wordTexts_toList {current : Option WordToken}
    (begun : ∀ word ∈ current, word.isWord = true) :
    wordTexts current.toList = (current.map text).toList := by
  cases current with
  | none => rfl
  | some word => simp [wordTexts, begun word rfl]

theorem isWord_getD {current : Option WordToken} (begun : ∀ word ∈ current, word.isWord = true)
    (start : Nat) : (current.getD (emptyWord start)).isWord = true := by
  cases current with
  | none => rfl
  | some word => exact begun word rfl

theorem isWord_push {current : Option WordToken} (begun : ∀ word ∈ current, word.isWord = true)
    (start : Nat) (c : Char) : ∀ word ∈ some (push current start c), word.isWord = true := by
  intro word same
  obtain rfl := Option.some.inj same
  exact isWord_getD begun start

theorem openQuote_eq (current : Option WordToken) (start : Nat) (quote : Char) :
    ∃ opened, openQuote current start quote =
      { current.getD (emptyWord start) with quote := opened } := by
  unfold openQuote
  dsimp only
  split
  · exact ⟨_, rfl⟩
  · exact ⟨(current.getD (emptyWord start)).quote, rfl⟩

theorem isWord_openQuote {current : Option WordToken}
    (begun : ∀ word ∈ current, word.isWord = true) (start : Nat) (quote : Char) :
    ∀ word ∈ some (openQuote current start quote), word.isWord = true := by
  intro word same
  obtain ⟨opened, built⟩ := openQuote_eq current start quote
  obtain rfl := Option.some.inj same
  rw [built]
  exact isWord_getD begun start

theorem text_getD (current : Option WordToken) (start : Nat) :
    (current.getD (emptyWord start)).text = (current.map text).getD [] := by
  cases current <;> rfl

theorem text_openQuote (current : Option WordToken) (start : Nat) (quote : Char) :
    (openQuote current start quote).text = (current.map text).getD [] := by
  obtain ⟨opened, built⟩ := openQuote_eq current start quote
  rw [built]
  exact text_getD current start

theorem text_push (current : Option WordToken) (start : Nat) (c : Char) :
    (push current start c).text = (current.map text).getD [] ++ [c] := by
  rw [← text_getD current start]
  rfl

/-- The texts of the words are read without regard to places and operators. -/
theorem wordTexts_scan {start : Nat} {current : Option WordToken} {quote : Option Char}
    {rest : List Char} (begun : ∀ word ∈ current, word.isWord = true) :
    wordTexts (scan start current quote rest) = texts (current.map text) quote rest := by
  have nothing : ∀ word ∈ (none : Option WordToken), word.isWord = true := by simp
  fun_induction scan start current quote rest with
  | case1 quote start current =>
    rw [texts_nil, ← text_getD current start]
    simp [wordTexts, isWord_getD begun start]
  | case2 start current quote rest ih => rw [texts_close, ih begun]
  | case3 start current quote c inside escapes ih =>
    obtain ⟨rfl, rfl⟩ := escapes
    exact (ih begun).trans (texts.eq_def ..)
  | case4 start current quote c inside escapes next rest ih =>
    obtain ⟨rfl, rfl⟩ := escapes
    rw [texts_quoted_escaped, ih (isWord_push begun start next), Option.map_some, text_push]
  | case5 start current quote c rest inside plain ih =>
    rw [texts_quoted _ _ inside plain, ih (isWord_push begun start c), Option.map_some, text_push]
  | case6 start current c rest space ih =>
    rw [texts_space _ _ space, wordTexts_append, wordTexts_toList begun, ih nothing, Option.map_none]
  | case7 start current c rest space opens ih =>
    rw [texts_open _ _ opens, ih (isWord_openQuote begun start c), Option.map_some, text_openQuote]
  | case8 start current space opens ih => exact (ih begun).trans (texts.eq_def ..)
  | case9 start current next rest space opens ih =>
    rw [texts_escaped, ih (isWord_push begun start next), Option.map_some, text_push]
  | case10 start current c space opens escapes operator next after twice ih =>
    obtain ⟨-, rfl⟩ := twice
    rw [texts_operator _ _ operator, texts_operator _ _ operator, wordTexts_append,
      wordTexts_toList begun]
    exact congrArg _ (ih nothing)
  | case11 start current c space opens escapes operator next after once ih =>
    rw [texts_operator _ _ operator, wordTexts_append, wordTexts_toList begun]
    exact congrArg _ (ih nothing)
  | case12 start current c space opens escapes operator ih =>
    rw [texts_operator _ _ operator, wordTexts_append, wordTexts_toList begun]
    exact congrArg _ (ih nothing)
  | case13 start current c rest space opens escapes operator ih =>
    have plain : Plain c := ⟨by simpa using space, opens, escapes, by simpa using operator⟩
    rw [texts_plain _ _ plain, ih (isWord_push begun start c), Option.map_some, text_push]

theorem wordTexts_tokens (line : List Char) : wordTexts (tokens line) = texts none none line :=
  wordTexts_scan (by simp)

/-! ### Where the word under the cursor begins -/

/-- A character that ends a word where it is not quoted. -/
def Separates (c : Char) : Prop := isSpace c = true ∨ isOperatorChar c = true

/-- A text is divided in front of a token: what is read there makes the earlier words, whatever is put
behind. A backslash behind which the text ends stands in front of the token too, but escapes what is put
in its place. -/
structure DividesAt (start : Nat) (current : Option WordToken) (quote : Option Char)
    (rest : List Char) (earlier : List WordToken) (token : WordToken) (front slash : List Char) :
    Prop where
  inside : front ++ slash <+: rest
  place : token.start = start + (front ++ slash).length
  begun : current = none ∨ front ≠ []
  separated : ∀ c ∈ front.getLast?, Separates c
  dangling : slash = [] ∨ slash = ['\\'] ∧ token.quote = none
  reads : ∀ more, texts (current.map text) quote (front ++ more) =
    wordTexts earlier ++ texts none none more

/-- The tokens end with a word. It is the current one, or else the text is divided in front of it. -/
def Resumes (start : Nat) (current : Option WordToken) (quote : Option Char) (rest : List Char)
    (tokens : List WordToken) : Prop :=
  ∃ earlier token, tokens = earlier ++ [token] ∧ token.isWord = true ∧
    ((earlier = [] ∧ ∃ word ∈ current, token.start = word.start) ∨
      ∃ front slash, DividesAt start current quote rest earlier token front slash)

section

variable {start : Nat} {current : Option WordToken} {quote next : Option Char}
  {rest : List Char} {tokens : List WordToken} {word : WordToken} (seen : List Char)

/-- What is seen goes to the current word, or begins one. -/
theorem Resumes.continued (some : seen ≠ []) (outside : current = none → quote = none)
    (begins : word.start = (current.getD (emptyWord start)).start)
    (read : ∀ more, texts (current.map text) quote (seen ++ more) =
      texts (.some word.text) next more)
    (later : Resumes (start + seen.length) (.some word) next rest tokens) :
    Resumes start current quote (seen ++ rest) tokens := by
  obtain ⟨earlier, token, rfl, isWord, ⟨rfl, begun, same, place⟩ |
    ⟨front, slash, inside, place, nonempty, divided, dangling, reads⟩⟩ := later
  · refine ⟨[], token, rfl, isWord, ?_⟩
    obtain rfl := Option.some.inj same
    cases current with
    | none =>
      obtain rfl := outside rfl
      exact .inr ⟨[], [], List.nil_prefix, place.trans begins, .inl rfl, by simp, .inl rfl,
        fun more => rfl⟩
    | some first => exact .inl ⟨rfl, first, rfl, place.trans begins⟩
  · have nonempty : front ≠ [] := nonempty.resolve_left (by simp)
    refine ⟨earlier, token, rfl, isWord,
      .inr ⟨seen ++ front, slash, ?_, ?_, .inr ?_, ?_, dangling, ?_⟩⟩
    · simpa using inside
    · simp only [place, List.length_append]
      omega
    · exact List.append_ne_nil_of_left_ne_nil some front
    · intro c final
      rw [List.getLast?_append, Option.mem_def, Option.or_eq_some_iff] at final
      rcases final with inner | ⟨none, -⟩
      · exact divided c inner
      · exact absurd (List.getLast?_eq_none_iff.mp none) nonempty
    · intro more
      rw [List.append_assoc, read]
      exact reads more

/-- What is seen ends the current word. -/
theorem Resumes.divided {ended : List WordToken} {c : Char} (last : seen.getLast? = some c)
    (separates : Separates c)
    (read : ∀ more, texts (current.map text) quote (seen ++ more) =
      wordTexts ended ++ texts none none more)
    (later : Resumes (start + seen.length) none none rest tokens) :
    Resumes start current quote (seen ++ rest) (ended ++ tokens) := by
  obtain ⟨earlier, token, rfl, isWord, ⟨-, begun, same, -⟩ |
    ⟨front, slash, inside, place, -, divided, dangling, reads⟩⟩ := later
  · cases same
  · have nonempty : seen ≠ [] := by
      rintro rfl
      cases last
    refine ⟨ended ++ earlier, token, by simp, isWord,
      .inr ⟨seen ++ front, slash, ?_, ?_, .inr ?_, ?_, dangling, ?_⟩⟩
    · simpa using inside
    · simp only [place, List.length_append]
      omega
    · exact List.append_ne_nil_of_left_ne_nil nonempty front
    · intro d final
      rw [List.getLast?_append, last, Option.mem_def, Option.or_eq_some_iff] at final
      rcases final with inner | ⟨-, outer⟩
      · exact divided d inner
      · exact Option.some.inj outer ▸ separates
    · intro more
      rw [List.append_assoc, read, wordTexts_append, List.append_assoc]
      exact congrArg _ (reads more)

/-- An operator is seen, which ends the current word. -/
theorem Resumes.divided_operator {operator : WordToken} {c : Char}
    (begun : ∀ word ∈ current, word.isWord = true) (kind : operator.isWord = false)
    (last : seen.getLast? = some c) (separates : isOperatorChar c = true)
    (read : ∀ more, texts (current.map text) none (seen ++ more) =
      (current.map text).toList ++ texts none none more)
    (later : Resumes (start + seen.length) none none rest tokens) :
    Resumes start current none (seen ++ rest) (current.toList ++ operator :: tokens) := by
  rw [List.append_cons]
  refine later.divided seen last (.inr separates) fun more => ?_
  rw [read, wordTexts_append, wordTexts_toList begun]
  simp [wordTexts, kind]

end

theorem start_push (current : Option WordToken) (start : Nat) (c : Char) :
    (push current start c).start = (current.getD (emptyWord start)).start := rfl

theorem start_openQuote (current : Option WordToken) (start : Nat) (quote : Char) :
    (openQuote current start quote).start = (current.getD (emptyWord start)).start := by
  obtain ⟨opened, built⟩ := openQuote_eq current start quote
  rw [built]

/-- What is left of a line where it ends, behind a backslash or not. -/
theorem resumes_end {start : Nat} {current : Option WordToken} {quote : Option Char}
    (begun : ∀ word ∈ current, word.isWord = true) (outside : current = none → quote = none)
    {slash : List Char} (dangling : slash = [] ∨ slash = ['\\']) :
    Resumes start current quote slash
      [current.getD (emptyWord (start + slash.length))] := by
  refine ⟨[], _, rfl, isWord_getD begun _, ?_⟩
  cases current with
  | some word => exact .inl ⟨rfl, word, rfl, rfl⟩
  | none =>
    obtain rfl := outside rfl
    exact .inr ⟨[], slash, List.prefix_rfl, rfl, .inl rfl, by simp,
      dangling.imp_right fun same => ⟨same, rfl⟩, fun more => rfl⟩

/-- Reading resumes in every state that can be reached: within a quotation there is a current word. -/
theorem resumes_scan {start : Nat} {current : Option WordToken} {quote : Option Char}
    {rest : List Char} (begun : ∀ word ∈ current, word.isWord = true)
    (outside : current = none → quote = none) :
    Resumes start current quote rest (scan start current quote rest) := by
  have nothing : ∀ word ∈ (none : Option WordToken), word.isWord = true := by simp
  fun_induction scan start current quote rest with
  | case1 quote start current => exact resumes_end begun outside (.inl rfl)
  | case2 start current quote rest ih =>
    cases current with
    | none => cases outside rfl
    | some word =>
      exact (ih begun (by simp)).continued [_] (List.cons_ne_nil _ []) outside rfl
        fun more => texts_close ..
  | case3 start current quote c inside escapes ih =>
    rw [scan.eq_def]
    obtain ⟨rfl, rfl⟩ := escapes
    exact resumes_end begun outside (.inr rfl)
  | case4 start current quote c inside escapes next rest ih =>
    obtain ⟨rfl, rfl⟩ := escapes
    refine (ih (isWord_push begun start next) (by simp)).continued ['\\', next]
      (List.cons_ne_nil _ _) outside (start_push ..) fun more => ?_
    rw [text_push]
    exact texts_quoted_escaped ..
  | case5 start current quote c rest inside plain ih =>
    refine (ih (isWord_push begun start c) (by simp)).continued [c]
      (List.cons_ne_nil _ _) outside (start_push ..) fun more => ?_
    rw [text_push]
    exact texts_quoted _ _ inside plain
  | case6 start current c rest space ih =>
    refine (ih nothing (by simp)).divided [c] rfl (.inl space) fun more => ?_
    rw [wordTexts_toList begun]
    exact texts_space _ _ space
  | case7 start current c rest space opens ih =>
    refine (ih (isWord_openQuote begun start c) (by simp)).continued [c]
      (List.cons_ne_nil _ _) outside (start_openQuote ..) fun more => ?_
    rw [text_openQuote]
    exact texts_open _ _ opens
  | case8 start current space opens ih =>
    rw [scan.eq_def]
    exact resumes_end begun outside (.inr rfl)
  | case9 start current next rest space opens ih =>
    refine (ih (isWord_push begun start next) (by simp)).continued ['\\', next]
      (List.cons_ne_nil _ _) outside (start_push ..) fun more => ?_
    rw [text_push]
    exact texts_escaped ..
  | case10 start current c space opens escapes operator next after twice ih =>
    obtain ⟨-, rfl⟩ := twice
    refine (ih nothing (by simp)).divided_operator [next, next] begun rfl rfl operator
      fun more => ?_
    exact (texts_operator _ _ operator).trans (congrArg _ (texts_operator _ _ operator))
  | case11 start current c space opens escapes operator next after once ih =>
    exact (ih nothing (by simp)).divided_operator [c] begun rfl rfl operator
      fun more => texts_operator _ _ operator
  | case12 start current c space opens escapes operator ih =>
    exact (ih nothing (by simp)).divided_operator [c] begun rfl rfl operator
      fun more => texts_operator _ _ operator
  | case13 start current c rest space opens escapes operator ih =>
    have plain : Plain c := ⟨by simpa using space, opens, escapes, by simpa using operator⟩
    refine (ih (isWord_push begun start c) (by simp)).continued [c]
      (List.cons_ne_nil _ _) outside (start_push ..) fun more => ?_
    rw [text_push]
    exact texts_plain _ _ plain

/-- The word under the cursor is the last token of a line. What is put in its place is read behind the
words before it. -/
theorem exists_resumes (line : List Char) :
    ∃ earlier token slash, tokens line = earlier ++ [token] ∧ token.isWord = true ∧
      (slash = [] ∨ slash = ['\\'] ∧ token.quote = none) ∧
      ((line.take token.start).getLast? = some '\\' ↔ slash = ['\\']) ∧
      ∀ more, texts none none (line.take token.start ++ more) =
        wordTexts earlier ++ texts none none (slash ++ more) := by
  obtain ⟨earlier, token, cut, isWord, ⟨-, word, none, -⟩ |
    ⟨front, slash, ⟨tail, rfl⟩, place, -, divided, dangling, reads⟩⟩ :=
    (resumes_scan (by simp) fun _ => rfl : Resumes 0 none none line (tokens line))
  · cases none
  · have typed : (front ++ slash ++ tail).take token.start = front ++ slash := by
      rw [place, Nat.zero_add, List.take_left]
    refine ⟨earlier, token, slash, cut, isWord, dangling, ?_, fun more => ?_⟩
    · rw [typed, List.getLast?_append]
      rcases dangling with rfl | ⟨rfl, -⟩
      · have apart : front.getLast? ≠ some '\\' := fun last =>
          absurd (divided _ last) (by simp [Separates, isSpace, isOperatorChar])
        simpa using apart
      · simp
    · rw [typed, List.append_assoc]
      exact reads (slash ++ more)

/-- There is always a word under the cursor, also in the last command of a line. -/
theorem exists_filter_isWord (line : List Char) (last : Bool) : ∃ earlier token,
    (if last then lastCommand (tokens line) else tokens line).filter isWord = earlier ++ [token] := by
  obtain ⟨earlier, token, -, cut, isWord, -⟩ := exists_resumes line
  cases last with
  | false => exact ⟨earlier.filter WordToken.isWord, token, by simp [cut, isWord]⟩
  | true =>
    exact ⟨(earlier.reverse.takeWhile WordToken.isWord).reverse.filter WordToken.isWord, token,
      by simp [lastCommand, cut, isWord]⟩

end TabSpec.WordToken

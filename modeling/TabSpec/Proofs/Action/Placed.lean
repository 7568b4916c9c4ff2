import TabSpec.Action.Adjust
import TabSpec.Proofs.Action.WordTexts
import TabSpec.Proofs.Context.NulFree

/-! A candidate put in place of the word under the cursor, and the words that are read then. -/
namespace TabSpec.WordToken

open Text.ShellWords

/-! ### A quoted text is read as it is -/

theorem plain_of_allows_bare {c : Char} (bare : Quoting.bare.allows c = true) : Plain c := by
  have ordinary := ordinary_of_allows_bare bare
  have apart (d : Char) (special : Quoting.bare.allows d = false) : c ≠ d := by
    rintro rfl
    rw [bare] at special
    cases special
  have pipe := apart '|' (by decide)
  have both := apart '&' (by decide)
  have semicolon := apart ';' (by decide)
  exact ⟨ordinary.space, not_or.mpr ⟨ordinary.single, ordinary.double⟩, ordinary.escape,
    by simp [isOperatorChar, pipe, both, semicolon]⟩

section

variable (word rest : List Char)

theorem texts_bare_append {body : List Char} (holds : Quoting.bare.Holds body) :
    texts (some word) none (body ++ rest) = texts (some (word ++ body)) none rest := by
  induction body generalizing word with
  | nil => rw [List.nil_append, List.append_nil]
  | cons c body ih =>
    have plain := plain_of_allows_bare (holds c List.mem_cons_self)
    rw [List.cons_append, texts_plain _ _ plain, Option.getD_some,
      ih _ fun d member => holds d (List.mem_cons_of_mem c member), List.append_assoc]
    rfl

/-- Whether a text is read as it is between two such quotes. -/
def Encloses (quote : Char) (body : List Char) : Prop :=
  quote ∉ body ∧ (quote = '"' → '\\' ∉ body)

instance (quote : Char) (body : List Char) : Decidable (Encloses quote body) :=
  inferInstanceAs (Decidable (_ ∧ (_ → _)))

theorem encloses_cons_iff {quote c : Char} {body : List Char} :
    Encloses quote (c :: body) ↔
      c ≠ quote ∧ ¬ (c = '\\' ∧ quote = '"') ∧ Encloses quote body := by
  simp only [Encloses, List.mem_cons]
  grind

theorem texts_inside {quote : Char} {body : List Char} (encloses : Encloses quote body) :
    texts (some word) (some quote) (body ++ rest) = texts (some (word ++ body)) (some quote) rest := by
  induction body generalizing word with
  | nil => rw [List.nil_append, List.append_nil]
  | cons c body ih =>
    obtain ⟨inside, plain, later⟩ := encloses_cons_iff.mp encloses
    rw [List.cons_append, texts_quoted _ _ inside plain, Option.getD_some, ih _ later,
      List.append_assoc]
    rfl

theorem texts_enclosed {quote : Char} {body : List Char} (encloses : Encloses quote body) :
    texts (some word) (some quote) (body ++ quote :: rest) =
      texts (some (word ++ body)) none rest :=
  (texts_inside word _ encloses).trans (texts_close _ rest)

theorem texts_double_append (body : List Char) :
    texts (some word) (some '"')
      ((body.flatMap fun c => if c = '"' ∨ c = '\\' then ['\\', c] else [c]) ++ '"' :: rest) =
        texts (some (word ++ body)) none rest := by
  induction body generalizing word with
  | nil => rw [List.flatMap_nil, List.nil_append, List.append_nil, texts_close]
  | cons c body ih =>
    rw [List.flatMap_cons, List.append_assoc]
    by_cases special : c = '"' ∨ c = '\\'
    · rw [if_pos special]
      refine (texts_quoted_escaped ..).trans ((ih _).trans ?_)
      rw [Option.getD_some, List.append_assoc]
      rfl
    · obtain ⟨quote, escape⟩ := not_or.mp special
      rw [if_neg special, List.singleton_append, texts_quoted _ _ quote (escape ·.1), ih,
        Option.getD_some, List.append_assoc]
      rfl

theorem texts_write {way : Quoting} {body : List Char} (holds : way.Holds body) :
    texts (some word) none (way.write body ++ rest) = texts (some (word ++ body)) none rest := by
  cases way with
  | bare => exact texts_bare_append word rest holds
  | single =>
    have encloses : Encloses '\'' body := ⟨holds, fun same => absurd same (by decide)⟩
    rw [Quoting.write, List.append_assoc, List.cons_append, texts_open _ _ (.inl rfl)]
    exact texts_enclosed word rest encloses
  | double =>
    rw [Quoting.write, List.append_assoc, List.cons_append, texts_open _ _ (.inr rfl)]
    exact texts_double_append word rest body

theorem texts_quoteChunks (text : List Char) :
    texts (some word) none (quoteChunks text ++ rest) = texts (some (word ++ text)) none rest := by
  induction text using quoteChunks.induct generalizing word with
  | case1 => rw [quoteChunks, List.nil_append, List.append_nil]
  | case2 c text ih =>
    have whole := body_append_after_chunk (openers c) text
    rw [quoteChunks_cons, List.append_assoc, texts_write _ _ (holds_wayOf c text), ih,
      List.append_assoc, List.cons_append, whole]

end

/-- How a quoted text begins. -/
theorem exists_cons_write {way : Quoting} {c : Char} {body : List Char}
    (holds : way.Holds (c :: body)) :
    ∃ d tail, way.write (c :: body) = d :: tail ∧ (Plain d ∨ d = '\'' ∨ d = '"') := by
  cases way with
  | bare => exact ⟨c, body, rfl, .inl (plain_of_allows_bare (holds c List.mem_cons_self))⟩
  | single => exact ⟨_, _, rfl, .inr (.inl rfl)⟩
  | double => exact ⟨_, _, rfl, .inr (.inr rfl)⟩

/-- A quoted text opens a word, which is that text. -/
theorem texts_quote? {text quoted : String} (written : quote? text = some quoted) :
    ∃ c tail, quoted.toList = c :: tail ∧ (Plain c ∨ c = '\'' ∨ c = '"') ∧
      ∀ rest, texts none none (quoted.toList ++ rest) = texts (some text.toList) none rest := by
  have begun {c : Char} {tail : List Char} (opens : Plain c ∨ c = '\'' ∨ c = '"') :
      texts none none (c :: tail) = texts (some []) none (c :: tail) := by
    rcases opens with plain | quote
    · rw [texts_plain _ _ plain, texts_plain _ _ plain]
      rfl
    · rw [texts_open _ _ quote, texts_open _ _ quote]
      rfl
  obtain ⟨empty, whole⟩ | ⟨some, whole⟩ := toList_quote? written
  · refine ⟨_, _, whole, .inr (.inl rfl), fun rest => ?_⟩
    rw [whole, empty]
    exact (texts_open _ _ (.inl rfl)).trans (texts_close _ _)
  · obtain ⟨first, others, same⟩ := List.exists_cons_of_ne_nil some
    obtain ⟨c, tail, front, opens⟩ := exists_cons_write (holds_wayOf first others)
    have opened : quoteChunks text.toList =
        c :: (tail ++ quoteChunks (chunk (openers first) others).after) := by
      rw [same, quoteChunks_cons, front, List.cons_append]
    refine ⟨c, _, whole.trans opened, opens, fun rest => ?_⟩
    calc texts none none (quoted.toList ++ rest)
      _ = texts (.some []) none (quoteChunks text.toList ++ rest) := by
        rw [whole, opened]
        exact begun opens
      _ = texts (.some text.toList) none rest := texts_quoteChunks [] rest text.toList

/-! ### A candidate between the quotes of the typed word -/

theorem texts_ne_nil (current : Option (List Char)) (quote : Option Char) (rest : List Char) :
    texts current quote rest ≠ [] := by
  fun_induction texts current quote rest <;> simp_all

theorem getLast?_append_texts (front : List (List Char)) (current : Option (List Char))
    (quote : Option Char) (rest : List Char) :
    (front ++ texts current quote rest).getLast? = (texts current quote rest).getLast? := by
  rw [List.getLast?_append, List.getLast?_eq_some_getLast (texts_ne_nil current quote rest),
    Option.some_or]

theorem texts_blank (word : List Char) : texts (some word) none [' '] = [word, []] := by
  rw [texts_space _ _ (by decide), texts_nil]
  rfl

theorem texts_open_blank {word : List Char} {quote : Char} (isQuote : quote = '\'' ∨ quote = '"') :
    texts (some word) (some quote) [' '] = [word ++ [' ']] := by
  have inside : ' ' ≠ quote := by rcases isQuote with rfl | rfl <;> decide
  rw [texts_quoted _ _ inside (by simp), texts_nil]
  rfl

theorem cons_eq_append_pair_iff {front rest : List Char} {c d e : Char} :
    c :: rest = front ++ [d, e] ↔
      (front = [] ∧ c = d ∧ rest = [e]) ∨ ∃ later, front = c :: later ∧ rest = later ++ [d, e] := by
  rw [List.cons_eq_append_iff]
  simp [eq_comm]

/-- A text that ends in a quote and a space and leaves no word open makes words that are no longer than
what stands before the two: the space is in no word, and neither is the quote or the backslash that
escapes it. -/
theorem length_flatten_texts_le {current : Option (List Char)} {quote : Option Char}
    {front rest : List Char} {last : Char} (whole : rest = front ++ [last, ' '])
    (lastQuote : last = '\'' ∨ last = '"') (isQuote : ∀ q ∈ quote, q = '\'' ∨ q = '"')
    (closed : (texts current quote rest).getLast? = some []) :
    (texts current quote rest).flatten.length ≤ (current.getD []).length + front.length := by
  have separated {current : Option (List Char)} {words : List (List Char)} (length : Nat)
      (bound : words.flatten.length ≤ 0 + length) :
      (current.toList ++ words).flatten.length ≤ (current.getD []).length + (length + 1) := by
    cases current <;> simp only [Option.toList, List.nil_append, List.singleton_append,
      List.flatten_cons, List.length_append, Option.getD] <;> omega
  have pushed {current : Option (List Char)} {c : Char} {words : List (List Char)} (length : Nat)
      (bound : words.flatten.length ≤ (current.getD [] ++ [c]).length + length) :
      words.flatten.length ≤ (current.getD []).length + (length + 1) := by
    rw [List.length_append, List.length_singleton] at bound
    omega
  fun_induction texts current quote rest generalizing front with
  | case1 => simp at whole
  | case2 current quote rest ih =>
    obtain ⟨rfl, rfl, rfl⟩ | ⟨later, rfl, rfl⟩ := cons_eq_append_pair_iff.mp whole
    · rw [texts_space _ _ (by decide), texts_nil]
      cases current <;> simp
    · have bound := ih rfl (by simp) closed
      simp only [List.length_cons]
      omega
  | case3 current quote c inside escapes ih => simp [cons_eq_append_pair_iff] at whole
  | case4 current quote c inside escapes next rest ih =>
    obtain ⟨rfl, rfl⟩ := escapes
    obtain ⟨rfl, rfl, -⟩ | ⟨later, rfl, rest'⟩ := cons_eq_append_pair_iff.mp whole
    · simp at lastQuote
    · obtain ⟨rfl, rfl, rfl⟩ | ⟨later, rfl, rfl⟩ := cons_eq_append_pair_iff.mp rest'
      · rw [texts_open_blank (.inr rfl)] at closed
        simp at closed
      · exact Nat.le_succ_of_le (pushed later.length (ih rfl isQuote closed))
  | case5 current quote c rest inside plain ih =>
    obtain ⟨rfl, rfl, rfl⟩ | ⟨later, rfl, rfl⟩ := cons_eq_append_pair_iff.mp whole
    · rw [texts_open_blank (isQuote quote rfl)] at closed
      simp at closed
    · exact pushed later.length (ih rfl isQuote closed)
  | case6 current c rest space ih =>
    obtain ⟨rfl, rfl, rfl⟩ | ⟨later, rfl, rfl⟩ := cons_eq_append_pair_iff.mp whole
    · rcases lastQuote with rfl | rfl <;> cases space
    · rw [getLast?_append_texts] at closed
      exact separated later.length (ih rfl (by simp) closed)
  | case7 current c rest space opens ih =>
    obtain ⟨rfl, rfl, rfl⟩ | ⟨later, rfl, rfl⟩ := cons_eq_append_pair_iff.mp whole
    · rw [texts_open_blank opens] at closed
      simp at closed
    · have bound := ih rfl (by simpa using opens) closed
      simp only [Option.getD_some, List.length_cons] at bound ⊢
      omega
  | case8 current space opens ih => simp [cons_eq_append_pair_iff] at whole
  | case9 current next rest space opens ih =>
    obtain ⟨rfl, rfl, -⟩ | ⟨later, rfl, rest'⟩ := cons_eq_append_pair_iff.mp whole
    · simp at lastQuote
    · obtain ⟨rfl, rfl, rfl⟩ | ⟨later, rfl, rfl⟩ := cons_eq_append_pair_iff.mp rest'
      · simp [texts_blank]
      · exact Nat.le_succ_of_le (pushed later.length (ih rfl isQuote closed))
  | case10 current c rest space opens escapes operator ih =>
    obtain ⟨rfl, rfl, rfl⟩ | ⟨later, rfl, rfl⟩ := cons_eq_append_pair_iff.mp whole
    · exact absurd lastQuote opens
    · rw [getLast?_append_texts] at closed
      exact separated later.length (ih rfl (by simp) closed)
  | case11 current c rest space opens escapes operator ih =>
    obtain ⟨rfl, rfl, rfl⟩ | ⟨later, rfl, rfl⟩ := cons_eq_append_pair_iff.mp whole
    · exact absurd lastQuote opens
    · exact pushed later.length (ih rfl isQuote closed)

/-- Between two like quotes a text is read as it is exactly when nothing in it ends or escapes there. -/
theorem texts_enclosed_iff {quote : Char} (isQuote : quote = '\'' ∨ quote = '"')
    (word body : List Char) :
    texts (some word) (some quote) (body ++ [quote, ' ']) = [word ++ body, []] ↔
      Encloses quote body := by
  constructor
  · intro same
    induction body generalizing word with
    | nil => simp [Encloses]
    | cons c body ih =>
      rw [List.cons_append] at same
      -- A character that closes the quotation or escapes is lost, and the words are too short then.
      by_cases inside : c = quote
      · subst inside
        rw [texts_close] at same
        have bound := length_flatten_texts_le rfl isQuote (by simp) (congrArg List.getLast? same)
        rw [same] at bound
        simp only [List.flatten_cons, List.flatten_nil, List.length_append, List.length_cons,
          List.length_nil, Option.getD_some] at bound
        omega
      by_cases escapes : c = '\\' ∧ quote = '"'
      · obtain ⟨rfl, rfl⟩ := escapes
        cases body with
        | nil =>
          rw [List.nil_append, texts_quoted_escaped, texts_open_blank isQuote] at same
          simp at same
        | cons d body =>
          rw [List.cons_append, texts_quoted_escaped] at same
          have bound := length_flatten_texts_le rfl isQuote (by simp) (congrArg List.getLast? same)
          rw [same] at bound
          simp only [List.flatten_cons, List.flatten_nil, List.length_append, List.length_cons,
            List.length_nil, Option.getD_some] at bound
          omega
      · rw [texts_quoted _ _ inside escapes, Option.getD_some, List.append_cons word c body] at same
        exact encloses_cons_iff.mpr ⟨inside, escapes, ih _ same⟩
  · intro encloses
    exact (texts_enclosed word [' '] encloses).trans (texts_blank _)

/-! ### A candidate behind a backslash -/

/-- What is read of a word stays at its front. -/
theorem prefix_texts {current : Option (List Char)} {quote : Option Char} {rest : List Char} :
    ∀ word ∈ current, ∀ first ∈ (texts current quote rest).head?, word <+: first := by
  have grown {current : Option (List Char)} {c : Char} {words : List (List Char)}
      (ih : ∀ word ∈ some (current.getD [] ++ [c]), ∀ first ∈ words.head?, word <+: first) :
      ∀ word ∈ current, ∀ first ∈ words.head?, word <+: first := by
    intro word begun first found
    obtain rfl := Option.mem_def.mp begun
    exact (List.prefix_append word [c]).trans (ih _ rfl first found)
  fun_induction texts current quote rest with
  | case1 current => simp +contextual
  | case2 current quote rest ih | case3 current quote c inside escapes ih
  | case8 current space opens ih => exact ih
  | case4 current quote c inside escapes next rest ih | case5 current quote c rest inside plain ih
  | case9 current next rest space opens ih | case11 current c rest space opens escapes operator ih =>
    exact grown ih
  | case6 current c rest space ih | case10 current c rest space opens escapes operator ih =>
    simp +contextual
  | case7 current c rest space opens ih =>
    intro word begun
    obtain rfl := Option.mem_def.mp begun
    exact ih word rfl

theorem mem_head?_of_texts (front : List Char) {after rest : List Char} {quote : Option Char} {c : Char}
    (same : front ++ after ∈ (texts (some (front ++ [c])) quote rest).head?) : c ∈ after.head? := by
  obtain ⟨more, whole⟩ := (List.prefix_append_right_inj front).mp (prefix_texts _ rfl _ same)
  rw [← whole]
  rfl

/-- A quote that a backslash escapes in front of escaped text is one too many. -/
theorem not_mem_head?_texts_escaped {after : List Char} (stops : '"' ∉ after.head?)
    (front body rest : List Char) :
    front ++ (body ++ after) ∉ (texts (some (front ++ ['"'])) none
      ((body.flatMap fun c => if c = '"' ∨ c = '\\' then ['\\', c] else [c]) ++ rest)).head? := by
  induction body generalizing front with
  | nil => exact fun same => stops (mem_head?_of_texts front same)
  | cons c body ih =>
    intro same
    obtain rfl : c = '"' := Option.some.inj (mem_head?_of_texts front same)
    -- The quotes that follow in the text are escaped too, so the word stays one quote ahead of it.
    rw [List.flatMap_cons, if_pos (.inl rfl), List.append_assoc, List.cons_append, List.cons_append,
      List.nil_append, texts_escaped, Option.getD_some, List.cons_append,
      List.append_cons front '"' (body ++ after)] at same
    exact ih (front ++ ['"']) same

/-- A quoted text that opens with a quote is read otherwise behind a backslash. -/
theorem ne_texts_dangling {text quoted : String} {c : Char} {tail : List Char}
    (written : quote? text = some quoted) (opened : quoted.toList = c :: tail)
    (isQuote : c = '\'' ∨ c = '"') :
    texts none none ('\\' :: (quoted.toList ++ [' '])) ≠ [text.toList, []] := by
  intro same
  rw [opened, List.cons_append, texts_escaped] at same
  have first : c ∈ text.toList.head? := mem_head?_of_texts [] (congrArg List.head? same)
  obtain ⟨empty, -⟩ | ⟨-, whole⟩ := toList_quote? written
  · rw [empty] at first
    cases first
  · obtain ⟨others, begun⟩ := List.head?_eq_some_iff.mp first
    have holds := holds_wayOf c others
    have left := wayOf_mem_chunk c others
    rw [opened, begun, quoteChunks_cons] at whole
    cases way : wayOf c others with
    | bare =>
      rw [way] at holds
      exact (plain_of_allows_bare (holds c List.mem_cons_self)).quote isQuote
    | single =>
      rw [way] at whole holds
      obtain rfl : c = '\'' := (List.cons.inj whole).1
      exact holds List.mem_cons_self
    | double =>
      rw [way] at whole left
      obtain ⟨rfl, rfl⟩ := List.cons.inj whole
      have stops : '"' ∉ (chunk (openers '"') others).after.head? := fun next =>
        absurd (refuses_of_mem_after_chunk next _ left) (by decide)
      refine not_mem_head?_texts_escaped stops [] ('"' :: (chunk (openers '"') others).body)
        ('"' :: (quoteChunks (chunk (openers '"') others).after ++ [' '])) ?_
      have behind := body_append_after_chunk (openers '"') others
      rw [List.nil_append, List.cons_append, behind, ← begun]
      simpa [List.append_assoc] using congrArg List.head? same

/-- Behind a backslash a quoted text is read as it is exactly when it does not open with a quote. -/
theorem texts_dangling_iff {text quoted : String} (written : quote? text = some quoted) :
    texts none none ('\\' :: (quoted.toList ++ [' '])) = [text.toList, []] ↔
      ∀ c ∈ quoted.toList.head?, ¬ (c = '\'' ∨ c = '"') := by
  obtain ⟨c, tail, opened, opens, read⟩ := texts_quote? written
  constructor
  · intro same d first isQuote
    obtain rfl : c = d := by simpa [opened] using first
    exact ne_texts_dangling written opened isQuote same
  · intro bare
    have plain : Plain c := opens.resolve_right (bare c (by rw [opened]; rfl))
    calc texts none none ('\\' :: (quoted.toList ++ [' ']))
      _ = texts none none (quoted.toList ++ [' ']) := by
        rw [opened, List.cons_append, texts_escaped, texts_plain _ _ plain]
      _ = [text.toList, []] := by rw [read, texts_blank]

/-! ### A candidate in its place -/

/-- The words among tokens. -/
def words (tokens : List WordToken) : List String := (wordTexts tokens).map String.ofList

/-- What stands in front of a token on a line. -/
def front (line : String) (token : WordToken) : String :=
  String.ofList (line.toList.take token.start)

/-- A line with a candidate in place of the word under the cursor, and a space. -/
def replaced (line : String) (token : WordToken) (candidate : String) : String :=
  front line token ++ Action.quoteLike token candidate ++ " "

/-- Whether a candidate is read as it is in place of the word under the cursor. A word that begins with
a quote holds no such quote, and no backslash between double quotes; where a lone backslash ends the
line, no quote follows it. -/
structure Fits (line : String) (token : WordToken) (candidate : String) : Prop where
  enclosed : ∀ quote ∈ token.quote, Encloses quote candidate.toList
  unescaped : (front line token).toList.getLast? = some '\\' →
    ∀ c ∈ (Action.quoteLike token candidate).toList.head?, ¬ (c = '\'' ∨ c = '"')

/-- Behind what stands in front of the word under the cursor, a candidate in its place is read as it is
exactly when it fits there. -/
theorem texts_replaced_iff {line candidate : String} {token : WordToken} {slash : List Char}
    (free : Text.NulFree candidate) (isFrom : token.IsFrom line.toList)
    (dangling : slash = [] ∨ slash = ['\\'] ∧ token.quote = none)
    (ending : (front line token).toList.getLast? = some '\\' ↔ slash = ['\\']) :
    texts none none (slash ++ ((Action.quoteLike token candidate).toList ++ [' '])) =
      [candidate.toList, []] ↔ Fits line token candidate := by
  cases opened : token.quote with
  | some quote =>
    have isQuote := isFrom.quote quote opened
    obtain rfl : slash = [] := dangling.resolve_right (by simp [opened])
    have fits : Fits line token candidate ↔ Encloses quote candidate.toList :=
      ⟨fun fits => fits.enclosed quote opened, fun encloses =>
        ⟨fun other same => Option.some.inj (opened.symm.trans same) ▸ encloses,
          fun last => absurd (ending.mp last) (by simp)⟩⟩
    rw [fits, ← texts_enclosed_iff isQuote [] candidate.toList, List.nil_append, Action.quoteLike,
      opened]
    simp [texts_open _ _ isQuote]
  | none =>
    obtain ⟨quoted, written, -⟩ := exists_quote?_of_not_mem free
    have same : Action.quoteLike token candidate = quoted := by
      rw [Action.quoteLike, opened, written, Option.getD_some]
    have fits : Fits line token candidate ↔ (slash = ['\\'] →
        ∀ c ∈ quoted.toList.head?, ¬ (c = '\'' ∨ c = '"')) :=
      ⟨fun fits escaped => same ▸ fits.unescaped (ending.mpr escaped), fun bare =>
        ⟨by simp [opened], fun last => same ▸ bare (ending.mp last)⟩⟩
    rw [fits, same]
    rcases dangling with rfl | ⟨rfl, -⟩
    · obtain ⟨c, tail, -, -, read⟩ := texts_quote? written
      simp [read, texts_blank]
    · exact (texts_dangling_iff written).trans (by simp)

/-- The words with a candidate in place of the word under the cursor are those before it, the candidate
and one that is empty, exactly when the candidate fits there. -/
theorem exists_words_replaced_iff (line : String) :
    ∃ earlier token, tokens line.toList = earlier ++ [token] ∧ token.isWord = true ∧
      ∀ candidate, Text.NulFree candidate →
        (words (tokens (replaced line token candidate).toList) = words earlier ++ [candidate, ""] ↔
          Fits line token candidate) := by
  obtain ⟨earlier, token, slash, cut, isWord, dangling, ending, reads⟩ := exists_resumes line.toList
  have isFrom : token.IsFrom line.toList := isFrom_of_mem_tokens (by simp [cut])
  refine ⟨earlier, token, cut, isWord, fun candidate free => ?_⟩
  have read : words (tokens (replaced line token candidate).toList) = words earlier ++
      (texts none none
        (slash ++ ((Action.quoteLike token candidate).toList ++ [' ']))).map String.ofList := by
    rw [words, wordTexts_tokens, words, ← List.map_append, ← reads]
    simp [replaced, front, String.toList_append]
  have texts : [candidate, ""] = [candidate.toList, []].map String.ofList := by simp
  have injective (first second : List Char) : String.ofList first = String.ofList second →
    first = second := fun same => by simpa using congrArg String.toList same
  rw [read, List.append_cancel_left_eq, texts, List.map_inj_right injective]
  exact texts_replaced_iff free isFrom dangling (by rwa [front, String.toList_ofList])

end TabSpec.WordToken

namespace TabSpec

open WordToken

theorem Action.values_intoLine {completion : Completion} (plain : completion.nospace = "")
    (line : String) (token : WordToken) :
    (intoLine (front line token) token completion).values =
      completion.values.map (replaced line token) := by
  have spaced (value : String) : completion.suppressesSpace value = false := by
    cases last : Text.last? value <;> simp [Completion.suppressesSpace, plain, last]
  simp [intoLine, Completion.values, Completion.mapSuggestions, replaced, spaced]

/-- Completing the word under the cursor puts each candidate in its place, with a space. Where no space
is withheld, the words that are read then are those before, the candidate and one that is empty,
exactly when the candidate fits there. -/
theorem Action.words_replaced_iff (action : Action) (context : Context) :
    ∃ earlier token inner, tokens context.value.toList = earlier ++ [token] ∧ token.isWord = true ∧
      inner = (action { context with
        args := WordToken.words earlier, parts := [], value := String.ofList token.text }).value ∧
      (inner.nospace = "" →
        (words false action context).value.values =
          inner.values.map (replaced context.value token) ∧
        ∀ candidate, Text.NulFree candidate →
          (WordToken.words (tokens (replaced context.value token candidate).toList) =
              WordToken.words earlier ++ [candidate, ""] ↔
            Fits context.value token candidate)) := by
  obtain ⟨earlier, token, cut, isWord, fits⟩ := exists_words_replaced_iff context.value
  refine ⟨earlier, token, _, cut, isWord, rfl, fun plain => ⟨?_, fits⟩⟩
  have found : (tokens context.value.toList).filter WordToken.isWord =
      earlier.filter WordToken.isWord ++ [token] := by
    simp [cut, isWord]
  have before : (earlier.filter WordToken.isWord).map (fun word => String.ofList word.text) =
      WordToken.words earlier := by
    simp [WordToken.words, wordTexts]
  rw [← values_intoLine plain, words]
  simp only [Bool.false_eq_true, if_false, found, List.getLast?_concat, List.dropLast_concat, before]
  rfl

/-- A candidate with a space fits where a double quote opens the word. -/
theorem Action.words_replaced_iff_sample :
    ∃ context : Context, context.value = "cmd \"wi" ∧
      (words false (ofValues ["with space"]) context).value.values = ["cmd \"with space\" "] ∧
      WordToken.words (tokens "cmd \"with space\" ".toList) = ["cmd", "with space", ""] := by
  refine ⟨{ (default : Context) with value := "cmd \"wi" }, rfl, ?_⟩
  obtain ⟨earlier, token, inner, cut, -, same, reads⟩ :=
    words_replaced_iff (ofValues ["with space"]) { (default : Context) with value := "cmd \"wi" }
  have whole : tokens "cmd \"wi".toList =
      [⟨.word, "cmd".toList, 0, none⟩] ++ [⟨.word, "wi".toList, 4, some '"'⟩] := by decide +kernel
  obtain ⟨rfl, last⟩ := List.append_inj' (cut.symm.trans whole) rfl
  obtain rfl := (List.cons.inj last).1
  obtain ⟨values, fits⟩ := reads (by rw [same]; rfl)
  have put : replaced "cmd \"wi" ⟨.word, "wi".toList, 4, some '"'⟩ "with space" =
      "cmd \"with space\" " := by decide +kernel
  have enclosed : Fits "cmd \"wi" ⟨.word, "wi".toList, 4, some '"'⟩ "with space" := by
    refine ⟨fun quote opened => ?_, fun last => absurd last (by decide +kernel)⟩
    obtain rfl : '"' = quote := Option.some.inj opened
    decide +kernel
  have read := (fits "with space" (by decide +kernel)).mpr enclosed
  rw [put] at read
  refine ⟨values.trans ?_, read⟩
  rw [same, ← put]
  rfl

/-- A quote in a candidate ends the quotation that the typed word opens, and a quote behind a lone
backslash opens none. -/
theorem Action.words_breaks_candidate :
    let action := Action.ofValues ["it's"]
    (words false action { (default : Context) with value := "cmd 'it" }).value =
        { suggestions := [{ value := "cmd 'it's' ", display := "it's" }], nospace := "*" } ∧
      WordToken.words (tokens "cmd 'it".toList) = ["cmd", "it"] ∧
      WordToken.words (tokens "cmd 'it's' ".toList) = ["cmd", "its "] ∧
      (words false action { (default : Context) with value := "cmd \\" }).value.values =
        ["cmd \\\"it's\" "] ∧
      WordToken.words (tokens "cmd \\".toList) = ["cmd", ""] ∧
      WordToken.words (tokens "cmd \\\"it's\" ".toList) = ["cmd", "\"its\" "] := by
  decide +kernel

end TabSpec

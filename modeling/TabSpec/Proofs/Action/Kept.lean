import TabSpec.Completion.Basic
import TabSpec.Proofs.Action.Placed
import TabSpec.Proofs.Text.Cut

/-! Candidates that keep what is typed. A word is written anew in the place where it is typed, so the line
begins as before only if the word is quoted as it was, and candidates for which it is not are dropped where
only those are kept that begin with the line. -/
namespace TabSpec.WordToken

/-! ### What is typed of a word -/

/-- A word in which a character or a quote has been seen. Its quote changes no more. -/
structure Settled (word : WordToken) : Prop where
  isWord : word.isWord = true
  quote : word.text = [] → word.quote ≠ none

theorem settled_push {current : Option WordToken} (begun : ∀ word ∈ current, Settled word)
    (start : Nat) (c : Char) : ∀ word ∈ some (push current start c), Settled word := by
  intro word same
  obtain rfl := Option.some.inj same
  refine ⟨isWord_push (fun word member => (begun word member).isWord) start c _ rfl, fun empty => ?_⟩
  simp [text_push] at empty

theorem openQuote_none (start : Nat) (quote : Char) :
    openQuote none start quote = { emptyWord start with quote := some quote } := rfl

theorem openQuote_some {word : WordToken} (settled : Settled word) (start : Nat) (quote : Char) :
    openQuote (some word) start quote = word := by
  have closed : ¬ (word.text = [] ∧ word.quote = none) := fun both => settled.quote both.1 both.2
  simp only [openQuote, Option.getD_some, Bool.and_eq_true, List.isEmpty_iff, Option.isNone_iff_eq_none,
    if_neg closed]

theorem settled_openQuote {current : Option WordToken} (begun : ∀ word ∈ current, Settled word)
    (start : Nat) (quote : Char) : ∀ word ∈ some (openQuote current start quote), Settled word := by
  intro word same
  obtain rfl := Option.some.inj same
  cases current with
  | none => exact ⟨rfl, fun _ => by simp [openQuote_none]⟩
  | some word =>
    rw [openQuote_some (begun word rfl)]
    exact begun word rfl

/-- What is typed of a word: it alone is read there, and the quote that opens it stands in front. -/
structure TypedOf (token : WordToken) (typed : List Char) : Prop where
  reads : texts none none typed = [token.text]
  opens : ∀ c, c = '\'' ∨ c = '"' → (c ∈ typed.head? ↔ c ∈ token.quote)

/-- A text ends with what is typed of a word, which begins where the word has its place. -/
def EndsWith (start : Nat) (rest : List Char) (token : WordToken) : Prop :=
  ∃ front typed, rest = front ++ typed ∧ token.start = start + front.length ∧ TypedOf token typed

/-- The tokens end with a word. It is the current one, or else the text ends with what is typed of it. -/
def EndsTyped (start : Nat) (current : Option WordToken) (rest : List Char) (tokens : List WordToken) :
    Prop :=
  ∃ earlier token, tokens = earlier ++ [token] ∧ token.isWord = true ∧
    ((earlier = [] ∧ ∃ word ∈ current, token.start = word.start ∧ token.quote = word.quote) ∨
      EndsWith start rest token)

section

variable {start : Nat} {current : Option WordToken} {quote next : Option Char}
  {rest : List Char} {tokens : List WordToken} {word token : WordToken} (seen : List Char)

/-- More text in front of it. -/
theorem EndsWith.behind (further : EndsWith (start + seen.length) rest token) :
    EndsWith start (seen ++ rest) token := by
  obtain ⟨front, typed, rfl, place, isTyped⟩ := further
  refine ⟨seen ++ front, typed, (List.append_assoc ..).symm, ?_, isTyped⟩
  rw [place, List.length_append, Nat.add_assoc]

/-- What is left of a line where it ends, behind a backslash or not. -/
theorem endsTyped_end (begun : ∀ word ∈ current, Settled word) (slash : List Char) :
    EndsTyped start current slash [current.getD (emptyWord (start + slash.length))] := by
  refine ⟨[], _, rfl, isWord_getD (fun word member => (begun word member).isWord) _, ?_⟩
  cases current with
  | some word => exact .inl ⟨rfl, word, rfl, rfl, rfl⟩
  | none => exact .inr ⟨slash, [], by simp, rfl, texts_nil .., by simp [emptyWord]⟩

/-- What is seen ends the current word. -/
theorem EndsTyped.divided (ended : List WordToken)
    (later : EndsTyped (start + seen.length) none rest tokens) :
    EndsTyped start current (seen ++ rest) (ended ++ tokens) := by
  obtain ⟨earlier, token, rfl, isWord, ⟨-, begun, same, -⟩ | further⟩ := later
  · cases same
  · exact ⟨ended ++ earlier, token, by simp, isWord, .inr (further.behind seen)⟩

/-- What is seen goes to the current word. -/
theorem EndsTyped.continued {old : WordToken}
    (later : EndsTyped (start + seen.length) (some word) rest tokens)
    (place : word.start = old.start) (sameQuote : word.quote = old.quote) :
    EndsTyped start (some old) (seen ++ rest) tokens := by
  obtain ⟨earlier, token, rfl, isWord, ⟨rfl, begun, same, starts, quoted⟩ | further⟩ := later
  · obtain rfl := Option.some.inj same
    exact ⟨[], token, rfl, isWord, .inl ⟨rfl, old, rfl, starts.trans place, quoted.trans sameQuote⟩⟩
  · exact ⟨earlier, token, rfl, isWord, .inr (further.behind seen)⟩

/-- A word begins with what is seen. -/
theorem EndsTyped.begun (settled : Settled word) (place : word.start = start)
    (opens : ∀ c, c = '\'' ∨ c = '"' → (c ∈ (seen ++ rest).head? ↔ c ∈ word.quote))
    (read : texts none none (seen ++ rest) = texts (some word.text) next rest)
    (later : EndsTyped (start + seen.length) (some word) rest
      (scan (start + seen.length) (some word) next rest)) :
    EndsTyped start none (seen ++ rest) (scan (start + seen.length) (some word) next rest) := by
  obtain ⟨earlier, token, cut, isWord, ⟨rfl, old, same, starts, quoted⟩ | further⟩ := later
  · obtain rfl := Option.some.inj same
    have told : wordTexts (scan (start + seen.length) (some word) next rest) =
        texts (some word.text) next rest := wordTexts_scan (by simpa using settled.isWord)
    have alone : texts none none (seen ++ rest) = [token.text] := by
      rw [read, ← told, cut]
      simp [wordTexts, isWord]
    rw [← quoted] at opens
    exact ⟨[], token, cut, isWord, .inr ⟨[], seen ++ rest, rfl, starts.trans place, alone, opens⟩⟩
  · exact ⟨earlier, token, cut, isWord, .inr (further.behind seen)⟩

/-- A character is seen outside of quotations, behind a backslash or not. -/
theorem EndsTyped.pushed {c : Char} (begun : ∀ word ∈ current, Settled word)
    (unquoted : ∀ d ∈ (seen ++ rest).head?, ¬ (d = '\'' ∨ d = '"'))
    (read : texts none none (seen ++ rest) = texts (some [c]) none rest)
    (later : EndsTyped (start + seen.length) (some (push current start c)) rest
      (scan (start + seen.length) (some (push current start c)) none rest)) :
    EndsTyped start current (seen ++ rest)
      (scan (start + seen.length) (some (push current start c)) none rest) := by
  cases current with
  | some old => exact later.continued seen rfl rfl
  | none =>
    refine later.begun seen (settled_push begun start c _ rfl) rfl (fun d isQuote => ?_) read
    simpa [push, emptyWord] using fun first => unquoted d first isQuote

end

/-- Every state that can be reached leads to what is typed of the last word: within a quotation there is a
current word. -/
theorem endsTyped_scan {start : Nat} {current : Option WordToken} {quote : Option Char}
    {rest : List Char} (begun : ∀ word ∈ current, Settled word)
    (outside : current = none → quote = none) :
    EndsTyped start current rest (scan start current quote rest) := by
  have nothing : ∀ word ∈ (none : Option WordToken), Settled word := by simp
  fun_induction scan start current quote rest with
  | case1 quote start current => exact endsTyped_end begun []
  | case2 start current quote rest ih =>
    cases current with
    | none => cases outside rfl
    | some word => exact (ih begun (by simp)).continued [_] rfl rfl
  | case3 start current quote c inside escapes ih =>
    rw [scan.eq_def]
    exact endsTyped_end begun [c]
  | case4 start current quote c inside escapes follower rest ih =>
    cases current with
    | none => cases outside rfl
    | some word =>
      exact (ih (settled_push begun start follower) (by simp)).continued [c, follower] rfl rfl
  | case5 start current quote c rest inside plain ih =>
    cases current with
    | none => cases outside rfl
    | some word => exact (ih (settled_push begun start c) (by simp)).continued [c] rfl rfl
  | case6 start current c rest space ih => exact (ih nothing (by simp)).divided [c] current.toList
  | case7 start current c rest space opens ih =>
    have later := ih (settled_openQuote begun start c) (by simp)
    cases current with
    | some word =>
      rw [openQuote_some (begun word rfl)] at later ⊢
      exact later.continued [c] rfl rfl
    | none =>
      refine later.begun [c] (settled_openQuote begun start c _ rfl) rfl (fun d _ => ?_)
        (texts_open none rest opens)
      simp [openQuote_none]
  | case8 start current space opens ih =>
    rw [scan.eq_def]
    exact endsTyped_end begun ['\\']
  | case9 start current follower rest space opens ih =>
    exact (ih (settled_push begun start follower) (by simp)).pushed ['\\', follower] begun (by simp)
      (texts_escaped none rest)
  | case10 start current c space opens escapes operator follower after twice ih =>
    rw [List.append_cons]
    exact (ih nothing (by simp)).divided [c, follower] _
  | case11 start current c space opens escapes operator follower after once ih =>
    rw [List.append_cons]
    exact (ih nothing (by simp)).divided [c] _
  | case12 start current c space opens escapes operator ih =>
    rw [List.append_cons]
    exact (ih nothing (by simp)).divided [c] _
  | case13 start current c rest space opens escapes operator ih =>
    have plain : Plain c := ⟨by simpa using space, opens, escapes, by simpa using operator⟩
    exact (ih (settled_push begun start c) (by simp)).pushed [c] begun (by simpa using opens)
      (texts_plain none rest plain)

/-- A line ends with what is typed of the word under the cursor. -/
theorem exists_typedOf (line : List Char) :
    ∃ earlier token typed, tokens line = earlier ++ [token] ∧ token.isWord = true ∧
      line = line.take token.start ++ typed ∧ TypedOf token typed := by
  obtain ⟨earlier, token, cut, isWord, ⟨-, word, none, -⟩ | ⟨front, typed, rfl, place, isTyped⟩⟩ :=
    (endsTyped_scan (by simp) fun _ => rfl : EndsTyped 0 none line (tokens line))
  · cases none
  · refine ⟨earlier, token, typed, cut, isWord, ?_, isTyped⟩
    rw [place, Nat.zero_add, List.take_left]

/-! ### Candidates that begin with what is typed -/

open Text.ShellWords

/-- How a word may be typed so that a candidate written in its place begins with what is typed: not at all,
as the bare beginning of a candidate that needs no quotes, or between the quotes in which the candidate is
put. -/
inductive Keeps (token : WordToken) (typed : List Char) (candidate : String) : Prop
  | blank (nothing : typed = [])
  | bare (unquoted : token.quote = none) (verbatim : typed = token.text)
      (needless : quote? candidate = some candidate)
  | opened {quote : Char} (opens : token.quote = some quote) (verbatim : typed = quote :: token.text)
  | closed {quote : Char} (opens : token.quote = some quote)
      (whole : typed = quote :: (candidate.toList ++ [quote]))

/-- A candidate that is written in one piece: between the quotes of the word, of which it holds none and no
backslash that escapes there, or else bare or in quotes of its own. A caret is quoted apart from a bare
beginning, which may then be what is typed. -/
structure Tidy (token : WordToken) (candidate : String) : Prop where
  free : Text.NulFree candidate
  enclosed : ∀ quote ∈ token.quote, Encloses quote candidate.toList
  caret : token.quote = none → '^' ∉ candidate.toList

theorem prefix_append_cases {typed front back : List Char} (begins : typed <+: front ++ back) :
    typed <+: front ∨ ∃ more, typed = front ++ more ∧ more <+: back := by
  rcases List.prefix_or_prefix_of_prefix begins (List.prefix_append front back) with inner | ⟨more, rfl⟩
  · exact .inl inner
  · exact .inr ⟨more, rfl, (List.prefix_append_right_inj front).mp begins⟩

theorem eq_nil_or_blank_of_prefix {rest space : List Char} (gap : space = [] ∨ space = [' '])
    (begins : rest <+: space) : rest = [] ∨ rest = [' '] := by
  rcases gap with rfl | rfl
  · exact .inl (List.prefix_nil.mp begins)
  · simpa [List.prefix_cons_iff] using begins

theorem texts_bare {body : List Char} (holds : Quoting.bare.Holds body) (some : body ≠ []) :
    texts none none body = [body] := by
  obtain ⟨c, rest, rfl⟩ := List.exists_cons_of_ne_nil some
  have plain := plain_of_allows_bare (holds c List.mem_cons_self)
  have whole := texts_bare_append [c] [] fun d member => holds d (List.mem_cons_of_mem c member)
  rw [List.append_nil, texts_nil] at whole
  rw [texts_plain _ _ plain]
  exact whole

theorem Encloses.of_prefix {quote : Char} {front body : List Char} (encloses : Encloses quote body)
    (inner : front <+: body) : Encloses quote front :=
  ⟨fun member => encloses.1 (inner.subset member),
    fun double member => encloses.2 double (inner.subset member)⟩

section

variable {token : WordToken} {typed space : List Char} {candidate : String}

/-- A candidate that continues a word begins with what is typed of it, if it keeps that. -/
theorem Keeps.prefix_quoteLike (keeps : Keeps token typed candidate)
    (continues : token.text <+: candidate.toList) :
    typed <+: (Action.quoteLike token candidate).toList := by
  cases keeps with
  | blank nothing => exact nothing ▸ List.nil_prefix
  | bare unquoted verbatim needless =>
    rw [Action.quoteLike, unquoted, needless, verbatim]
    exact continues
  | opened opens verbatim =>
    rw [Action.quoteLike, opens, verbatim]
    simpa using continues.trans (List.prefix_append _ _)
  | closed opens whole =>
    rw [Action.quoteLike, opens, whole]
    simp

/-- What is typed between quotes, and begins a candidate between such quotes. -/
theorem keeps_of_quoted {quote : Char} (isTyped : TypedOf token typed)
    (isQuote : quote = '\'' ∨ quote = '"') (opens : token.quote = some quote)
    (encloses : Encloses quote candidate.toList) (gap : space = [] ∨ space = [' '])
    (begins : typed <+: quote :: (candidate.toList ++ quote :: space)) : Keeps token typed candidate := by
  obtain ⟨body, rfl⟩ := List.head?_eq_some_iff.mp ((isTyped.opens quote isQuote).mpr opens)
  have reads := isTyped.reads
  rw [texts_open _ _ isQuote, Option.getD_none] at reads
  have within (inner : body <+: candidate.toList) : Keeps token (quote :: body) candidate := by
    have whole := texts_inside [] [] (encloses.of_prefix inner)
    rw [List.append_nil, reads, texts_nil] at whole
    exact .opened opens (congrArg (quote :: ·) (by simpa using whole.symm))
  rcases prefix_append_cases (List.cons_prefix_cons.mp begins).2 with inner | ⟨more, rfl, behind⟩
  · exact within inner
  · rcases List.prefix_cons_iff.mp behind with rfl | ⟨rest, rfl, further⟩
    · exact within (by simp)
    · rw [texts_enclosed [] rest encloses] at reads
      rcases eq_nil_or_blank_of_prefix gap further with rfl | rfl
      · exact .closed opens rfl
      · simp [texts_blank] at reads

/-- What is typed without a quote in front, and begins a candidate that is quoted as needed. -/
theorem keeps_of_unquoted {quoted : String} (isTyped : TypedOf token typed) (unquoted : token.quote = none)
    (written : quote? candidate = some quoted) (caret : '^' ∉ candidate.toList)
    (gap : space = [] ∨ space = [' ']) (begins : typed <+: quoted.toList ++ space) :
    Keeps token typed candidate := by
  by_cases nothing : typed = []
  · exact .blank nothing
  obtain ⟨c, rest, rfl⟩ := List.exists_cons_of_ne_nil nothing
  rcases quote?_cases written caret with ⟨rfl, some, holds⟩ | ⟨d, tail, opened, isQuote⟩
  · have within (inner : c :: rest <+: quoted.toList) : Keeps token (c :: rest) quoted := by
      have whole := texts_bare (fun d member => holds d (inner.subset member)) nothing
      rw [isTyped.reads] at whole
      exact .bare unquoted (List.cons.inj whole).1.symm written
    rcases prefix_append_cases begins with inner | ⟨more, whole, behind⟩
    · exact within inner
    · rcases eq_nil_or_blank_of_prefix gap behind with rfl | rfl
      · exact within (by simp [whole])
      · obtain ⟨-, -, -, -, read⟩ := texts_quote? written
        have reads := isTyped.reads
        simp [whole, read, texts_blank] at reads
  · rw [opened, List.cons_append, List.cons_prefix_cons] at begins
    obtain rfl := begins.1
    have opens := (isTyped.opens c isQuote).mp rfl
    simp [unquoted] at opens

/-- A tidy candidate that is written in place of a word and begins with what is typed of it keeps that. -/
theorem keeps_of_prefix_quoteLike (isTyped : TypedOf token typed)
    (isQuote : ∀ c ∈ token.quote, c = '\'' ∨ c = '"') (tidy : Tidy token candidate)
    (gap : space = [] ∨ space = [' '])
    (begins : typed <+: (Action.quoteLike token candidate).toList ++ space) :
    Keeps token typed candidate := by
  cases opens : token.quote with
  | some quote =>
    rw [Action.quoteLike, opens] at begins
    exact keeps_of_quoted isTyped (isQuote quote opens) opens (tidy.enclosed quote opens) gap
      (by simpa using begins)
  | none =>
    obtain ⟨quoted, written, -⟩ := exists_quote?_of_not_mem tidy.free
    rw [Action.quoteLike, opens, written, Option.getD_some] at begins
    exact keeps_of_unquoted isTyped opens written (tidy.caret opens) gap begins

end

/-- The word under the cursor is the last one, also in the last command of a line. -/
theorem getLast?_filter_isWord {line : List Char} {earlier : List WordToken} {token : WordToken}
    (cut : tokens line = earlier ++ [token]) (isWord : token.isWord = true) (last : Bool) :
    ((if last then lastCommand (tokens line) else tokens line).filter WordToken.isWord).getLast? =
      some token := by
  cases last <;> simp [lastCommand, cut, isWord]

end TabSpec.WordToken

namespace TabSpec.Action

open WordToken

/-- A candidate in the place of a word behind a text, with a space where none is withheld. -/
def placed (front : String) (token : WordToken) (completion : Completion) (suggestion : Suggestion) :
    Suggestion :=
  { suggestion with
    value := front ++ quoteLike token suggestion.value ++
      if completion.suppressesSpace suggestion.value then "" else " " }

/-- Completing among the words of a line is putting into it what the action offers for the last one. -/
theorem exists_words_eq {context : Context} {earlier : List WordToken} {token : WordToken}
    (cut : tokens context.value.toList = earlier ++ [token]) (isWord : token.isWord = true)
    (last : Bool) (action : Action) :
    ∃ arguments, words last action context = intoLine (front context.value token) token <$>
      action { context with args := arguments, parts := [], value := String.ofList token.text } := by
  let line := tokens context.value.toList
  let before := ((if last then lastCommand line else line).filter WordToken.isWord).dropLast
  refine ⟨before.map fun word => String.ofList word.text, ?_⟩
  simp only [words, getLast?_filter_isWord cut isWord last]
  rfl

/-- A candidate in its place begins with what stands in front of the place and more exactly if it is written
with that in front, or with it and a space. -/
theorem startsWith_placed_iff (front : String) (token : WordToken) (completion : Completion)
    (suggestion : Suggestion) (typed : List Char) :
    ∃ space, (space = [] ∨ space = [' ']) ∧
      (Text.startsWith (front ++ String.ofList typed)
          (placed front token completion suggestion).value = true ↔
        typed <+: (quoteLike token suggestion.value).toList ++ space) := by
  refine ⟨(if completion.suppressesSpace suggestion.value then "" else " ").toList, ?_, ?_⟩
  · split <;> simp
  · simp [placed, Text.startsWith_iff, List.prefix_append_right_inj]

/-- Where only the candidates are kept that begin with the line, those that continue the word under the cursor
are kept if they keep what is typed of it. Of those that are written tidily, no others are. -/
theorem words_keeps_iff (last : Bool) (action : Action) (context : Context) :
    ∃ token arguments typed,
      (tokens context.value.toList).getLast? = some token ∧
      context.value = front context.value token ++ String.ofList typed ∧
      let inner := (action { context with
        args := arguments, parts := [], value := String.ofList token.text }).value
      let candidate := placed (front context.value token) token inner
      let completion := (words last action context).value
      completion.suggestions = inner.suggestions.map candidate ∧
      ∀ suggestion ∈ inner.suggestions,
        Text.startsWith (String.ofList token.text) suggestion.value = true →
        let kept := candidate suggestion ∈ (completion.filterPrefix context.value).suggestions
        (Keeps token typed suggestion.value → kept) ∧
        (Tidy token suggestion.value → kept → Keeps token typed suggestion.value) := by
  obtain ⟨earlier, token, typed, cut, isWord, line, isTyped⟩ := exists_typedOf context.value.toList
  obtain ⟨arguments, same⟩ := exists_words_eq cut isWord last action
  have isFrom : token.IsFrom context.value.toList := isFrom_of_mem_tokens (by simp [cut])
  have whole : context.value = front context.value token ++ String.ofList typed := by
    rw [front, ← String.ofList_append, ← line, String.ofList_toList]
  refine ⟨token, arguments, typed, by simp [cut], whole, ?_⟩
  intro inner candidate completion
  have made : completion.suggestions = inner.suggestions.map candidate := by
    simp only [completion, same]
    rfl
  refine ⟨made, fun suggestion member continues => ?_⟩
  intro kept
  obtain ⟨space, gap, begins⟩ :=
    startsWith_placed_iff (front context.value token) token inner suggestion typed
  rw [← whole] at begins
  have found : kept ↔ typed <+: (quoteLike token suggestion.value).toList ++ space := by
    simp only [kept, Completion.filterPrefix, List.mem_filter, made]
    exact ⟨fun found => begins.mp found.2, fun front => ⟨List.mem_map_of_mem member, begins.mpr front⟩⟩
  have grows : token.text <+: suggestion.value.toList := by
    simpa [Text.startsWith_iff] using continues
  refine ⟨fun keeps => ?_, fun tidy shown => ?_⟩
  · exact found.mpr ((keeps.prefix_quoteLike grows).trans (List.prefix_append _ space))
  · exact keeps_of_prefix_quoteLike isTyped isFrom.quote tidy gap (found.mp shown)

/-- A candidate is kept behind the double quote that opens the word. -/
theorem words_keeps_iff_sample :
    let context := { (default : Context) with value := "cmd \"wi" }
    Keeps ⟨.word, "wi".toList, 4, some '"'⟩ "\"wi".toList "with space" ∧
      { value := "cmd \"with space\" ", display := "with space" } ∈
        ((words false (ofValues ["with space"]) context).value.filterPrefix context.value).suggestions := by
  intro context
  have opened : Keeps ⟨.word, "wi".toList, 4, some '"'⟩ "\"wi".toList "with space" :=
    .opened rfl (by decide)
  refine ⟨opened, ?_⟩
  obtain ⟨token, arguments, typed, last, line, -, keeps⟩ :=
    words_keeps_iff false (ofValues ["with space"]) context
  have cut : (tokens "cmd \"wi".toList).getLast? = some ⟨.word, "wi".toList, 4, some '"'⟩ := by
    decide +kernel
  obtain rfl := Option.some.inj (last.symm.trans cut)
  have stands : front context.value ⟨.word, "wi".toList, 4, some '"'⟩ = "cmd " := by decide +kernel
  have begins : context.value.toList = "cmd ".toList ++ "\"wi".toList := by decide +kernel
  have whole := begins.symm.trans (congrArg String.toList line)
  rw [stands, String.toList_append] at whole
  obtain rfl := (List.append_cancel_left whole).trans String.toList_ofList
  have written : placed "cmd " ⟨.word, "wi".toList, 4, some '"'⟩ (.ofValues ["with space"])
      { value := "with space", display := "with space" } =
        { value := "cmd \"with space\" ", display := "with space" } := by
    decide +kernel
  rw [← written, ← stands]
  exact (keeps _ List.mem_cons_self (by decide)).1 opened

/-- A candidate that needs quotes is lost where it is typed without them. -/
theorem words_loses_candidate :
    let offered := ofValues ["with space"]
    let context := { (default : Context) with value := "wi" }
    tokens "wi".toList = [⟨.word, "wi".toList, 0, none⟩] ∧
      Text.startsWith "wi" "with space" = true ∧ Text.NulFree "with space" ∧
      (words false offered context).value.values = ["'with space' "] ∧
      (words true offered context).value.values = ["'with space' "] ∧
      ((words false offered context).value.filterPrefix context.value).suggestions = [] ∧
      ((words true offered context).value.filterPrefix context.value).suggestions = [] := by
  decide +kernel

end TabSpec.Action

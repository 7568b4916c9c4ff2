import TabSpec.Text.ShellWords

/-! A quoted text is read back as one word, wherever a line ends or a space follows. So no two texts
are quoted alike, and a space behind a quoted text is never taken for a part of it. -/
namespace TabSpec.Text.ShellWords

/-! ### One character at a time -/

/-- A character that opens no quotation, comment or gap and escapes nothing. -/
structure Ordinary (c : Char) : Prop where
  space : isSpace c = false
  comment : c ≠ '#'
  single : c ≠ '\''
  double : c ≠ '"'
  escape : c ≠ '\\'

theorem ordinary_of_allows_bare {c : Char} (bare : Quoting.bare.allows c = true) : Ordinary c := by
  have apart (d : Char) (special : Quoting.bare.allows d = false) : c ≠ d := by
    rintro rfl
    rw [bare] at special
    cases special
  have blank := apart ' ' (by decide)
  have tab := apart '\t' (by decide)
  have newline := apart '\n' (by decide)
  exact ⟨by simp [isSpace, blank, tab, newline], apart _ (by decide), apart _ (by decide),
    apart _ (by decide), apart _ (by decide)⟩

section

variable (word rest : List Char)

/-- Reading one character, in each mode but within a comment. -/
theorem read_cons (c : Char) :
    read .between word (c :: rest) =
      (if isSpace c then read .between word rest
      else if c = '#' then read .comment word rest
      else if c = '\'' then read .single [] rest
      else if c = '"' then read .double [] rest
      else if c = '\\' then
        match rest with
        | [] => none
        | d :: rest => read .bare (if d = '\n' then [] else [d]) rest
      else read .bare [c] rest) ∧
    read .bare word (c :: rest) =
      (if isSpace c then (read .between [] rest).map (word.reverse :: ·)
      else if c = '\'' then read .single word rest
      else if c = '"' then read .double word rest
      else if c = '\\' then
        match rest with
        | [] => none
        | d :: rest => read .bare (if d = '\n' then word else d :: word) rest
      else read .bare (c :: word) rest) ∧
    read .single word (c :: rest) =
      (if c = '\'' then read .bare word rest else read .single (c :: word) rest) ∧
    read .double word (c :: rest) =
      if c = '"' then read .bare word rest
      else if c = '\\' then
        match rest with
        | [] => none
        | d :: rest =>
          if d = '\n' then read .double word rest
          else if "$\x60\"\\".toList.contains d then read .double (d :: word) rest
          else read .double (d :: '\\' :: word) rest
      else read .double (c :: word) rest :=
  ⟨read.eq_def .., read.eq_def .., read.eq_def .., read.eq_def ..⟩

theorem read_between_space {c : Char} (space : isSpace c = true) :
    read .between word (c :: rest) = read .between word rest :=
  (read_cons ..).1.trans (if_pos space)

theorem read_between_single : read .between word ('\'' :: rest) = read .single [] rest :=
  (read_cons ..).1

theorem read_between_double : read .between word ('"' :: rest) = read .double [] rest :=
  (read_cons ..).1

theorem read_between_ordinary {c : Char} (ordinary : Ordinary c) :
    read .between word (c :: rest) = read .bare [c] rest := by
  rw [(read_cons word rest c).1]
  simp [ordinary.space, ordinary.comment, ordinary.single, ordinary.double, ordinary.escape]

theorem read_bare_space {c : Char} (space : isSpace c = true) :
    read .bare word (c :: rest) = (read .between [] rest).map (word.reverse :: ·) :=
  (read_cons ..).2.1.trans (if_pos space)

theorem read_bare_single : read .bare word ('\'' :: rest) = read .single word rest :=
  (read_cons ..).2.1

theorem read_bare_double : read .bare word ('"' :: rest) = read .double word rest :=
  (read_cons ..).2.1

theorem read_bare_ordinary {c : Char} (ordinary : Ordinary c) :
    read .bare word (c :: rest) = read .bare (c :: word) rest := by
  rw [(read_cons word rest c).2.1]
  simp [ordinary.space, ordinary.single, ordinary.double, ordinary.escape]

theorem read_single_close : read .single word ('\'' :: rest) = read .bare word rest :=
  (read_cons ..).2.2.1

theorem read_single_of_ne {c : Char} (inside : c ≠ '\'') :
    read .single word (c :: rest) = read .single (c :: word) rest :=
  (read_cons ..).2.2.1.trans (if_neg inside)

theorem read_double_close : read .double word ('"' :: rest) = read .bare word rest :=
  (read_cons ..).2.2.2

theorem read_double_escaped {c : Char} (special : c = '"' ∨ c = '\\') :
    read .double word ('\\' :: c :: rest) = read .double (c :: word) rest := by
  rcases special with rfl | rfl <;> exact (read_cons ..).2.2.2

theorem read_double_plain {c : Char} (plain : ¬ (c = '"' ∨ c = '\\')) :
    read .double word (c :: rest) = read .double (c :: word) rest := by
  obtain ⟨quote, escape⟩ := not_or.mp plain
  rw [(read_cons word rest c).2.2.2]
  simp [quote, escape]

end

/-! ### Reading what was written in one way -/

/-- Whether a text can be read back when it is written that way. -/
def Quoting.Holds (body : List Char) : Quoting → Prop
  | .bare => ∀ c ∈ body, Quoting.bare.allows c = true
  | .single => '\'' ∉ body
  | .double => True

theorem read_bare_append {body : List Char} (holds : Quoting.bare.Holds body)
    (word rest : List Char) :
    read .bare word (body ++ rest) = read .bare (body.reverse ++ word) rest := by
  induction body generalizing word with
  | nil => rfl
  | cons c body ih =>
    have ordinary := ordinary_of_allows_bare (holds c List.mem_cons_self)
    rw [List.cons_append, read_bare_ordinary _ _ ordinary,
      ih fun d member => holds d (List.mem_cons_of_mem c member)]
    simp

theorem read_single_append {body : List Char} (holds : Quoting.single.Holds body)
    (word rest : List Char) :
    read .single word (body ++ '\'' :: rest) = read .bare (body.reverse ++ word) rest := by
  induction body generalizing word with
  | nil => exact read_single_close word rest
  | cons c body ih =>
    have inside : c ≠ '\'' := fun same => holds (same ▸ List.mem_cons_self)
    rw [List.cons_append, read_single_of_ne _ _ inside,
      ih fun member => holds (List.mem_cons_of_mem c member)]
    simp

theorem read_double_append (body word rest : List Char) :
    read .double word ((body.flatMap fun c => if c = '"' ∨ c = '\\' then ['\\', c] else [c]) ++
      '"' :: rest) = read .bare (body.reverse ++ word) rest := by
  induction body generalizing word with
  | nil => exact read_double_close word rest
  | cons c body ih =>
    rw [List.flatMap_cons, List.append_assoc]
    by_cases special : c = '"' ∨ c = '\\'
    · rw [if_pos special]
      exact (read_double_escaped word _ special).trans ((ih (c :: word)).trans (by simp))
    · rw [if_neg special, List.singleton_append, read_double_plain _ _ special, ih]
      simp

theorem read_bare_write {way : Quoting} {body : List Char} (holds : way.Holds body)
    (word rest : List Char) :
    read .bare word (way.write body ++ rest) = read .bare (body.reverse ++ word) rest := by
  cases way with
  | bare => exact read_bare_append holds word rest
  | single =>
    simpa [Quoting.write, read_bare_single] using read_single_append holds word rest
  | double =>
    simpa [Quoting.write, read_bare_double] using read_double_append body word rest

/-- What is written of a text opens a word. -/
theorem read_between_write {way : Quoting} {body : List Char} (holds : way.Holds body)
    (some : body ≠ []) (rest : List Char) :
    read .between [] (way.write body ++ rest) = read .bare body.reverse rest := by
  cases way with
  | bare =>
    obtain ⟨c, body, rfl⟩ := List.exists_cons_of_ne_nil some
    have ordinary := ordinary_of_allows_bare (holds c List.mem_cons_self)
    rw [Quoting.write, List.cons_append, read_between_ordinary _ _ ordinary,
      read_bare_append fun d member => holds d (List.mem_cons_of_mem c member)]
    simp
  | single =>
    simpa [Quoting.write, read_between_single] using read_single_append holds [] rest
  | double =>
    simpa [Quoting.write, read_between_double] using read_double_append body [] rest

/-! ### The way a chunk is written -/

theorem body_append_after_chunk (ways : List Quoting) (text : List Char) :
    (chunk ways text).body ++ (chunk ways text).after = text := by
  induction text generalizing ways with
  | nil => rfl
  | cons c text ih =>
    simp only [chunk]
    split
    · rfl
    · simp [ih]

theorem ways_chunk_ne_nil {ways : List Quoting} (some : ways ≠ []) (text : List Char) :
    (chunk ways text).ways ≠ [] := by
  induction text generalizing ways with
  | nil => exact some
  | cons c text ih =>
    simp only [chunk]
    split
    · exact some
    · exact ih (List.cons_ne_nil _ _)

/-- The ways that are left for a chunk allow all of it. -/
theorem allows_of_mem_chunk {ways : List Quoting} {text : List Char} {way : Quoting}
    (left : way ∈ (chunk ways text).ways) :
    way ∈ ways ∧ ∀ c ∈ (chunk ways text).body, way.allows c = true := by
  induction text generalizing ways with
  | nil => exact ⟨left, by simp [chunk]⟩
  | cons c text ih =>
    simp only [chunk] at left ⊢
    split at left
    · rename_i none
      exact ⟨left, by simp⟩
    · rename_i first others allowed
      obtain ⟨remains, rest⟩ := ih left
      have allows : way ∈ ways.filter (Quoting.allows c) := allowed ▸ remains
      obtain ⟨member, opens⟩ := List.mem_filter.mp allows
      refine ⟨member, ?_⟩
      intro d inside
      rcases List.mem_cons.mp inside with rfl | later
      · exact opens
      · exact rest d later

/-- Only a caret can be written neither between single quotes nor between double ones. -/
theorem eq_caret_of_refuses {c : Char} (single : Quoting.single.allows c = false)
    (double : Quoting.double.allows c = false) : c = '^' := by
  by_cases quote : c = '\''
  · subst quote
    exact absurd double (by decide)
  by_cases escape : c = '\\'
  · subst escape
    exact absurd double (by decide)
  simpa [Quoting.allows, quote, escape] using single

theorem openers_ne_nil (c : Char) : openers c ≠ [] := by
  unfold openers
  split
  · simp
  · rename_i caret
    intro none
    have refused := List.filter_eq_nil_iff.mp none
    exact caret (eq_caret_of_refuses (by simpa using refused .single (by decide))
      (by simpa using refused .double (by decide)))

theorem holds_of_mem_chunk {c : Char} {text : List Char} {way : Quoting}
    (left : way ∈ (chunk (openers c) text).ways) :
    way.Holds (c :: (chunk (openers c) text).body) := by
  obtain ⟨opens, allowed⟩ := allows_of_mem_chunk left
  cases way with
  | double => trivial
  | bare =>
    have bare : Quoting.bare.allows c = true := by
      unfold openers at opens
      split at opens
      · simp at opens
      · exact (List.mem_filter.mp opens).2
    intro d member
    rcases List.mem_cons.mp member with rfl | later
    · exact bare
    · exact allowed d later
  | single =>
    -- A caret opens a single quotation although none may follow inside it.
    have apart : c ≠ '\'' := by
      rintro rfl
      exact absurd opens (by decide)
    intro member
    rcases List.mem_cons.mp member with same | later
    · exact apart same.symm
    · exact absurd (allowed _ later) (by decide)

/-- The way in which a chunk of a quoted text is written. -/
def wayOf (c : Char) (text : List Char) : Quoting :=
  (chunk (openers c) text).ways.head?.getD .double

theorem wayOf_mem_chunk (c : Char) (text : List Char) :
    wayOf c text ∈ (chunk (openers c) text).ways := by
  obtain ⟨way, ways, left⟩ :=
    List.exists_cons_of_ne_nil (ways_chunk_ne_nil (openers_ne_nil c) text)
  simp [wayOf, left]

theorem holds_wayOf (c : Char) (text : List Char) :
    (wayOf c text).Holds (c :: (chunk (openers c) text).body) :=
  holds_of_mem_chunk (wayOf_mem_chunk c text)

/-- A chunk ends in front of a character that no way left allows. -/
theorem refuses_of_mem_after_chunk {ways : List Quoting} {text : List Char} {c : Char}
    (next : c ∈ (chunk ways text).after.head?) :
    ∀ way ∈ (chunk ways text).ways, way.allows c = false := by
  induction text generalizing ways with
  | nil => cases next
  | cons d text ih =>
    simp only [chunk] at next ⊢
    split at next
    · rename_i none
      obtain rfl := Option.some.inj next
      intro way left
      simpa using List.filter_eq_nil_iff.mp none way left
    · exact ih next

/-- A way that allows all of a chunk is left for it. -/
theorem mem_chunk_of_allows {ways : List Quoting} {text : List Char} {way : Quoting} (member : way ∈ ways)
    (allows : ∀ c ∈ (chunk ways text).body, way.allows c = true) : way ∈ (chunk ways text).ways := by
  induction text generalizing ways with
  | nil => exact member
  | cons c text ih =>
    simp only [chunk] at allows ⊢
    split at allows
    · exact member
    · rename_i first others allowed
      have opens : way ∈ ways.filter (Quoting.allows c) :=
        List.mem_filter.mpr ⟨member, allows c List.mem_cons_self⟩
      exact ih (allowed ▸ opens) fun d inside => allows d (List.mem_cons_of_mem c inside)

theorem quoteChunks_cons (c : Char) (text : List Char) :
    quoteChunks (c :: text) =
      (wayOf c text).write (c :: (chunk (openers c) text).body) ++
        quoteChunks (chunk (openers c) text).after := by
  rw [quoteChunks]
  rfl

/-- What may be written bare may be written in every way. -/
theorem allows_of_allows_bare {c : Char} (bare : Quoting.bare.allows c = true) (way : Quoting) :
    way.allows c = true := by
  have apart (d : Char) (special : Quoting.bare.allows d = false) : c ≠ d := by
    rintro rfl
    rw [bare] at special
    cases special
  cases way with
  | bare => exact bare
  | single =>
    have quote := apart '\'' (by decide)
    have caret := apart '^' (by decide)
    have escape := apart '\\' (by decide)
    simp [Quoting.allows, quote, caret, escape]
  | double =>
    have command := apart '\x60' (by decide)
    have dollar := apart '$' (by decide)
    have mark := apart '!' (by decide)
    have caret := apart '^' (by decide)
    simp [Quoting.allows, command, dollar, mark, caret]

/-- The chunk of a text that begins with a bare character ends only in front of a caret. -/
theorem after_chunk_eq_nil {c : Char} {text : List Char} (way : wayOf c text = .bare) (caret : '^' ∉ text) :
    (chunk (openers c) text).after = [] := by
  have bare : ∀ d ∈ c :: (chunk (openers c) text).body, Quoting.bare.allows d = true := by
    have holds := holds_wayOf c text
    rwa [way] at holds
  have left (other : Quoting) : other ∈ (chunk (openers c) text).ways := by
    have opens : c ≠ '^' := by
      rintro rfl
      exact absurd (bare '^' List.mem_cons_self) (by decide)
    have member : other ∈ openers c := by
      rw [openers, if_neg opens, List.mem_filter]
      exact ⟨by cases other <;> decide, allows_of_allows_bare (bare c List.mem_cons_self) other⟩
    exact mem_chunk_of_allows member fun d inside =>
      allows_of_allows_bare (bare d (List.mem_cons_of_mem c inside)) other
  refine List.eq_nil_iff_forall_not_mem.mpr fun d member => ?_
  obtain ⟨first, others, behind⟩ := List.exists_cons_of_ne_nil (List.ne_nil_of_mem member)
  have refuses := refuses_of_mem_after_chunk (c := first) (by rw [behind]; rfl)
  obtain rfl := eq_caret_of_refuses (refuses _ (left .single)) (refuses _ (left .double))
  have whole := body_append_after_chunk (openers c) text
  rw [behind] at whole
  exact caret (whole ▸ List.mem_append_right _ List.mem_cons_self)

/-- A text without carets is written as it is, or opens with a quote. -/
theorem quoteChunks_cases {text : List Char} (caret : '^' ∉ text) :
    (quoteChunks text = text ∧ Quoting.bare.Holds text) ∨
      ∃ c tail, quoteChunks text = c :: tail ∧ (c = '\'' ∨ c = '"') := by
  cases text with
  | nil => exact .inl ⟨by rw [quoteChunks], by simp [Quoting.Holds]⟩
  | cons c text =>
    have holds := holds_wayOf c text
    have whole := body_append_after_chunk (openers c) text
    rw [quoteChunks_cons]
    cases way : wayOf c text with
    | bare =>
      have none := after_chunk_eq_nil way fun member => caret (List.mem_cons_of_mem c member)
      rw [none, List.append_nil] at whole
      rw [way, whole] at holds
      rw [none, quoteChunks, List.append_nil, whole]
      exact .inl ⟨rfl, holds⟩
    | single => exact .inr ⟨_, _, rfl, .inl rfl⟩
    | double => exact .inr ⟨_, _, rfl, .inr rfl⟩

/-! ### Reading quoted texts -/

theorem read_bare_quoteChunks (text word rest : List Char) :
    read .bare word (quoteChunks text ++ rest) = read .bare (text.reverse ++ word) rest := by
  induction text using quoteChunks.induct generalizing word with
  | case1 => rw [quoteChunks]; rfl
  | case2 c text ih =>
    have whole := body_append_after_chunk (openers c) text
    rw [quoteChunks_cons, List.append_assoc, read_bare_write (holds_wayOf c text), ih,
      ← List.append_assoc, ← List.reverse_append, List.cons_append, whole]

theorem read_between_quoteChunks {text : List Char} (some : text ≠ []) (rest : List Char) :
    read .between [] (quoteChunks text ++ rest) = read .bare text.reverse rest := by
  obtain ⟨c, text, rfl⟩ := List.exists_cons_of_ne_nil some
  have whole := body_append_after_chunk (openers c) text
  rw [quoteChunks_cons, List.append_assoc,
    read_between_write (holds_wayOf c text) (List.cons_ne_nil _ _), read_bare_quoteChunks,
    ← List.reverse_append, List.cons_append, whole]

/-- Every text but the empty one is quoted in chunks. -/
theorem toList_quote? {text quoted : String} (written : quote? text = some quoted) :
    (text.toList = [] ∧ quoted.toList = ['\'', '\'']) ∨
      (text.toList ≠ [] ∧ quoted.toList = quoteChunks text.toList) := by
  unfold quote? at written
  split at written
  · rename_i empty
    obtain rfl := Option.some.inj written
    exact .inl ⟨by rw [empty]; rfl, rfl⟩
  · rename_i nonempty
    split at written
    · cases written
    · obtain rfl := Option.some.inj written
      exact .inr ⟨by simpa using nonempty, String.toList_ofList⟩

/-- A text without carets is quoted as it is, or opens with a quote. -/
theorem quote?_cases {text quoted : String} (written : quote? text = some quoted)
    (caret : '^' ∉ text.toList) :
    (quoted = text ∧ text.toList ≠ [] ∧ Quoting.bare.Holds text.toList) ∨
      ∃ c tail, quoted.toList = c :: tail ∧ (c = '\'' ∨ c = '"') := by
  obtain ⟨-, whole⟩ | ⟨some, whole⟩ := toList_quote? written
  · exact .inr ⟨_, _, whole, .inl rfl⟩
  · rcases quoteChunks_cases caret with ⟨same, holds⟩ | ⟨c, tail, opened, isQuote⟩
    · exact .inl ⟨String.toList_inj.mp (whole.trans same), some, holds⟩
    · exact .inr ⟨c, tail, whole.trans opened, isQuote⟩

/-- A quoted text opens the next word. -/
theorem read_between_quoted {text quoted : String} (written : quote? text = some quoted)
    (rest : List Char) :
    read .between [] (quoted.toList ++ rest) = read .bare text.toList.reverse rest := by
  obtain ⟨empty, whole⟩ | ⟨some, whole⟩ := toList_quote? written
  · rw [whole, empty]
    exact (read_between_single [] _).trans (read_single_close [] _)
  · rw [whole, read_between_quoteChunks some]

/-- A quoted text is read as that one word, at the end of a line or before spaces. -/
theorem split?_quote? {text quoted : String} (written : quote? text = some quoted)
    (gap : String) (spaces : ∀ c ∈ gap.toList, isSpace c = true) :
    split? (quoted ++ gap) = some [text] := by
  have ended (gap : List Char) (spaces : ∀ c ∈ gap, isSpace c = true) :
      read .between [] gap = some [] := by
    induction gap with
    | nil => rfl
    | cons c gap ih =>
      rw [read_between_space _ _ (spaces c List.mem_cons_self)]
      exact ih fun d member => spaces d (List.mem_cons_of_mem c member)
  have closed (word : List Char) : read .bare word gap.toList = some [word.reverse] := by
    cases chars : gap.toList with
    | nil => rfl
    | cons c gap =>
      rw [chars] at spaces
      rw [read_bare_space _ _ (spaces c List.mem_cons_self),
        ended gap fun d member => spaces d (List.mem_cons_of_mem c member)]
      rfl
  rw [split?, String.toList_append, read_between_quoted written, closed]
  simp

/-- Texts that are quoted alike, with spaces behind them or not, are the same. -/
theorem eq_of_quote?_append {first second one other gap space : String}
    (firstWritten : quote? first = some one) (secondWritten : quote? second = some other)
    (gaps : ∀ c ∈ gap.toList, isSpace c = true) (spaces : ∀ c ∈ space.toList, isSpace c = true)
    (same : one ++ gap = other ++ space) : first = second := by
  have read := split?_quote? firstWritten gap gaps
  rw [same, split?_quote? secondWritten space spaces] at read
  simpa using read.symm

/-! ### What a quoted text is made of -/

theorem mem_of_mem_write {way : Quoting} {body : List Char} {c : Char} (member : c ∈ way.write body) :
    c ∈ body ∨ c ∈ ['\'', '"', '\\'] := by
  cases way with
  | bare => exact .inl member
  | single =>
    simp only [Quoting.write, List.mem_append, List.mem_cons] at member
    grind
  | double =>
    simp only [Quoting.write, List.mem_append, List.mem_cons, List.mem_flatMap] at member
    grind

/-- Quoting adds quotes and backslashes only. -/
theorem mem_of_mem_quoteChunks {text : List Char} {c : Char} (member : c ∈ quoteChunks text) :
    c ∈ text ∨ c ∈ ['\'', '"', '\\'] := by
  induction text using quoteChunks.induct with
  | case1 => simp [quoteChunks] at member
  | case2 d text ih =>
    have whole := body_append_after_chunk (openers d) text
    rw [quoteChunks_cons] at member
    rw [← whole]
    rcases List.mem_append.mp member with early | late
    · exact (mem_of_mem_write early).imp_left (List.mem_append_left _ ·)
    · exact (ih late).imp_left fun inside =>
        List.mem_cons_of_mem _ (List.mem_append_right _ inside)

/-- A text without NUL can be quoted, which adds quotes and backslashes only. -/
theorem exists_quote? {text : String} (free : '\x00' ∉ text.toList) :
    ∃ quoted, quote? text = some quoted ∧
      ∀ c ∈ quoted.toList, c ∈ text.toList ∨ c ∈ ['\'', '"', '\\'] := by
  unfold quote?
  split
  · refine ⟨"''", rfl, fun c member => .inr ?_⟩
    obtain rfl : c = '\'' := by simpa using member
    exact List.mem_cons_self
  · rw [if_neg (by simpa using free)]
    refine ⟨_, rfl, fun c member => mem_of_mem_quoteChunks ?_⟩
    rwa [String.toList_ofList] at member

theorem exists_quote?_of_not_mem {text : String} (free : '\x00' ∉ text.toList) :
    ∃ quoted, quote? text = some quoted ∧ '\x00' ∉ quoted.toList := by
  obtain ⟨quoted, written, made⟩ := exists_quote? free
  refine ⟨quoted, written, fun member => ?_⟩
  rcases made _ member with inside | added
  · exact free inside
  · exact absurd added (by decide)

/-! ### Lines of words -/

theorem mapM_quote?_cons_iff {word : String} {words quoted : List String} :
    (word :: words).mapM quote? = some quoted ↔
      ∃ first others, quoted = first :: others ∧ quote? word = some first ∧
        words.mapM quote? = some others := by
  rw [List.mapM_cons, Option.bind_eq_bind, Option.bind_eq_some_iff]
  constructor
  · rintro ⟨first, writtenFirst, more⟩
    obtain ⟨others, writtenOthers, same⟩ := Option.bind_eq_some_iff.mp more
    exact ⟨first, others, (Option.some.inj same).symm, writtenFirst, writtenOthers⟩
  · rintro ⟨first, others, rfl, writtenFirst, writtenOthers⟩
    exact ⟨first, writtenFirst, Option.bind_eq_some_iff.mpr ⟨others, writtenOthers, rfl⟩⟩

theorem read_between_line {words quoted : List String}
    (written : words.mapM quote? = some quoted) :
    read .between [] ([' '].intercalate (quoted.map String.toList)) =
      some (words.map String.toList) := by
  induction words generalizing quoted with
  | nil =>
    obtain rfl := Option.some.inj written
    rfl
  | cons word words ih =>
    obtain ⟨first, others, rfl, writtenFirst, writtenOthers⟩ := mapM_quote?_cons_iff.mp written
    have behind := ih writtenOthers
    cases others with
    | nil =>
      have none : words = [] := List.map_eq_nil_iff.mp (Option.some.inj behind).symm
      have alone := read_between_quoted writtenFirst []
      rw [List.append_nil] at alone
      rw [none, List.map_singleton, List.intercalate_singleton, alone, read, List.reverse_reverse,
        List.map_singleton]
    | cons second others =>
      rw [List.map_cons, List.map_cons, List.intercalate_cons_cons, ← List.map_cons,
        List.append_assoc, read_between_quoted writtenFirst, List.singleton_append,
        read_bare_space _ _ rfl, behind, List.reverse_reverse, Option.map_some, List.map_cons]

/-- The words of a line are those it was made of. -/
theorem split?_join? {words : List String} {line : String} (written : join? words = some line) :
    split? line = some words := by
  obtain ⟨quoted, quotes, rfl⟩ := Option.map_eq_some_iff.mp written
  rw [split?, String.toList_intercalate]
  simp [read_between_line quotes]

/-- The character that ends a quoted text. -/
def Closes (c : Char) : Prop := Quoting.bare.allows c = true ∨ c = '\'' ∨ c = '"'

theorem exists_getLast?_write {way : Quoting} {body : List Char} (holds : way.Holds body)
    (some : body ≠ []) : ∃ c, (way.write body).getLast? = .some c ∧ Closes c := by
  cases way with
  | bare =>
    have last := List.getLast?_eq_some_getLast some
    exact ⟨_, last, .inl (holds _ (List.mem_of_getLast? last))⟩
  | single => exact ⟨_, List.getLast?_concat, .inr (.inl rfl)⟩
  | double => exact ⟨_, List.getLast?_concat, .inr (.inr rfl)⟩

theorem exists_getLast?_quoteChunks {text : List Char} (some : text ≠ []) :
    ∃ c, (quoteChunks text).getLast? = .some c ∧ Closes c := by
  induction text using quoteChunks.induct with
  | case1 => exact absurd rfl some
  | case2 c text ih =>
    rw [quoteChunks_cons, List.getLast?_append]
    by_cases more : (chunk (openers c) text).after = []
    · rw [more, quoteChunks]
      exact exists_getLast?_write (holds_wayOf c text) (List.cons_ne_nil _ _)
    · obtain ⟨d, last, closes⟩ := ih more
      exact ⟨d, by rw [last]; rfl, closes⟩

theorem exists_getLast?_quote? {text quoted : String} (written : quote? text = some quoted) :
    ∃ c, quoted.toList.getLast? = some c ∧ Closes c := by
  obtain ⟨-, whole⟩ | ⟨some, whole⟩ := toList_quote? written
  · exact ⟨'\'', by rw [whole]; rfl, .inr (.inl rfl)⟩
  · rw [whole]
    exact exists_getLast?_quoteChunks some

/-- A line of words ends where its last word does. -/
theorem exists_getLast?_join? {words : List String} {line : String}
    (written : join? words = some line) (some : words ≠ []) :
    ∃ c, line.toList.getLast? = .some c ∧ Closes c := by
  obtain ⟨quoted, quotes, rfl⟩ := Option.map_eq_some_iff.mp written
  rw [String.toList_intercalate]
  clear written
  induction words generalizing quoted with
  | nil => exact absurd rfl some
  | cons word words ih =>
    obtain ⟨first, others, rfl, writtenFirst, writtenOthers⟩ := mapM_quote?_cons_iff.mp quotes
    cases words with
    | nil =>
      obtain rfl : [] = others := Option.some.inj writtenOthers
      rw [List.map_singleton]
      exact List.intercalate_singleton ▸ exists_getLast?_quote? writtenFirst
    | cons next words =>
      obtain ⟨c, last, closes⟩ := ih (List.cons_ne_nil _ _) others writtenOthers
      obtain ⟨second, others, rfl, _, _⟩ := mapM_quote?_cons_iff.mp writtenOthers
      refine ⟨c, ?_, closes⟩
      rw [List.map_cons, List.map_cons, List.intercalate_cons_cons, ← List.map_cons,
        List.getLast?_append, last]
      rfl

theorem mem_of_mem_intercalate {separator : List Char} {parts : List (List Char)} {c : Char}
    (member : c ∈ separator.intercalate parts) : (∃ part ∈ parts, c ∈ part) ∨ c ∈ separator := by
  induction parts with
  | nil => cases member
  | cons part parts ih =>
    cases parts with
    | nil => exact .inl ⟨part, List.mem_cons_self, by simpa using member⟩
    | cons next parts =>
      rw [List.intercalate_cons_cons] at member
      rcases List.mem_append.mp member with early | late
      · exact (List.mem_append.mp early).imp_left (⟨part, List.mem_cons_self, ·⟩)
      · refine (ih late).imp_left ?_
        rintro ⟨other, found, inside⟩
        exact ⟨other, List.mem_cons_of_mem part found, inside⟩

/-- Words without NUL make up a line of their characters, quotes, backslashes and spaces. -/
theorem exists_join? {words : List String} (free : ∀ word ∈ words, '\x00' ∉ word.toList) :
    ∃ line, join? words = some line ∧
      ∀ c ∈ line.toList, (∃ word ∈ words, c ∈ word.toList) ∨ c ∈ [' ', '\'', '"', '\\'] := by
  have written : ∃ quoted, words.mapM quote? = some quoted ∧
      ∀ part ∈ quoted, ∀ c ∈ part.toList,
        (∃ word ∈ words, c ∈ word.toList) ∨ c ∈ [' ', '\'', '"', '\\'] := by
    induction words with
    | nil => exact ⟨[], rfl, by simp⟩
    | cons word words ih =>
      obtain ⟨first, writtenFirst, made⟩ := exists_quote? (free word List.mem_cons_self)
      obtain ⟨others, writtenOthers, madeOthers⟩ :=
        ih fun later member => free later (List.mem_cons_of_mem word member)
      refine ⟨first :: others, mapM_quote?_cons_iff.mpr ⟨first, others, rfl, writtenFirst,
        writtenOthers⟩, ?_⟩
      intro part member c inside
      rcases List.mem_cons.mp member with rfl | later
      · exact (made c inside).imp (⟨word, List.mem_cons_self, ·⟩) (List.mem_cons_of_mem _ ·)
      · refine (madeOthers part later c inside).imp_left ?_
        rintro ⟨other, found, holds⟩
        exact ⟨other, List.mem_cons_of_mem word found, holds⟩
  obtain ⟨quoted, quotes, made⟩ := written
  refine ⟨String.intercalate " " quoted, Option.map_eq_some_iff.mpr ⟨quoted, quotes, rfl⟩, ?_⟩
  intro c member
  rw [String.toList_intercalate] at member
  rcases mem_of_mem_intercalate member with ⟨chars, found, inside⟩ | gap
  · obtain ⟨part, listed, rfl⟩ := List.mem_map.mp found
    exact made part listed c inside
  · obtain rfl : c = ' ' := by simpa using gap
    exact .inr List.mem_cons_self

/-- The words of a text are made of its characters: no step adds another to the current word. -/
theorem mem_of_read {mode : Mode} {word text : List Char} {words : List (List Char)}
    (found : read mode word text = some words) :
    ∀ part ∈ words, ∀ c ∈ part, c ∈ word ∨ c ∈ text := by
  fun_induction read mode word text generalizing words <;> grind [Option.map_eq_some_iff]

end TabSpec.Text.ShellWords

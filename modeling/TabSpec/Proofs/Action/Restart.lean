import TabSpec.Proofs.Action.LastCommand

/-! Reading a line anew at the word under the cursor. The tokens of a line begin one behind another, and the
text in front of the last one is read as the tokens in front of it: no quotation is open there, and
neither an escape nor an operator is cut in two. -/
namespace TabSpec.WordToken

/-! ### Places -/

/-- Tokens that begin one behind another, from `first` to `last`. -/
structure Increasing (first last : Nat) (tokens : List WordToken) : Prop where
  pairwise : tokens.Pairwise (·.start < ·.start)
  least : ∀ token ∈ tokens, first ≤ token.start
  most : ∀ token ∈ tokens, token.start ≤ last

section

variable {first next last : Nat} {tokens : List WordToken} {token : WordToken}

theorem increasing_single (above : first ≤ token.start) (below : token.start ≤ last) :
    Increasing first last [token] := ⟨by simp, by simpa using above, by simpa using below⟩

theorem Increasing.startingFrom (increasing : Increasing next last tokens) (le : first ≤ next) :
    Increasing first last tokens :=
  ⟨increasing.pairwise, fun token member => Nat.le_trans le (increasing.least token member),
    increasing.most⟩

/-- A token in front of those that begin behind it. -/
theorem Increasing.cons (further : Increasing next last tokens) (above : first ≤ token.start)
    (before : token.start < next) (below : token.start ≤ last) :
    Increasing first last (token :: tokens) where
  pairwise := List.pairwise_cons.mpr
    ⟨fun later member => Nat.lt_of_lt_of_le before (further.least later member), further.pairwise⟩
  least := List.forall_mem_cons.mpr
    ⟨above, (further.startingFrom (Nat.le_trans above (Nat.le_of_lt before))).least⟩
  most := List.forall_mem_cons.mpr ⟨below, further.most⟩

end

/-! ### Reading up to the last word -/

/-- The current word began in front of the place where reading goes on. -/
def Begun (start : Nat) (current : Option WordToken) : Prop :=
  ∀ word ∈ current, word.isWord = true ∧ word.start < start

/-- Where the current word begins, or else the next one would. -/
def beginning (start : Nat) (current : Option WordToken) : Nat := (current.getD (emptyWord start)).start

/-- Tokens that are read from a state, one behind another and with a word at the end. It is the current
word; or else reading ends in front of it with the same tokens and with nothing begun. -/
structure Anew (start : Nat) (current : Option WordToken) (quote : Option Char) (rest : List Char)
    (tokens : List WordToken) : Prop where
  increasing : Increasing (beginning start current) (start + rest.length) tokens
  restarts : ∃ earlier token, tokens = earlier ++ [token] ∧ token.isWord = true ∧
    ((earlier = [] ∧ ∃ word ∈ current, token.start = word.start) ∨
      ∃ front, front <+: rest ∧ token.start = start + front.length ∧
        scan start current quote front = earlier ++ [emptyWord token.start])

section

variable {start : Nat} {current : Option WordToken} {quote next : Option Char}
  {rest : List Char} {tokens : List WordToken} {word : WordToken} (seen : List Char)

theorem begun_none (start : Nat) : Begun start none := by simp [Begun]

theorem Begun.beginning_le (begun : Begun start current) : beginning start current ≤ start := by
  cases current with
  | none => exact Nat.le_refl start
  | some word => exact Nat.le_of_lt (begun word rfl).2

theorem Begun.isWord (begun : Begun start current) : ∀ word ∈ current, word.isWord = true :=
  fun word member => (begun word member).1

/-- What goes on with the current word, or begins one. -/
theorem Begun.goesOn (begun : Begun start current) (isWord : ∀ other ∈ some word, other.isWord = true)
    (begins : word.start = beginning start current) {count : Nat} (positive : 0 < count) :
    Begun (start + count) (some word) := by
  intro other member
  refine ⟨isWord other member, ?_⟩
  have place := begun.beginning_le
  rw [← Option.some.inj member, begins]
  omega

/-- The current word ends in front of further tokens. -/
theorem Begun.ended (begun : Begun start current) {last : Nat} (further : Increasing start last tokens)
    (within : start ≤ last) :
    Increasing (beginning start current) last (current.toList ++ tokens) := by
  cases current with
  | none => exact further
  | some word =>
    have before : word.start < start := (begun word rfl).2
    exact further.cons (Nat.le_refl _) before (Nat.le_trans (Nat.le_of_lt before) within)

/-- What is seen goes to the current word, or begins one. -/
theorem Anew.continued (outside : current = none → quote = none)
    (begins : word.start = beginning start current)
    (reads : ∀ more, scan start current quote (seen ++ more) =
      scan (start + seen.length) (some word) next more)
    (later : Anew (start + seen.length) (some word) next rest tokens) :
    Anew start current quote (seen ++ rest) tokens := by
  obtain ⟨increasing, earlier, token, rfl, isWord, place⟩ := later
  refine ⟨?_, earlier, token, rfl, isWord, ?_⟩
  · rw [List.length_append, ← Nat.add_assoc]
    exact increasing.startingFrom (Nat.le_of_eq begins.symm)
  · rcases place with ⟨rfl, same, found, place⟩ | ⟨front, inside, place, again⟩
    · obtain rfl := Option.some.inj found
      cases current with
      | some first => exact .inl ⟨rfl, first, rfl, place.trans begins⟩
      | none =>
        obtain rfl := outside rfl
        have here : token.start = start := place.trans begins
        exact .inr ⟨[], List.nil_prefix, here, by rw [here]; rfl⟩
    · refine .inr ⟨seen ++ front, by simpa using inside, ?_, ?_⟩
      · rw [place, List.length_append, Nat.add_assoc]
      · rw [reads, again]

/-- What is seen ends the current word, and may be an operator. -/
theorem Anew.ended (begun : Begun start current) (operator : Option WordToken)
    (here : ∀ token ∈ operator, token.start = start) (filled : 0 < seen.length)
    (reads : ∀ more, more <+: rest → scan start current none (seen ++ more) =
      current.toList ++ (operator.toList ++ scan (start + seen.length) none none more))
    (later : Anew (start + seen.length) none none rest tokens) :
    Anew start current none (seen ++ rest) (current.toList ++ (operator.toList ++ tokens)) := by
  obtain ⟨increasing, earlier, token, rfl, isWord, ⟨-, word, nothing, -⟩ | ⟨front, inside, place, again⟩⟩ :=
    later
  · cases nothing
  · refine ⟨?_, current.toList ++ (operator.toList ++ earlier), token, by simp, isWord,
      .inr ⟨seen ++ front, by simpa using inside, ?_, ?_⟩⟩
    · rw [List.length_append, ← Nat.add_assoc]
      refine begun.ended ?_ (by omega)
      cases operator with
      | none => exact increasing.startingFrom (Nat.le_add_right ..)
      | some token =>
        have place := here token rfl
        exact increasing.cons (Nat.le_of_eq place.symm) (by rw [place]; exact Nat.lt_add_of_pos_right filled)
          (by omega)
    · rw [place, List.length_append, Nat.add_assoc]
    · rw [reads front inside, again]
      simp

/-- What is left of a line where it ends, behind a backslash or not. -/
theorem anew_end (begun : Begun start current) (outside : current = none → quote = none)
    (ends : scan start current quote seen = [current.getD (emptyWord (start + seen.length))]) :
    Anew start current quote seen [current.getD (emptyWord (start + seen.length))] := by
  have place := begun.beginning_le
  cases current with
  | some word =>
    exact ⟨increasing_single (Nat.le_refl _) (Nat.le_trans place (Nat.le_add_right ..)),
      [], word, rfl, begun.isWord word rfl, .inl ⟨rfl, word, rfl, rfl⟩⟩
  | none =>
    obtain rfl := outside rfl
    exact ⟨increasing_single (Nat.le_add_right ..) (Nat.le_refl _),
      [], _, rfl, rfl, .inr ⟨seen, List.prefix_rfl, rfl, ends⟩⟩

end

/-- Reading can be taken up anew from every state that can be reached: within a quotation there is a
current word. -/
theorem anew_scan {start : Nat} {current : Option WordToken} {quote : Option Char} {rest : List Char}
    (begun : Begun start current) (outside : current = none → quote = none) :
    Anew start current quote rest (scan start current quote rest) := by
  fun_induction scan start current quote rest with
  | case1 quote start current => exact anew_end [] begun outside (scan.eq_def ..)
  | case2 start current quote rest ih =>
    cases current with
    | none => cases outside rfl
    | some word =>
      have same : word.start = beginning start (some word) := rfl
      refine (ih (begun.goesOn begun.isWord same Nat.one_pos) (by simp)).continued [quote] outside same
        fun more => ?_
      rw [List.singleton_append, scan.eq_def]
      simp only [if_pos, List.length_singleton]
  | case3 start current quote c inside escapes ih =>
    rw [scan.eq_def]
    refine anew_end [c] begun outside ?_
    rw [scan.eq_def]
    simp only [if_neg inside, if_pos escapes]
    exact scan.eq_def ..
  | case4 start current quote c inside escapes follower rest ih =>
    refine (ih (begun.goesOn (isWord_push begun.isWord start follower) (start_push ..)
      Nat.two_pos)
      (by simp)).continued [c, follower] outside (start_push ..) fun more => ?_
    rw [List.cons_append, scan.eq_def]
    simp only [if_neg inside, if_pos escapes]
    rfl
  | case5 start current quote c rest inside plain ih =>
    refine (ih (begun.goesOn (isWord_push begun.isWord start c) (start_push ..)
      Nat.one_pos)
      (by simp)).continued [c] outside (start_push ..) fun more => ?_
    rw [List.cons_append, scan.eq_def]
    simp only [if_neg inside, if_neg plain]
    rfl
  | case6 start current c rest space ih =>
    refine (ih (begun_none _) (by simp)).ended [c] begun none (by simp) Nat.one_pos
      fun more _ => ?_
    rw [List.cons_append, scan.eq_def]
    simp only [if_pos space]
    rfl
  | case7 start current c rest space opens ih =>
    refine (ih (begun.goesOn (isWord_openQuote begun.isWord start c) (start_openQuote ..) Nat.one_pos)
      (by simp)).continued [c] outside (start_openQuote ..) fun more => ?_
    rw [List.cons_append, scan.eq_def]
    simp only [if_neg space, if_pos opens]
    rfl
  | case8 start current space opens ih =>
    rw [scan.eq_def]
    refine anew_end ['\\'] begun outside ?_
    rw [scan.eq_def]
    simp only [if_neg space, if_neg opens, if_pos]
    exact scan.eq_def ..
  | case9 start current follower rest space opens ih =>
    refine (ih (begun.goesOn (isWord_push begun.isWord start follower) (start_push ..)
      Nat.two_pos)
      (by simp)).continued ['\\', follower] outside (start_push ..) fun more => ?_
    rw [List.cons_append, scan.eq_def]
    simp only [if_neg space, if_neg opens, if_pos]
    rfl
  | case10 start current c space opens escapes operator follower after twice ih =>
    refine (ih (begun_none _) (by simp)).ended [c, follower] begun
      (some ⟨.operator, [c, c], start, none⟩) (by simp) Nat.two_pos fun more _ => ?_
    rw [List.cons_append, scan.eq_def]
    simp only [if_neg space, if_neg opens, if_neg escapes, if_pos operator]
    simp only [List.cons_append, if_pos twice]
    rfl
  | case11 start current c space opens escapes operator follower after once ih =>
    refine (ih (begun_none _) (by simp)).ended [c] begun
      (some ⟨.operator, [c], start, none⟩) (by simp) Nat.one_pos fun more inside => ?_
    -- What is left of the next character does not double the operator either.
    rcases List.prefix_cons_iff.mp inside with rfl | ⟨more, rfl, -⟩
    · rw [List.append_nil, scan.eq_def]
      simp only [if_neg space, if_neg opens, if_neg escapes, if_pos operator]
      rfl
    · rw [List.singleton_append, scan.eq_def]
      simp only [if_neg space, if_neg opens, if_neg escapes, if_pos operator, if_neg once]
      rfl
  | case12 start current c space opens escapes operator ih =>
    refine (ih (begun_none _) (by simp)).ended [c] begun
      (some ⟨.operator, [c], start, none⟩) (by simp) Nat.one_pos fun more inside => ?_
    obtain rfl := List.prefix_nil.mp inside
    rw [List.cons_append, scan.eq_def]
    simp only [if_neg space, if_neg opens, if_neg escapes, if_pos operator]
    rfl
  | case13 start current c rest space opens escapes operator ih =>
    refine (ih (begun.goesOn (isWord_push begun.isWord start c) (start_push ..)
      Nat.one_pos)
      (by simp)).continued [c] outside (start_push ..) fun more => ?_
    rw [List.cons_append, scan.eq_def]
    simp only [if_neg space, if_neg opens, if_neg escapes, if_neg operator]
    rfl

theorem anew_tokens (line : List Char) : Anew 0 none none line (tokens line) :=
  anew_scan (begun_none 0) fun _ => rfl

/-- The tokens of a line begin one behind another, and none behind its end. -/
theorem increasing_tokens (line : List Char) : Increasing 0 line.length (tokens line) := by
  have increasing := (anew_tokens line).increasing
  rwa [Nat.zero_add] at increasing

/-- The text in front of the word under the cursor is read as the tokens in front of it. -/
theorem tokens_take (line : List Char) :
    ∃ earlier token, tokens line = earlier ++ [token] ∧ token.isWord = true ∧
      tokens (line.take token.start) = earlier ++ [emptyWord token.start] := by
  obtain ⟨earlier, token, cut, isWord, ⟨-, word, nothing, -⟩ | ⟨front, inside, place, again⟩⟩ :=
    (anew_tokens line).restarts
  · cases nothing
  · rw [Nat.zero_add] at place
    have typed : line.take token.start = front := by
      rw [place]
      exact (List.prefix_iff_eq_take.mp inside).symm
    exact ⟨earlier, token, cut, isWord, by rw [typed]; exact again⟩

/-! ### Places in octets -/

/-- How many octets stand in front of a place. -/
def octetsBefore (line : List Char) (place : Nat) : Nat := (String.ofList (line.take place)).utf8ByteSize

/-- The token with its place counted in octets. -/
def inOctets (line : List Char) (token : WordToken) : WordToken :=
  { token with start := octetsBefore line token.start }

/-- The tokens of a line with their places counted in octets. -/
def octetTokens (line : String) : List WordToken := (tokens line.toList).map (inOctets line.toList)

theorem octetsBefore_lt {line : List Char} {first second : Nat} (before : first < second)
    (within : second ≤ line.length) : octetsBefore line first < octetsBefore line second := by
  obtain ⟨distance, rfl⟩ := Nat.exists_eq_add_of_lt before
  have between : (line.drop first).take (distance + 1) ≠ [] := by
    rw [ne_eq, List.take_eq_nil_iff, List.drop_eq_nil_iff]
    omega
  have filled : (String.ofList ((line.drop first).take (distance + 1))).utf8ByteSize ≠ 0 := by
    simpa [String.utf8ByteSize_eq_zero_iff] using between
  rw [Nat.add_assoc, octetsBefore, octetsBefore, List.take_add, String.ofList_append,
    String.utf8ByteSize_append]
  omega

theorem octetsBefore_append {front back : List Char} {place : Nat} (within : place ≤ front.length) :
    octetsBefore (front ++ back) place = octetsBefore front place := by
  rw [octetsBefore, octetsBefore, List.take_append_of_le_length within]

/-- More text behind does not move a token. -/
theorem inOctets_append {front back : List Char} {token : WordToken}
    (within : token.start ≤ front.length) :
    inOctets (front ++ back) token = inOctets front token := by
  rw [inOctets, octetsBefore_append within, inOctets]

/-- A line is cut at a place, into the octets in front of it and those behind. -/
theorem exists_cut (line : String) (place : Nat) :
    ∃ front back, line = front ++ back ∧ front.toList = line.toList.take place ∧
      front.utf8ByteSize = octetsBefore line.toList place := by
  refine ⟨String.ofList (line.toList.take place), String.ofList (line.toList.drop place), ?_,
    String.toList_ofList, rfl⟩
  rw [← String.ofList_append, List.take_append_drop, String.ofList_toList]

theorem isValid_octetsBefore (line : String) (place : Nat) :
    String.Pos.Raw.IsValid line ⟨octetsBefore line.toList place⟩ := by
  obtain ⟨front, back, whole, -, size⟩ := exists_cut line place
  exact String.Pos.Raw.isValid_iff_exists_append.mpr
    ⟨front, back, whole, congrArg String.Pos.Raw.mk size.symm⟩

/-- A line ends with a word, the one under the cursor. Its tokens begin one behind another, each between
two characters; and the text up to that word is read as the tokens in front of it, with nothing begun
behind them. -/
theorem octetTokens_restart (line : String) :
    ∃ earlier token, octetTokens line = earlier ++ [token] ∧ token.kind = .word ∧
      (octetTokens line).Pairwise (·.start < ·.start) ∧
      (∀ other ∈ octetTokens line, String.Pos.Raw.IsValid line ⟨other.start⟩) ∧
      token.start ≤ line.utf8ByteSize ∧
      ∃ front back, line = front ++ back ∧ front.utf8ByteSize = token.start ∧
        octetTokens front = earlier ++ [emptyWord token.start] := by
  obtain ⟨earlier, token, cut, isWord, again⟩ := tokens_take line.toList
  obtain ⟨pairwise, -, most⟩ := increasing_tokens line.toList
  obtain ⟨front, back, whole, typed, size⟩ := exists_cut line token.start
  refine ⟨earlier.map (inOctets line.toList), inOctets line.toList token, by simp [octetTokens, cut],
    of_decide_eq_true isWord, ?_, ?_, (isValid_octetsBefore ..).le_utf8ByteSize,
    front, back, whole, size, ?_⟩
  · rw [octetTokens, List.pairwise_map]
    refine pairwise.imp_of_mem fun {_ later} _ member before => ?_
    exact octetsBefore_lt before (most later member)
  · intro other member
    obtain ⟨token, -, rfl⟩ := List.mem_map.mp member
    exact isValid_octetsBefore ..
  · have same : octetTokens front = (tokens front.toList).map (inOctets line.toList) := by
      refine List.map_congr_left fun other member => ?_
      rw [whole, String.toList_append,
        inOctets_append ((increasing_tokens front.toList).most other member)]
    rw [same, typed, again, List.map_append]
    rfl

/-- A quotation that is still open behind letters of two octets. -/
example : octetTokens "äö 'ü|" =
    [⟨.word, ['ä', 'ö'], 0, none⟩, ⟨.word, ['ü', '|'], 5, some '\''⟩] := by decide +kernel

end TabSpec.WordToken

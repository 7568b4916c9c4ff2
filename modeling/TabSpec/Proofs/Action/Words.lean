import TabSpec.Action.Words

/-! What the tokens of a command line are made of. -/
namespace TabSpec.WordToken

/-- A token whose text is taken from a line, and which is opened by a quote if by anything. -/
structure IsFrom (line : List Char) (token : WordToken) : Prop where
  text : token.text ⊆ line
  quote : ∀ c ∈ token.quote, c = '\'' ∨ c = '"'

variable {line : List Char}

theorem isFrom_emptyWord (start : Nat) : (emptyWord start).IsFrom line :=
  ⟨List.nil_subset _, by simp [emptyWord]⟩

/-- The current word, or else the one that begins here. -/
theorem isFrom_getD {current : Option WordToken} (begun : ∀ word ∈ current, word.IsFrom line)
    (start : Nat) : (current.getD (emptyWord start)).IsFrom line := by
  cases current with
  | none => exact isFrom_emptyWord start
  | some word => exact begun word rfl

theorem isFrom_push {current : Option WordToken} (begun : ∀ word ∈ current, word.IsFrom line)
    (start : Nat) {c : Char} (member : c ∈ line) :
    ∀ word ∈ some (push current start c), word.IsFrom line := by
  intro word same
  obtain rfl := Option.some.inj same
  have front := isFrom_getD begun start
  exact ⟨List.append_subset.mpr ⟨front.text, by simpa using member⟩, front.quote⟩

theorem isFrom_openQuote {current : Option WordToken} (begun : ∀ word ∈ current, word.IsFrom line)
    (start : Nat) {quote : Char} (opens : quote = '\'' ∨ quote = '"') :
    ∀ word ∈ some (openQuote current start quote), word.IsFrom line := by
  intro word same
  obtain rfl := Option.some.inj same
  have front := isFrom_getD begun start
  unfold openQuote
  dsimp only
  split
  · refine ⟨front.text, ?_⟩
    intro c opened
    obtain rfl := Option.some.inj opened
    exact opens
  · exact front

theorem isFrom_operator {text : List Char} (start : Nat) (inside : text ⊆ line) :
    (⟨.operator, text, start, none⟩ : WordToken).IsFrom line := ⟨inside, by simp⟩

/-- The current word ends in front of further tokens. -/
theorem isFrom_of_mem_ended {current : Option WordToken}
    (begun : ∀ word ∈ current, word.IsFrom line) {later : List WordToken}
    (further : ∀ token ∈ later, token.IsFrom line) :
    ∀ token ∈ current.toList ++ later, token.IsFrom line := by
  intro token member
  rcases List.mem_append.mp member with ended | member
  · exact begun token (Option.mem_toList.mp ended)
  · exact further token member

/-- Scanning a rear part of a line goes on with tokens from that line. -/
theorem isFrom_of_mem_scan {start : Nat} {current : Option WordToken} {quote : Option Char}
    {rest : List Char} (begun : ∀ word ∈ current, word.IsFrom line) (inside : rest ⊆ line) :
    ∀ token ∈ scan start current quote rest, token.IsFrom line := by
  have nothing : ∀ word ∈ (none : Option WordToken), word.IsFrom line := by simp
  fun_induction scan start current quote rest with
  | case1 quote start current =>
    exact List.forall_mem_singleton.mpr (isFrom_getD begun start)
  | case2 start current quote rest ih => exact ih begun (List.cons_subset.mp inside).2
  | case3 start current quote c _ _ ih => exact ih begun (List.nil_subset _)
  | case4 start current quote c _ _ next rest ih =>
    obtain ⟨here, later⟩ := List.cons_subset.mp (List.cons_subset.mp inside).2
    exact ih (isFrom_push begun start here) later
  | case5 start current quote c rest _ _ ih =>
    obtain ⟨here, later⟩ := List.cons_subset.mp inside
    exact ih (isFrom_push begun start here) later
  | case6 start current c rest _ ih =>
    exact isFrom_of_mem_ended begun (ih nothing (List.cons_subset.mp inside).2)
  | case7 start current c rest _ opens ih =>
    exact ih (isFrom_openQuote begun start opens) (List.cons_subset.mp inside).2
  | case8 start current _ _ ih => exact ih begun (List.nil_subset _)
  | case9 start current next rest _ _ ih =>
    obtain ⟨here, later⟩ := List.cons_subset.mp (List.cons_subset.mp inside).2
    exact ih (isFrom_push begun start here) later
  | case10 start current c _ _ _ _ next after _ ih =>
    obtain ⟨here, behind⟩ := List.cons_subset.mp inside
    have operator : (⟨.operator, [c, c], start, none⟩ : WordToken).IsFrom line :=
      isFrom_operator start (by simpa using here)
    exact isFrom_of_mem_ended begun
      (List.forall_mem_cons.mpr ⟨operator, ih nothing (List.cons_subset.mp behind).2⟩)
  | case11 start current c _ _ _ _ next after _ ih =>
    obtain ⟨here, later⟩ := List.cons_subset.mp inside
    have operator : (⟨.operator, [c], start, none⟩ : WordToken).IsFrom line :=
      isFrom_operator start (by simpa using here)
    exact isFrom_of_mem_ended begun (List.forall_mem_cons.mpr ⟨operator, ih nothing later⟩)
  | case12 start current c _ _ _ _ ih =>
    have operator : (⟨.operator, [c], start, none⟩ : WordToken).IsFrom line :=
      isFrom_operator start inside
    exact isFrom_of_mem_ended begun
      (List.forall_mem_cons.mpr ⟨operator, ih nothing (List.nil_subset _)⟩)
  | case13 start current c rest _ _ _ _ ih =>
    obtain ⟨here, later⟩ := List.cons_subset.mp inside
    exact ih (isFrom_push begun start here) later

/-- Every token of a line is taken from it. -/
theorem isFrom_of_mem_tokens {token : WordToken} (member : token ∈ tokens line) :
    token.IsFrom line :=
  isFrom_of_mem_scan (by simp) (List.Subset.refl _) token member

/-- The last command on a line is a rear part of its tokens. -/
theorem lastCommand_subset (tokens : List WordToken) : lastCommand tokens ⊆ tokens := by
  intro token member
  rw [lastCommand, List.mem_reverse] at member
  exact List.mem_reverse.mp ((List.takeWhile_prefix _).subset member)

end TabSpec.WordToken

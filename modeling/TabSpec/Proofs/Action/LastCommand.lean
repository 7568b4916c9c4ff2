import TabSpec.Action.Adjust
import TabSpec.Proofs.Action.WordTexts

/-! The last command of a line. Reading begins anew behind every operator, so the words of the last command
are the words of the text behind the last operator, and completing among them is completing in that text. -/
namespace TabSpec.WordToken

/-! ### Tokens further on in a line -/

/-- A token with more text in front of it. -/
def moved (distance : Nat) (token : WordToken) : WordToken :=
  { token with start := token.start + distance }

section

variable (distance start : Nat) (current : Option WordToken) (c : Char)

theorem getD_moved :
    (current.map (moved distance)).getD (emptyWord (start + distance)) =
      (current.getD (emptyWord start)).moved distance := by
  cases current <;> rfl

theorem push_moved :
    push (current.map (moved distance)) (start + distance) c =
      (push current start c).moved distance := by
  cases current <;> rfl

theorem openQuote_moved :
    openQuote (current.map (moved distance)) (start + distance) c =
      (openQuote current start c).moved distance := by
  unfold openQuote
  rw [getD_moved, apply_ite (moved distance)]
  rfl

theorem toList_moved :
    (current.map (moved distance)).toList = current.toList.map (moved distance) := by
  cases current <;> rfl

end

/-- More text in front moves the tokens that are read, and changes nothing else. -/
theorem scan_moved (distance : Nat) {start : Nat} {current : Option WordToken} {quote : Option Char}
    {rest : List Char} :
    scan (start + distance) (current.map (moved distance)) quote rest =
      (scan start current quote rest).map (moved distance) := by
  have next (start count : Nat) : start + count + distance = start + distance + count :=
    Nat.add_right_comm start count distance
  fun_induction scan start current quote rest with
  | case1 quote start current =>
    rw [scan.eq_def]
    simp only [getD_moved, List.map_cons, List.map_nil]
  | case2 start current quote rest ih =>
    rw [← ih, next, scan.eq_def]
    simp only [if_pos]
  | case3 start current quote c inside escapes ih =>
    rw [← ih, next, scan.eq_def]
    simp only [if_neg inside, if_pos escapes]
  | case4 start current quote c inside escapes follower rest ih =>
    rw [← ih, next, scan.eq_def]
    simp only [if_neg inside, if_pos escapes, push_moved, Option.map_some]
  | case5 start current quote c rest inside plain ih =>
    rw [← ih, next, scan.eq_def]
    simp only [if_neg inside, if_neg plain, push_moved, Option.map_some]
  | case6 start current c rest space ih =>
    rw [List.map_append, ← ih, next, scan.eq_def]
    simp only [if_pos space, toList_moved, Option.map_none]
  | case7 start current c rest space opens ih =>
    rw [← ih, next, scan.eq_def]
    simp only [if_neg space, if_pos opens, openQuote_moved, Option.map_some]
  | case8 start current space opens ih =>
    rw [← ih, next, scan.eq_def]
    simp only [if_neg space, if_neg opens, if_pos]
  | case9 start current follower rest space opens ih =>
    rw [← ih, next, scan.eq_def]
    simp only [if_neg space, if_neg opens, if_pos, push_moved, Option.map_some]
  | case10 start current c space opens escapes operator follower after twice ih =>
    rw [List.map_append, List.map_cons, ← ih, next, scan.eq_def]
    simp only [if_neg space, if_neg opens, if_neg escapes, if_pos operator, if_pos twice, toList_moved,
      Option.map_none, moved]
  | case11 start current c space opens escapes operator follower after once ih =>
    rw [List.map_append, List.map_cons, ← ih, next, scan.eq_def]
    simp only [if_neg space, if_neg opens, if_neg escapes, if_pos operator, if_neg once, toList_moved,
      Option.map_none, moved]
  | case12 start current c space opens escapes operator ih =>
    rw [List.map_append, List.map_cons, ← ih, next, scan.eq_def]
    simp only [if_neg space, if_neg opens, if_neg escapes, if_pos operator, toList_moved,
      Option.map_none, moved]
  | case13 start current c rest space opens escapes operator ih =>
    rw [← ih, next, scan.eq_def]
    simp only [if_neg space, if_neg opens, if_neg escapes, if_neg operator, push_moved,
      Option.map_some]

/-! ### Behind operators -/

/-- Behind every operator among the tokens stand those that are read anew from the rest of the text. -/
def Resynchronizes (start : Nat) (rest : List Char) (tokens : List WordToken) : Prop :=
  ∀ earlier operator later, tokens = earlier ++ operator :: later → operator.isWord = false →
    ∃ seen behind, rest = seen ++ behind ∧
      operator.start + operator.text.length = start + seen.length ∧
      later = scan (start + seen.length) none none behind

section

variable {start : Nat} {current : Option WordToken} {rest : List Char} {tokens : List WordToken}

theorem resynchronizes_word (begun : ∀ word ∈ current, word.isWord = true) :
    Resynchronizes start rest [current.getD (emptyWord start)] := by
  intro earlier operator later cut isOperator
  have member : operator ∈ [current.getD (emptyWord start)] := by simp [cut]
  rw [List.mem_singleton.mp member, isWord_getD begun start] at isOperator
  cases isOperator

/-- More text in front of the tokens. -/
theorem Resynchronizes.behind (front : List Char)
    (further : Resynchronizes (start + front.length) rest tokens) :
    Resynchronizes start (front ++ rest) tokens := by
  intro earlier operator later cut isOperator
  obtain ⟨seen, behind, rfl, place, anew⟩ := further earlier operator later cut isOperator
  rw [Nat.add_assoc, ← List.length_append] at place anew
  exact ⟨front ++ seen, behind, (List.append_assoc ..).symm, place, anew⟩

/-- A word in front of the tokens. -/
theorem Resynchronizes.ended (begun : ∀ word ∈ current, word.isWord = true)
    (further : Resynchronizes start rest tokens) :
    Resynchronizes start rest (current.toList ++ tokens) := by
  cases current with
  | none => exact further
  | some word =>
    intro earlier operator later cut isOperator
    cases earlier with
    | nil =>
      obtain ⟨rfl, -⟩ := List.cons.inj cut
      rw [begun word rfl] at isOperator
      cases isOperator
    | cons first earlier => exact further earlier operator later (List.cons.inj cut).2 isOperator

/-- An operator in front of the tokens. -/
theorem Resynchronizes.operator (text : List Char) {quote : Option Char}
    (further : Resynchronizes (start + text.length) rest (scan (start + text.length) none none rest)) :
    Resynchronizes start (text ++ rest)
      (⟨.operator, text, start, quote⟩ :: scan (start + text.length) none none rest) := by
  intro earlier operator later cut isOperator
  cases earlier with
  | nil =>
    obtain ⟨rfl, rfl⟩ := List.cons.inj cut
    exact ⟨text, rest, rfl, rfl, rfl⟩
  | cons first earlier =>
    exact further.behind text earlier operator later (List.cons.inj cut).2 isOperator

end

/-- Reading begins anew behind an operator, whatever stands in front of it. -/
theorem resynchronizes_scan {start : Nat} {current : Option WordToken} {quote : Option Char}
    {rest : List Char} (begun : ∀ word ∈ current, word.isWord = true) :
    Resynchronizes start rest (scan start current quote rest) := by
  have nothing : ∀ word ∈ (none : Option WordToken), word.isWord = true := by simp
  fun_induction scan start current quote rest with
  | case1 quote start current => exact resynchronizes_word begun
  | case2 start current quote rest ih => exact (ih begun).behind [_]
  | case3 start current quote c inside escapes ih => exact (ih begun).behind [c]
  | case4 start current quote c inside escapes follower rest ih =>
    exact (ih (isWord_push begun start follower)).behind [c, follower]
  | case5 start current quote c rest inside plain ih =>
    exact (ih (isWord_push begun start c)).behind [c]
  | case6 start current c rest space ih => exact ((ih nothing).behind [c]).ended begun
  | case7 start current c rest space opens ih =>
    exact (ih (isWord_openQuote begun start c)).behind [c]
  | case8 start current space opens ih => exact (ih begun).behind ['\\']
  | case9 start current follower rest space opens ih =>
    exact (ih (isWord_push begun start follower)).behind ['\\', follower]
  | case10 start current c space opens escapes operator follower after twice ih =>
    obtain ⟨-, rfl⟩ := twice
    exact ((ih nothing).operator [follower, follower]).ended begun
  | case11 start current c space opens escapes operator follower after once ih =>
    exact ((ih nothing).operator [c]).ended begun
  | case12 start current c space opens escapes operator ih =>
    exact ((ih nothing).operator [c]).ended begun
  | case13 start current c rest space opens escapes operator ih =>
    exact (ih (isWord_push begun start c)).behind [c]

/-! ### The last command -/

/-- How many characters stand in front of the last command: those up to the last operator and the
operator itself. -/
def commandStart (tokens : List WordToken) : Nat :=
  ((tokens.filter (!isWord ·)).getLast?.map fun operator =>
    operator.start + operator.text.length).getD 0

/-- The tokens of the last command stand behind the last operator, if there is one. -/
theorem lastCommand_cases (tokens : List WordToken) :
    (lastCommand tokens = tokens ∧ commandStart tokens = 0) ∨
      ∃ earlier operator, tokens = earlier ++ operator :: lastCommand tokens ∧
        operator.isWord = false ∧
        commandStart tokens = operator.start + operator.text.length := by
  have words : ∀ token ∈ lastCommand tokens, token.isWord = true := by
    intro token member
    rw [lastCommand, List.mem_reverse] at member
    exact List.all_eq_true.mp List.all_takeWhile token member
  have none : (lastCommand tokens).filter (!isWord ·) = [] :=
    List.filter_eq_nil_iff.mpr fun token member => by simp [words token member]
  have whole : (tokens.reverse.dropWhile isWord).reverse ++ lastCommand tokens = tokens := by
    rw [lastCommand, ← List.reverse_append, List.takeWhile_append_dropWhile, List.reverse_reverse]
  have head := List.head?_dropWhile_not isWord tokens.reverse
  cases front : tokens.reverse.dropWhile isWord with
  | nil =>
    left
    rw [front, List.reverse_nil, List.nil_append] at whole
    rw [whole] at none
    exact ⟨whole, by simp [commandStart, none]⟩
  | cons operator earlier =>
    right
    rw [front] at whole head
    have isOperator : operator.isWord = false := by simpa using head
    rw [List.reverse_cons, List.append_assoc, List.singleton_append] at whole
    refine ⟨earlier.reverse, operator, whole.symm, isOperator, ?_⟩
    have operators : tokens.filter (!isWord ·) = earlier.reverse.filter (!isWord ·) ++ [operator] := by
      rw [← whole, List.filter_append, List.filter_cons_of_pos (by simp [isOperator]), none]
    simp [commandStart, operators]

/-- The tokens of the last command are read from the text behind the last operator alone. -/
theorem lastCommand_tokens (line : List Char) :
    lastCommand (tokens line) =
      (tokens (line.drop (commandStart (tokens line)))).map
        (moved (commandStart (tokens line))) := by
  rcases lastCommand_cases (tokens line) with ⟨whole, place⟩ | ⟨earlier, operator, cut, isOperator, place⟩
  · have still : moved 0 = id := rfl
    rw [whole, place, List.drop_zero, still, List.map_id]
  · obtain ⟨seen, behind, text, reached, anew⟩ :=
      resynchronizes_scan (by simp) earlier operator _ cut isOperator
    rw [reached, Nat.zero_add] at place
    have left : line.drop seen.length = behind := by rw [text, List.drop_left]
    rw [place, left, anew, tokens, ← scan_moved]
    rfl

/-- A quoted operator is none, and a doubled one is one. -/
example : commandStart (tokens "a '|' && b c".toList) = 8 := by decide +kernel

end TabSpec.WordToken

namespace TabSpec.Action

open WordToken

/-- A candidate is written behind more text as it is behind less. -/
theorem prependValues_intoLine (front back : String) (token : WordToken) (completion : Completion) :
    (intoLine back token completion).prependValues front = intoLine (front ++ back) token completion := by
  simp [intoLine, Completion.prependValues, Completion.mapSuggestions, String.append_assoc]

/-- Completing the last command of a line is completing the text behind the last operator, with the text up
to there in front of the candidates. -/
theorem words_lastCommand (action : Action) (context : Context) :
    let reached := commandStart (tokens context.value.toList)
    words true action context =
      (·.prependValues (String.ofList (context.value.toList.take reached))) <$>
        words false action
          { context with value := String.ofList (context.value.toList.drop reached) } := by
  intro reached
  have further : (lastCommand (tokens context.value.toList)).filter isWord =
      ((tokens (context.value.toList.drop reached)).filter isWord).map (moved reached) := by
    rw [lastCommand_tokens, List.filter_map]
    rfl
  unfold words
  simp only [if_true, Bool.false_eq_true, if_false, further, List.getLast?_map, ← List.map_dropLast,
    String.toList_ofList]
  cases last : ((tokens (context.value.toList.drop reached)).filter isWord).getLast? with
  | none => rfl
  | some token =>
    have front : String.ofList (context.value.toList.take (token.moved reached).start) =
        String.ofList (context.value.toList.take reached) ++
          String.ofList ((context.value.toList.drop reached).take token.start) := by
      rw [← String.ofList_append, ← List.take_add, Nat.add_comm]
      rfl
    simp only [Option.map_some, front, map_bind, map_pure, prependValues_intoLine, List.map_map]
    rfl

end TabSpec.Action

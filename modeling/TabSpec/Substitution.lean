import TabSpec.Fault

/-! Placeholders in expressions: `$` before a name in braces stands for a variable's value, with a
default behind `-` for an unset and behind `:-` for an unset or empty variable. -/
namespace TabSpec.Substitution

/-- What stands for a variable without a value. -/
inductive Fallback
  | none
  | unset (text : List Char)
  | unsetOrEmpty (text : List Char)
deriving Repr, DecidableEq

/-- How a fallback is written behind the name of its variable. -/
def Fallback.written : Fallback → List Char
  | .none => []
  | .unset text => '-' :: text
  | .unsetOrEmpty text => ':' :: '-' :: text

structure Placeholder where
  name : List Char
  fallback : Fallback
deriving Repr, DecidableEq

def isNameStart (c : Char) : Bool := c.isAlpha || c == '_'

def isNameChar (c : Char) : Bool := c.isAlphanum || c == '_'

/-- Read a default up to the closing brace. -/
private def readDefault (text : List Char) : Option (List Char × List Char) :=
  match text.dropWhile (· != '\x7d') with
  | _ :: rest => some (text.takeWhile (· != '\x7d'), rest)
  | [] => none

/-- Read a placeholder behind its opening brace, together with the rest of the text. -/
def placeholder? : List Char → Option (Placeholder × List Char)
  | [] => none
  | c :: text =>
    if isNameStart c then
      let name := c :: text.takeWhile isNameChar
      match text.dropWhile isNameChar with
      | '\x7d' :: rest => some (⟨name, .none⟩, rest)
      | '-' :: rest => (readDefault rest).map fun (text, rest) => (⟨name, .unset text⟩, rest)
      | ':' :: '-' :: rest =>
        (readDefault rest).map fun (text, rest) => (⟨name, .unsetOrEmpty text⟩, rest)
      | _ => none
    else none

/-- The text that a placeholder stands for. -/
def Placeholder.value (placeholder : Placeholder) (lookup : String → Option String) :
    List Char :=
  let value? := (lookup (String.ofList placeholder.name)).map String.toList
  match placeholder.fallback with
  | .none => value?.getD []
  | .unset text => value?.getD text
  | .unsetOrEmpty text => (value?.filter (!·.isEmpty)).getD text

/-- A name, and a default that holds no closing brace. -/
structure Placeholder.IsWellFormed (placeholder : Placeholder) : Prop where
  name : ∃ c rest, placeholder.name = c :: rest ∧ isNameStart c = true ∧
    ∀ d ∈ rest, isNameChar d = true
  closed : '\x7d' ∉ placeholder.fallback.written

private theorem of_readDefault {text value rest : List Char}
    (read : readDefault text = some (value, rest)) :
    text = value ++ '\x7d' :: rest ∧ '\x7d' ∉ value := by
  simp only [readDefault] at read
  split at read
  · rename_i c behind stop
    simp only [Option.some.injEq, Prod.mk.injEq] at read
    obtain ⟨rfl, rfl⟩ := read
    have closing : c = '\x7d' := by
      simpa [stop] using List.head?_dropWhile_not (· != '\x7d') text
    subst closing
    refine ⟨by rw [← stop, List.takeWhile_append_dropWhile], fun member => ?_⟩
    simpa using List.all_eq_true.mp List.all_takeWhile _ member
  · cases read

/-- A placeholder that is read, its closing brace and the rest make up the text. -/
theorem of_placeholder? {text rest : List Char} {found : Placeholder}
    (read : placeholder? text = some (found, rest)) :
    text = found.name ++ found.fallback.written ++ '\x7d' :: rest ∧ found.IsWellFormed := by
  cases text with
  | nil => cases read
  | cons c text =>
    have cut := List.takeWhile_append_dropWhile (p := isNameChar) (l := text)
    have chars : ∀ d ∈ text.takeWhile isNameChar, isNameChar d = true :=
      List.all_eq_true.mp List.all_takeWhile
    simp only [placeholder?] at read
    split at read
    · rename_i start
      split at read
      · rename_i stop
        simp only [Option.some.injEq, Prod.mk.injEq] at read
        obtain ⟨rfl, rfl⟩ := read
        rw [stop] at cut
        exact ⟨by simp [Fallback.written, cut], ⟨c, _, rfl, start, chars⟩, List.not_mem_nil⟩
      · rename_i stop
        simp only [Option.map_eq_some_iff, Prod.mk.injEq, Prod.exists] at read
        obtain ⟨_, _, default, rfl, rfl⟩ := read
        obtain ⟨whole, closed⟩ := of_readDefault default
        rw [stop, whole] at cut
        exact ⟨by simp [Fallback.written, cut], ⟨c, _, rfl, start, chars⟩,
          by simpa [Fallback.written] using closed⟩
      · rename_i stop
        simp only [Option.map_eq_some_iff, Prod.mk.injEq, Prod.exists] at read
        obtain ⟨_, _, default, rfl, rfl⟩ := read
        obtain ⟨whole, closed⟩ := of_readDefault default
        rw [stop, whole] at cut
        exact ⟨by simp [Fallback.written, cut], ⟨c, _, rfl, start, chars⟩,
          by simpa [Fallback.written] using closed⟩
      · cases read
    · cases read

theorem eq_of_placeholder? {text rest : List Char} {found : Placeholder}
    (read : placeholder? text = some (found, rest)) :
    text = found.name ++ found.fallback.written ++ '\x7d' :: rest :=
  (of_placeholder? read).1

private theorem readDefault_written {value : List Char} (closed : '\x7d' ∉ value)
    (rest : List Char) : readDefault (value ++ '\x7d' :: rest) = some (value, rest) := by
  have inside : ∀ c ∈ value, (c != '\x7d') = true := by
    intro c member
    simpa using ne_of_mem_of_not_mem member closed
  rw [readDefault, List.dropWhile_append_of_pos inside, List.takeWhile_append_of_pos inside]
  simp

/-- A placeholder is read back as it is written. -/
theorem placeholder?_written {placeholder : Placeholder} (wellFormed : placeholder.IsWellFormed)
    (rest : List Char) :
    placeholder? (placeholder.name ++ placeholder.fallback.written ++ '\x7d' :: rest) =
      some (placeholder, rest) := by
  obtain ⟨name, fallback⟩ := placeholder
  obtain ⟨⟨c, name, rfl, start, chars⟩, closed⟩ := wellFormed
  dsimp only at closed ⊢
  rw [List.append_assoc, List.cons_append, placeholder?, if_pos start,
    List.takeWhile_append_of_pos chars, List.dropWhile_append_of_pos chars]
  have ends : isNameChar '\x7d' = false ∧ isNameChar '-' = false ∧ isNameChar ':' = false := by
    decide
  cases fallback with
  | none => simp [Fallback.written, ends]
  | unset text =>
    have read := readDefault_written (List.not_mem_of_not_mem_cons closed) rest
    simp [Fallback.written, ends, read]
  | unsetOrEmpty text =>
    have read := readDefault_written
      (List.not_mem_of_not_mem_cons (List.not_mem_of_not_mem_cons closed)) rest
    simp [Fallback.written, ends, read]

/-- Where a text stops to satisfy a predicate, it does so with more text behind it. -/
private theorem cut_append {holds : Char → Bool} {text rest : List Char} {c : Char}
    (stop : text.dropWhile holds = c :: rest) (more : List Char) :
    (text ++ more).takeWhile holds = text.takeWhile holds ∧
      (text ++ more).dropWhile holds = c :: (rest ++ more) := by
  have short : (text.takeWhile holds).length ≠ text.length := by
    have whole := congrArg List.length (List.takeWhile_append_dropWhile (p := holds) (l := text))
    rw [stop, List.length_append, List.length_cons] at whole
    omega
  rw [List.takeWhile_append, List.dropWhile_append, stop, if_neg short]
  exact ⟨rfl, rfl⟩

private theorem readDefault_append {text value rest : List Char}
    (read : readDefault text = some (value, rest)) (more : List Char) :
    readDefault (text ++ more) = some (value, rest ++ more) := by
  simp only [readDefault] at read
  split at read
  · rename_i c behind stop
    simp only [Option.some.injEq, Prod.mk.injEq] at read
    obtain ⟨rfl, rfl⟩ := read
    obtain ⟨taken, left⟩ := cut_append stop more
    rw [readDefault, left, taken]
  · cases read

/-- A placeholder is read up to its closing brace, whatever stands behind it. -/
theorem placeholder?_append {text rest : List Char} {found : Placeholder}
    (read : placeholder? text = some (found, rest)) (more : List Char) :
    placeholder? (text ++ more) = some (found, rest ++ more) := by
  cases text with
  | nil => cases read
  | cons c text =>
    simp only [placeholder?] at read
    split at read
    · rename_i start
      split at read
      all_goals
        rename_i stop
        simp only [Option.some.injEq, Option.map_eq_some_iff, Prod.mk.injEq, Prod.exists,
          reduceCtorEq] at read
      · obtain ⟨rfl, rfl⟩ := read
        obtain ⟨taken, left⟩ := cut_append stop more
        simp [placeholder?, start, taken, left]
      · obtain ⟨_, _, default, rfl, rfl⟩ := read
        obtain ⟨taken, left⟩ := cut_append stop more
        simp [placeholder?, start, taken, left, readDefault_append default]
      · obtain ⟨_, _, default, rfl, rfl⟩ := read
        obtain ⟨taken, left⟩ := cut_append stop more
        simp [placeholder?, start, taken, left, readDefault_append default]
    · cases read

private theorem length_lt_of_placeholder? {text rest : List Char} {found : Placeholder}
    (read : placeholder? text = some (found, rest)) : rest.length < text.length := by
  have whole := congrArg List.length (eq_of_placeholder? read)
  simp only [List.length_append, List.length_cons] at whole
  omega

/-- Replace the placeholders of a text. A dollar and a brace that open none are malformed. -/
def expandChars (lookup : String → Option String) : List Char → Option (List Char)
  | [] => some []
  | '$' :: '\x7b' :: text =>
    match read : placeholder? text with
    | some (found, rest) =>
      have : rest.length < text.length := length_lt_of_placeholder? read
      (expandChars lookup rest).map (found.value lookup ++ ·)
    | none => none
  | c :: text => (expandChars lookup text).map (c :: ·)
termination_by text => text.length
decreasing_by all_goals simp only [List.length_cons] at *; omega

/-- Replace the placeholders of a text; values are not looked at again. -/
def expand (lookup : String → Option String) (text : String) : Except SpecFault String :=
  match expandChars lookup text.toList with
  | some result => .ok (String.ofList result)
  | none => .error (.substitution text)

end TabSpec.Substitution

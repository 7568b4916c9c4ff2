import TabSpec.Proofs.Text.Cut
import TabSpec.Substitution

/-! What substitution makes of the texts that expressions are put together of: the placeholder of a
variable reads it, and a text without placeholders stays as it is, whatever stands behind it. -/
namespace TabSpec.Substitution

theorem expand_eq_ok_iff {lookup : String → Option String} {text filled : String} :
    expand lookup text = .ok filled ↔ expandChars lookup text.toList = some filled.toList := by
  rw [expand]
  cases expandChars lookup text.toList with
  | none => simp
  | some chars => simp [String.ext_iff]

variable (lookup : String → Option String)

/-- A name is read up to the closing brace. -/
theorem placeholder?_name {c : Char} {name : List Char} (start : isNameStart c = true)
    (chars : ∀ d ∈ name, isNameChar d = true) (rest : List Char) :
    placeholder? (c :: name ++ '\x7d' :: rest) = some (⟨c :: name, .none⟩, rest) := by
  have wellFormed : Placeholder.IsWellFormed ⟨c :: name, .none⟩ :=
    ⟨⟨c, name, rfl, start, chars⟩, List.not_mem_nil⟩
  simpa [Fallback.written] using placeholder?_written wellFormed rest

/-- A placeholder is replaced, and substitution goes on behind it. -/
theorem expandChars_placeholder {text rest : List Char} {found : Placeholder}
    (read : placeholder? text = some (found, rest)) :
    expandChars lookup ('$' :: '\x7b' :: text) =
      (expandChars lookup rest).map (found.value lookup ++ ·) := by
  rw [expandChars]
  split
  · rename_i read'
    cases read.symm.trans read'
    rfl
  · rename_i unread
    cases read.symm.trans unread

/-- A text that can stand as the name of a variable in a placeholder. -/
def IsName (name : String) : Prop :=
  ∃ c rest, name.toList = c :: rest ∧ isNameStart c = true ∧ ∀ d ∈ rest, isNameChar d = true

/-- The placeholder of a variable stands for its value, which is not looked at again. -/
theorem expand_variable {name : String} (isName : IsName name) :
    expand lookup ("$\x7b" ++ name ++ "\x7d") = .ok ((lookup name).getD "") := by
  obtain ⟨c, rest, whole, start, chars⟩ := isName
  have written : ("$\x7b" ++ name ++ "\x7d").toList =
      '$' :: '\x7b' :: (c :: rest ++ ['\x7d']) := by
    simp [whole]
  have value : (⟨c :: rest, .none⟩ : Placeholder).value lookup = ((lookup name).getD "").toList := by
    rw [← whole, Placeholder.value, String.ofList_toList]
    cases lookup name <;> rfl
  rw [expand, written, expandChars_placeholder lookup (placeholder?_name start chars []), expandChars,
    value]
  simp

/-! ### Text without placeholders -/

/-- A character that opens no placeholder stays. -/
theorem expandChars_cons {c : Char} {text : List Char} (closed : ¬ ['$', '\x7b'] <+: c :: text) :
    expandChars lookup (c :: text) = (expandChars lookup text).map (c :: ·) := by
  rw [expandChars]
  rintro behind rfl rfl
  exact closed ⟨behind, rfl⟩

/-- A text without dollars stays. -/
theorem expandChars_append_of_not_mem {front : List Char} (absent : '$' ∉ front)
    (rest : List Char) :
    expandChars lookup (front ++ rest) = (expandChars lookup rest).map (front ++ ·) := by
  induction front with
  | nil => exact Option.map_id'.symm
  | cons c front ih =>
    have closed : ¬ ['$', '\x7b'] <+: c :: (front ++ rest) := fun opened =>
      List.ne_of_not_mem_cons absent (List.cons_prefix_cons.mp opened).1
    rw [List.cons_append, expandChars_cons lookup closed, ih (List.not_mem_of_not_mem_cons absent),
      Option.map_map]
    rfl

/-- A text stays in which no placeholder is opened, when no brace stands behind it. -/
theorem expandChars_append {front rest : List Char} (closed : ¬ ['$', '\x7b'] <:+: front)
    (apart : rest.head? ≠ some '\x7b') :
    expandChars lookup (front ++ rest) = (expandChars lookup rest).map (front ++ ·) := by
  induction front with
  | nil => exact Option.map_id'.symm
  | cons c front ih =>
    have here : ¬ ['$', '\x7b'] <+: c :: (front ++ rest) := by
      intro opened
      obtain ⟨rfl, brace⟩ := List.cons_prefix_cons.mp opened
      cases front with
      | nil =>
        obtain ⟨behind, rfl⟩ := brace
        exact apart rfl
      | cons d front =>
        obtain ⟨rfl, _⟩ := List.cons_prefix_cons.mp brace
        exact closed ⟨[], front, rfl⟩
    have later := ih fun inside => closed (List.infix_cons inside)
    rw [List.cons_append, expandChars_cons lookup here, later, Option.map_map]
    rfl

/-- A text that is filled alone is filled alike in front of more text, unless a dollar that ends it opens a
placeholder there. -/
theorem expandChars_append_of_expandChars {front filled rest : List Char}
    (fills : expandChars lookup front = some filled)
    (apart : front.getLast? = some '$' → rest.head? ≠ some '\x7b') :
    expandChars lookup (front ++ rest) = (expandChars lookup rest).map (filled ++ ·) := by
  fun_induction expandChars lookup front generalizing filled with
  | case1 =>
    obtain rfl := Option.some.inj fills
    exact Option.map_id'.symm
  | case2 text found behind read shorter ih =>
    obtain ⟨later, expanded, rfl⟩ := Option.map_eq_some_iff.mp fills
    rw [List.cons_append, List.cons_append,
      expandChars_placeholder lookup (placeholder?_append read rest), ih expanded ?_, Option.map_map]
    · simp [Function.comp_def]
    · intro last
      refine apart ?_
      rw [eq_of_placeholder? read]
      simp [List.getLast?_cons, List.getLast?_append, last]
  | case3 text read => cases fills
  | case4 c text unopened ih =>
    obtain ⟨later, expanded, rfl⟩ := Option.map_eq_some_iff.mp fills
    have closed : ¬ ['$', '\x7b'] <+: c :: (text ++ rest) := by
      intro opened
      obtain ⟨rfl, behind, whole⟩ := List.cons_prefix_cons.mp opened
      cases text with
      | nil => exact apart rfl (congrArg List.head? whole.symm)
      | cons d text =>
        obtain ⟨rfl, -⟩ := List.cons.inj whole
        exact unopened text rfl rfl
    rw [List.cons_append, expandChars_cons lookup closed, ih expanded ?_, Option.map_map]
    · rfl
    · exact fun last => apart (by rw [List.getLast?_cons, last]; rfl)

/-- A text in which no placeholder is opened stays as it is. -/
theorem expand_of_closed {text : String} (closed : Text.contains "$\x7b" text = false) :
    expand lookup text = .ok text := by
  have unchanged : expandChars lookup text.toList = some text.toList := by
    have whole : expandChars lookup (text.toList ++ []) = (expandChars lookup []).map _ :=
      expandChars_append lookup (Text.contains_eq_false_iff.mp closed) (nomatch ·)
    simpa [expandChars] using whole
  rw [expand, unchanged]
  simp only [String.ofList_toList]

end TabSpec.Substitution

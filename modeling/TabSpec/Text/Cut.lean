/-! Cutting a text at a separator. Every cut is stated on character lists, where nothing of the
text is lost: the parts and the separators between them make up the whole. -/
namespace TabSpec.Text

/-- The rest of `text` behind `front`, when `text` begins with it. -/
def after? : (front text : List Char) → Option (List Char)
  | [], text => some text
  | _ :: _, [] => none
  | c :: front, d :: text => if c = d then after? front text else none

theorem after?_eq_some_iff {front text rest : List Char} :
    after? front text = some rest ↔ text = front ++ rest := by
  induction front generalizing text with
  | nil => simp [after?, eq_comm]
  | cons c front ih =>
    cases text with
    | nil => simp [after?]
    | cons d text =>
      by_cases same : c = d
      · subst same; simp [after?, ih]
      · simp [after?, same, Ne.symm same]

/-- The text before and behind the first occurrence of `separator`. -/
def firstCut? (separator : List Char) : List Char → Option (List Char × List Char)
  | [] => (after? separator []).map fun rest => ([], rest)
  | c :: text =>
    match after? separator (c :: text) with
    | some rest => some ([], rest)
    | none => (firstCut? separator text).map fun (before, rest) => (c :: before, rest)

theorem eq_of_firstCut? {separator text before rest : List Char}
    (cut : firstCut? separator text = some (before, rest)) :
    text = before ++ separator ++ rest := by
  induction text generalizing before with
  | nil =>
    simp only [firstCut?, Option.map_eq_some_iff, Prod.mk.injEq] at cut
    obtain ⟨_, found, rfl, rfl⟩ := cut
    simpa using after?_eq_some_iff.mp found
  | cons c text ih =>
    simp only [firstCut?] at cut
    split at cut
    · next rest' found =>
      simp only [Option.some.injEq, Prod.mk.injEq] at cut
      obtain ⟨rfl, rfl⟩ := cut
      simpa using after?_eq_some_iff.mp found
    · simp only [Option.map_eq_some_iff, Prod.mk.injEq, Prod.exists] at cut
      obtain ⟨before', rest', found, rfl, rfl⟩ := cut
      simp [ih found]

theorem length_lt_of_firstCut? {separator text before rest : List Char} (some : separator ≠ [])
    (cut : firstCut? separator text = .some (before, rest)) : rest.length < text.length := by
  have whole := congrArg List.length (eq_of_firstCut? cut)
  have positive := List.length_pos_iff.mpr some
  simp only [List.length_append] at whole
  omega

/-- The text before and behind the last occurrence of `separator`. -/
def lastCut? (separator : List Char) : List Char → Option (List Char × List Char)
  | [] => (after? separator []).map fun rest => ([], rest)
  | c :: text =>
    match lastCut? separator text with
    | some (before, rest) => some (c :: before, rest)
    | none => (after? separator (c :: text)).map fun rest => ([], rest)

theorem eq_of_lastCut? {separator text before rest : List Char}
    (cut : lastCut? separator text = some (before, rest)) :
    text = before ++ separator ++ rest := by
  induction text generalizing before with
  | nil =>
    simp only [lastCut?, Option.map_eq_some_iff, Prod.mk.injEq] at cut
    obtain ⟨_, found, rfl, rfl⟩ := cut
    simpa using after?_eq_some_iff.mp found
  | cons c text ih =>
    simp only [lastCut?] at cut
    split at cut
    · next before' rest' found =>
      simp only [Option.some.injEq, Prod.mk.injEq] at cut
      obtain ⟨rfl, rfl⟩ := cut
      simp [ih found]
    · simp only [Option.map_eq_some_iff, Prod.mk.injEq] at cut
      obtain ⟨rest', found, rfl, rfl⟩ := cut
      simpa using after?_eq_some_iff.mp found

/-- The parts of a text between the occurrences of `separator`, read from the left; an empty
separator cuts nothing. -/
def parts (separator text : List Char) : List (List Char) :=
  if empty : separator = [] then [text]
  else
    match cut : firstCut? separator text with
    | none => [text]
    | some (before, rest) =>
      have : rest.length < text.length := length_lt_of_firstCut? empty cut
      before :: parts separator rest
termination_by text.length

theorem parts_ne_nil (separator text : List Char) : parts separator text ≠ [] := by
  unfold parts
  split
  · simp
  · split <;> simp

/-- The parts of `text` between the occurrences of `separator`. -/
def split (separator text : String) : List String :=
  (parts separator.toList text.toList).map String.ofList

/-- The first two parts around the first `separator`. -/
def splitOnce? (separator text : String) : Option (String × String) :=
  (firstCut? separator.toList text.toList).map fun (before, rest) =>
    (String.ofList before, String.ofList rest)

/-- The first two parts around the last `separator`. -/
def splitLast? (separator text : String) : Option (String × String) :=
  (lastCut? separator.toList text.toList).map fun (before, rest) =>
    (String.ofList before, String.ofList rest)

/-- `text` without a leading `front`. -/
def stripFront? (front text : String) : Option String :=
  (after? front.toList text.toList).map String.ofList

/-- `text` without a trailing `back`. -/
def stripBack? (back text : String) : Option String :=
  (after? back.toList.reverse text.toList.reverse).map fun rest => String.ofList rest.reverse

/-- Whether `text` begins with `front`. -/
def startsWith (front text : String) : Bool := (after? front.toList text.toList).isSome

/-- Whether `text` ends with `back`. -/
def endsWith (back text : String) : Bool := (stripBack? back text).isSome

/-- Whether `part` occurs in `text`. -/
def contains (part text : String) : Bool := (firstCut? part.toList text.toList).isSome

/-- The last character of a text. -/
def last? (text : String) : Option Char := text.toList.getLast?

/-- `parts` in order, with `separator` between them. -/
def join (separator : String) (parts : List String) : String := String.intercalate separator parts

end TabSpec.Text

import TabSpec.Json.Reader
import TabSpec.Json.Writer

/-! JSON read back: a written value is read as itself, up to whatever stands behind it. A number
keeps any text and half of a surrogate pair has none, so values with either are left out. -/
namespace TabSpec.Json

/-! ### Strings -/

/-- A text that begins with an escaped number. -/
def OpensNumber (text : List Char) : Prop :=
  ∃ a b c d rest, text = '\\' :: 'u' :: a :: b :: c :: d :: rest

section

variable {text chars rest : List Char}

/-- The digits of a number that was read are digits. -/
theorem exists_hex4?_of_readString {a b c d : Char} {result : Option (List Char) × List Char}
    (read : readString ('\\' :: 'u' :: a :: b :: c :: d :: text) = .ok result) :
    ∃ n, hex4? a b c d = some n := by
  cases digits : hex4? a b c d with
  | some n => exact ⟨n, rfl⟩
  | none =>
    by_cases another : OpensNumber text
    · obtain ⟨e, f, g, h, more, rfl⟩ := another
      rw [readString, digits] at read
      cases read
    · rw [readString] at read
      · rw [digits] at read
        cases read
      · exact fun e f g h more same => another ⟨e, f, g, h, more, same⟩

/-- A number below the surrogates is read as its character, also before another number. -/
theorem readString_number {n : Nat} {a b c d : Char} (digits : hex4? a b c d = some n)
    (small : n < 0xd800) (read : readString text = .ok (some chars, rest)) :
    readString ('\\' :: 'u' :: a :: b :: c :: d :: text) =
      .ok (some (Char.ofNat n :: chars), rest) := by
  by_cases another : OpensNumber text
  · obtain ⟨e, f, g, h, more, rfl⟩ := another
    obtain ⟨low, second⟩ := exists_hex4?_of_readString read
    rw [readString, digits, second]
    dsimp only
    rw [if_neg (by omega), if_neg (by omega), read]
    rfl
  · rw [readString]
    · rw [digits]
      dsimp only
      rw [if_neg (by omega), read]
      rfl
    · exact fun e f g h more same => another ⟨e, f, g, h, more, same⟩

theorem readString_letter {letter c : Char} (apart : letter ≠ 'u')
    (escaped : escaped? letter = some c) (read : readString text = .ok (some chars, rest)) :
    readString ('\\' :: letter :: text) = .ok (some (c :: chars), rest) := by
  rw [readString]
  · rw [escaped, read]
    rfl
  · exact fun _ _ _ _ _ _ _ _ _ same => absurd same apart
  · exact fun _ _ _ _ _ same => absurd same apart

theorem readString_plain {c : Char} (quote : c ≠ '"') (backslash : c ≠ '\\')
    (printed : ¬ c.toNat < 0x20) (read : readString text = .ok (some chars, rest)) :
    readString (c :: text) = .ok (some (c :: chars), rest) := by
  rw [readString, if_neg printed, read]
  · rfl
  · exact quote
  · exact fun _ _ _ _ _ _ _ _ _ same => absurd same backslash
  · exact fun _ _ _ _ _ same => absurd same backslash
  · exact fun _ _ same => absurd same backslash
  · exact fun same => absurd same backslash

/-- A character is escaped with a letter, with its number, or not at all. -/
theorem escapeChar_cases (c : Char) :
    (∃ letter, escapeChar c = ['\\', letter] ∧ letter ≠ 'u' ∧ escaped? letter = some c) ∨
    (c.toNat < 0x20 ∧ escapeChar c =
      ['\\', 'u', '0', '0', Nat.digitChar (c.toNat / 16), Nat.digitChar (c.toNat % 16)]) ∨
    (c ≠ '"' ∧ c ≠ '\\' ∧ ¬ c.toNat < 0x20 ∧ escapeChar c = [c]) := by
  unfold escapeChar
  iterate 7
    split
    · rename_i same
      subst same
      exact .inl ⟨_, rfl, by decide, by decide⟩
  split
  · rename_i control
    exact .inr (.inl ⟨control, rfl⟩)
  · exact .inr (.inr ⟨‹_›, ‹_›, ‹_›, rfl⟩)

theorem hex4?_escape : ∀ n < 0x20,
    hex4? '0' '0' (Nat.digitChar (n / 16)) (Nat.digitChar (n % 16)) = some n := by
  decide

theorem readString_escapeChar (c : Char) (read : readString text = .ok (some chars, rest)) :
    readString (escapeChar c ++ text) = .ok (some (c :: chars), rest) := by
  obtain ⟨letter, escape, apart, escaped⟩ | ⟨control, escape⟩ |
    ⟨quote, backslash, printed, escape⟩ := escapeChar_cases c
  · exact escape ▸ readString_letter apart escaped read
  · have char := readString_number (hex4?_escape c.toNat control) (by omega) read
    rw [Char.ofNat_toNat] at char
    exact escape ▸ char
  · exact escape ▸ readString_plain quote backslash printed read

/-- A text is read back up to its closing quote. -/
theorem readString_escape (value rest : List Char) :
    readString (value.flatMap escapeChar ++ '"' :: rest) = .ok (some value, rest) := by
  induction value with
  | nil => rw [List.flatMap_nil, List.nil_append, readString]
  | cons c more ih =>
    rw [List.flatMap_cons, List.append_assoc]
    exact readString_escapeChar c ih

end

/-! ### Values -/

/-- Made of words, texts, arrays and objects only. -/
inductive Textual : Json → Prop
  | null : Textual .null
  | bool (value : Bool) : Textual (.bool value)
  | string (value : String) : Textual (.string value)
  | array {items : List Json} (each : ∀ item ∈ items, Textual item) : Textual (.array items)
  | object {fields : List (String × Json)} (each : ∀ field ∈ fields, Textual field.2) :
    Textual (.object fields)

theorem textual_ofStrings (values : List String) : (ofStrings values).Textual :=
  .array (List.forall_mem_map.mpr fun value _ => .string value)

/-- Not a blank. -/
theorem skipSpace_cons {c : Char} (inked : isSpace c = false) (rest : List Char) :
    skipSpace (c :: rest) = c :: rest := by
  simp [skipSpace, inked]

/-- A written value begins neither with a blank nor like the end of an array. -/
theorem Textual.write_eq_cons {json : Json} (textual : json.Textual) :
    ∃ c rest, json.write = c :: rest ∧ isSpace c = false ∧ c ≠ ']' := by
  cases textual with
  | null => exact ⟨'n', _, rfl, by decide, by decide⟩
  | bool value => cases value <;> exact ⟨_, _, rfl, by decide, by decide⟩
  | string value => exact ⟨'"', _, rfl, by decide, by decide⟩
  | @array items each => cases items <;> exact ⟨'[', _, rfl, by decide, by decide⟩
  | @object fields each => cases fields <;> exact ⟨'\x7b', _, rfl, by decide, by decide⟩

/-- With enough fuel, a value is read back in front of any text. -/
def ReadsBack (json : Json) : Prop :=
  ∀ (fuel : Nat) (rest : List Char), json.write.length ≤ fuel →
    readValue (fuel + 1) (json.write ++ rest) = .ok (json, rest)

/-- The items of an array are read back when each of them is. -/
theorem readItems_write {items : List Json} (each : ∀ item ∈ items, item.ReadsBack) {item : Json}
    (first : item.ReadsBack) {fuel : Nat} (rest : List Char)
    (enough : (item.write ++ writeItems items).length ≤ fuel) :
    readItems (fuel + 1) (item.write ++ (writeItems items ++ rest)) = .ok (item :: items, rest) := by
  rw [List.length_append] at enough
  induction items generalizing item fuel with
  | nil =>
    rw [writeItems, List.length_singleton] at enough
    obtain ⟨fuel, rfl⟩ : ∃ less, fuel = less + 1 := ⟨fuel - 1, by omega⟩
    rw [readItems, first fuel _ (by omega)]
    rfl
  | cons second items ih =>
    rw [writeItems, List.length_cons, List.length_append] at enough
    obtain ⟨fuel, rfl⟩ : ∃ less, fuel = less + 1 := ⟨fuel - 1, by omega⟩
    obtain ⟨next, later⟩ := List.forall_mem_cons.mp each
    have more : readItems (fuel + 1) (second.write ++ (writeItems items ++ rest)) =
        .ok (second :: items, rest) := ih later next (by omega)
    rw [readItems, first fuel _ (by omega), writeItems, List.cons_append, List.append_assoc]
    change (readItems (fuel + 1) _ >>= _) = _
    rw [more]
    rfl

section

variable {fuel : Nat} {text rest : List Char} {value : Json}

theorem readFields_last (name : String) (read : readValue fuel text = .ok (value, '\x7d' :: rest)) :
    readFields (fuel + 1) (writeString name ++ ':' :: text) = .ok ([(name, value)], rest) := by
  rw [readFields, writeString, List.cons_append, skipSpace_cons (by decide), List.append_assoc]
  simp only [List.singleton_append, readString_escape, bind, Except.bind]
  rw [skipSpace_cons (by decide)]
  simp only [read, skipSpace_cons (c := '\x7d') (by decide)]
  rw [String.ofList_toList]
  rfl

theorem readFields_further (name : String) {more : List Char} {fields : List (String × Json)}
    (read : readValue fuel text = .ok (value, ',' :: more))
    (later : readFields fuel more = .ok (fields, rest)) :
    readFields (fuel + 1) (writeString name ++ ':' :: text) =
      .ok ((name, value) :: fields, rest) := by
  rw [readFields, writeString, List.cons_append, skipSpace_cons (by decide), List.append_assoc]
  simp only [List.singleton_append, readString_escape, bind, Except.bind]
  rw [skipSpace_cons (by decide)]
  simp only [read, skipSpace_cons (c := ',') (by decide), later]
  rw [String.ofList_toList]
  rfl

end

/-- The fields of an object are read back when the value of each is. -/
theorem readFields_write {fields : List (String × Json)}
    (each : ∀ field ∈ fields, field.2.ReadsBack) (name : String) {value : Json}
    (first : value.ReadsBack) {fuel : Nat} (rest : List Char)
    (enough : (value.write ++ writeFields fields).length ≤ fuel) :
    readFields (fuel + 1)
        (writeString name ++ ':' :: (value.write ++ (writeFields fields ++ rest))) =
      .ok ((name, value) :: fields, rest) := by
  rw [List.length_append] at enough
  induction fields generalizing name value fuel with
  | nil =>
    rw [writeFields, List.length_singleton] at enough
    obtain ⟨fuel, rfl⟩ : ∃ less, fuel = less + 1 := ⟨fuel - 1, by omega⟩
    exact readFields_last name (first fuel _ (by omega))
  | cons second fields ih =>
    simp only [writeFields, List.length_cons, List.length_append] at enough
    obtain ⟨fuel, rfl⟩ : ∃ less, fuel = less + 1 := ⟨fuel - 1, by omega⟩
    obtain ⟨next, later⟩ := List.forall_mem_cons.mp each
    have more : readFields (fuel + 1) (writeString second.1 ++ ':' ::
        (second.2.write ++ (writeFields fields ++ rest))) = .ok (second :: fields, rest) :=
      ih later second.1 next (by omega)
    simp only [writeFields, List.cons_append, List.append_assoc]
    exact readFields_further name (first fuel _ (by omega)) more

section

variable {fuel : Nat} {text rest : List Char}

theorem readValue_items {c : Char} {items : List Json} (inked : isSpace c = false) (opens : c ≠ ']')
    (read : readItems fuel (c :: text) = .ok (items, rest)) :
    readValue (fuel + 1) ('[' :: c :: text) = .ok (.array items, rest) := by
  rw [readValue, skipSpace_cons (by decide)]
  simp only [skipSpace_cons inked]
  split
  · rename_i same
    exact absurd (List.cons.inj same).1 opens
  · rw [read]
    rfl

theorem readValue_fields {name : String} {fields : List (String × Json)}
    (read : readFields fuel (writeString name ++ text) = .ok (fields, rest)) :
    readValue (fuel + 1) ('\x7b' :: (writeString name ++ text)) = .ok (.object fields, rest) := by
  rw [writeString, List.cons_append] at read ⊢
  generalize chars : name.toList.flatMap escapeChar ++ ['"'] ++ text = more at read ⊢
  rw [readValue, skipSpace_cons (by decide)]
  simp only [skipSpace_cons (c := '"') (by decide)]
  change (readFields fuel ('"' :: more) >>= _) = _
  rw [read]
  rfl

theorem readValue_string (value : String) :
    readValue (fuel + 1) (writeString value ++ rest) = .ok (.string value, rest) := by
  rw [writeString, List.cons_append, List.append_assoc, readValue, skipSpace_cons (by decide)]
  simp only [List.singleton_append, readString_escape]
  exact congrArg (fun value => Except.ok (Json.string value, rest)) String.ofList_toList

end

/-- Textual values are read back. -/
theorem Textual.readsBack {json : Json} (textual : json.Textual) : json.ReadsBack := by
  induction textual with
  | null => exact fun _ _ _ => rfl
  | bool value => cases value <;> exact fun _ _ _ => rfl
  | string value => exact fun _ _ _ => readValue_string value
  | @array items each ih =>
    intro fuel rest enough
    cases items with
    | nil => rfl
    | cons item items =>
      rw [write, List.length_cons] at enough
      obtain ⟨fuel, rfl⟩ : ∃ less, fuel = less + 1 := ⟨fuel - 1, by omega⟩
      obtain ⟨first, later⟩ := List.forall_mem_cons.mp ih
      have read := readItems_write later first rest (Nat.le_of_succ_le_succ enough)
      obtain ⟨c, more, begins, inked, opens⟩ := (each item List.mem_cons_self).write_eq_cons
      rw [write, List.cons_append, List.append_assoc]
      rw [begins] at read ⊢
      exact readValue_items inked opens read
  | @object fields each ih =>
    intro fuel rest enough
    cases fields with
    | nil => rfl
    | cons field fields =>
      simp only [write, List.length_cons, List.length_append] at enough
      obtain ⟨fuel, rfl⟩ : ∃ less, fuel = less + 1 := ⟨fuel - 1, by omega⟩
      obtain ⟨first, later⟩ := List.forall_mem_cons.mp ih
      have fits : (field.2.write ++ writeFields fields).length ≤ fuel := by
        rw [List.length_append]
        omega
      have read := readFields_write later field.1 first rest fits
      simp only [write, List.cons_append, List.append_assoc]
      exact readValue_fields read

/-- A text that was written is read back, also with blanks behind it. -/
theorem Textual.ofText_render {json : Json} (textual : json.Textual) {blanks : List Char}
    (blank : ∀ c ∈ blanks, isSpace c = true) :
    ofText (json.render ++ String.ofList blanks) = .ok json := by
  have skipped : skipSpace blanks = [] := by
    have last : (blanks ++ []).dropWhile isSpace = [].dropWhile isSpace :=
      List.dropWhile_append_of_pos blank
    rwa [List.append_nil] at last
  have read := textual.readsBack (json.write ++ blanks).length blanks
    (by rw [List.length_append]; omega)
  rw [ofText, render, String.toList_append, String.toList_ofList, String.toList_ofList]
  simp only [read, skipped, bind, Except.bind]
  rfl

end TabSpec.Json

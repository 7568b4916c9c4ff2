import TabSpec.Argument
import TabSpec.Proofs.Text.Blank
import TabSpec.Proofs.Text.Cut
import TabSpec.Proofs.Yaml.Scalar

/-! The spellings of a specification's file with an offset: a text with a comma, a list and a mapping. -/
namespace TabSpec

namespace SpecTarget

/-- A path that can stand in every spelling of a target: a text and no other value, without the characters
that the spellings are made of, and without blanks around it. -/
structure IsPlain (path : String) : Prop where
  value : Yaml.plainValue? path = some (.string path)
  comma : ',' ∉ path.toList
  brackets : '[' ∉ path.toList ∧ ']' ∉ path.toList
  braces : '\x7b' ∉ path.toList ∧ '\x7d' ∉ path.toList
  trimmed : Text.trim path = path

/-- A target as a path and an offset behind a comma. -/
def asText (path : String) (offset : Int) : String := path ++ ", " ++ toString offset

def asList (path : String) (offset : Int) : String := "[" ++ path ++ ", " ++ toString offset ++ "]"

def asMapping (path : String) (offset : Int) : String :=
  "\x7bpath: " ++ path ++ ", offset: " ++ toString offset ++ "\x7d"

/-- The documents of the spellings hold the path and the offset as plain scalars. -/
structure IsWritten (path : String) (offset : Int) : Prop where
  list : (Yaml.document? (asList path offset)).bind Yaml.Node.plainItems? =
    some [path, toString offset]
  mapping : (Yaml.document? (asMapping path offset)).bind Yaml.Node.plainEntries? =
    some [("path", path), ("offset", toString offset)]

variable {path : String} {offset : Int}

/-- The items of a list are values that are known before their shapes are. -/
theorem read_asList (value : Yaml.plainValue? path = some (.string path))
    (written : (Yaml.document? (asList path offset)).bind Yaml.Node.plainItems? =
      some [path, toString offset])
    (least : (Text.IntegerRange.signed 64).least ≤ offset)
    (greatest : offset ≤ (Text.IntegerRange.unsigned 64).greatest) :
    read (asList path offset) =
      ofOffset path (min offset (Text.IntegerRange.signed 64).greatest) := by
  have number := Yaml.plainValue?_toString least greatest
  have chars : (asList path offset).toList =
      '[' :: ((path ++ ", " ++ toString offset).toList ++ [']']) := by
    simp [asList]
  have trimmed : Text.trim (asList path offset) = asList path offset :=
    Text.trim_between chars (by decide) (by decide)
  have values : [Yaml.Node.scalar none path .plain, .scalar none (toString offset) .plain].all
      Yaml.Node.isValue = true := by
    simp only [List.all_cons, List.all_nil, Yaml.Node.isValue_plain value, Yaml.Node.isValue_plain number]
    rfl
  obtain ⟨node, document, texts⟩ := Option.bind_eq_some_iff.mp written
  obtain rfl := Yaml.Node.of_plainItems? texts
  simp only [read, trimmed, chars, document, Option.bind_some, Yaml.Node.items?, List.map_cons,
    List.map_nil, values, if_true, ofItems, Yaml.Node.stringValue?_plain value,
    Yaml.Node.integerValue?_plain number]

/-- The offset of a mapping is no negative number, and no other one is taken for it. -/
theorem read_asMapping
    (written : (Yaml.document? (asMapping path offset)).bind Yaml.Node.plainEntries? =
      some [("path", path), ("offset", toString offset)])
    (greatest : offset ≤ (Text.IntegerRange.unsigned 64).greatest) :
    (read (asMapping path offset)).toOption =
      if 0 ≤ offset then some ⟨path, offset.toNat⟩ else none := by
  have chars : (asMapping path offset).toList =
      '\x7b' :: (("path: " ++ path ++ ", offset: " ++ toString offset).toList ++ ['\x7d']) := by
    simp [asMapping]
  have trimmed : Text.trim (asMapping path offset) = asMapping path offset :=
    Text.trim_between chars (by decide) (by decide)
  have fields : ofNode? (.mapping none
        [(.scalar none "path" .plain, .scalar none path .plain),
          (.scalar none "offset" .plain, .scalar none (toString offset) .plain)]) =
      (Yaml.Node.unsigned? 64 (.scalar none (toString offset) .plain)).bind fun offset =>
        some ⟨path, offset⟩ := rfl
  obtain ⟨node, document, texts⟩ := Option.bind_eq_some_iff.mp written
  obtain rfl := Yaml.Node.of_plainEntries? texts
  simp only [read, trimmed, chars, document, List.map_cons, List.map_nil, Option.bind_some, fields,
    Yaml.Node.unsigned?_plain, Yaml.unsignedOf?_toString greatest]
  by_cases positive : 0 ≤ offset
  · simp only [if_pos positive, Option.bind_some, if_pos greatest]
    rfl
  · simp only [if_neg positive, Option.bind_none]
    rfl

theorem IsPlain.exists_cons (plain : IsPlain path) :
    ∃ c rest, path.toList = c :: rest ∧ c ≠ '[' ∧ c ≠ '\x7b' ∧ Text.isBlank c = false := by
  obtain ⟨c, rest, whole⟩ : ∃ c rest, path.toList = c :: rest := by
    refine List.exists_cons_of_ne_nil fun empty => ?_
    obtain rfl : path = "" := String.toList_inj.mp empty
    have value := plain.value
    cases value
  refine ⟨c, rest, whole, ?_, ?_, ?_⟩
  · rintro rfl
    exact plain.brackets.1 (by simp [whole])
  · rintro rfl
    exact plain.braces.1 (by simp [whole])
  · exact (Text.of_trim_eq_self plain.trimmed).1 c (by simp [whole])

/-- Behind its last comma, a text may hold any integer; one that does not fit is part of the path. -/
theorem read_asText (plain : IsPlain path) :
    read (asText path offset) =
      if (Text.IntegerRange.signed 64).contains offset then ofOffset path offset
      else .ok ⟨asText path offset, 0⟩ := by
  obtain ⟨c, rest, whole, bracket, brace, solid⟩ := plain.exists_cons
  have chars : (asText path offset).toList = c :: (rest ++ (", " ++ toString offset).toList) := by
    simp [asText, whole]
  have trimmed : Text.trim (asText path offset) = asText path offset := by
    obtain ⟨front, digit, ends, decimal⟩ := Text.exists_toString_eq_concat offset
    have shape : (asText path offset).toList = c :: (rest ++ ", ".toList ++ front ++ [digit]) := by
      simp only [asText, String.toList_append, ends, whole, List.cons_append, List.append_assoc]
    exact Text.trim_between shape solid (Text.isBlank_of_isDigit decimal)
  have cut : Text.splitLast? "," (asText path offset) = some (path, " " ++ toString offset) := by
    have absent : ',' ∉ (" " ++ toString offset).toList := by
      have number := Text.not_mem_toString (by decide : ',' ≠ '-') (by decide) offset
      simpa using number
    have parted : (asText path offset).toList =
        path.toList ++ ',' :: (" " ++ toString offset).toList := by
      simp [asText]
    have found : Text.lastCut? ",".toList
        (path.toList ++ ',' :: (" " ++ toString offset).toList) = _ :=
      Text.lastCut?_append absent path.toList
    rw [Text.splitLast?, parted, found, Option.map_some]
    dsimp only
    rw [String.ofList_toList, String.ofList_toList]
  have number : Text.trim (" " ++ toString offset) = toString offset := by
    have blank : Text.trimFront (" " ++ toString offset).toList =
        Text.trimFront (toString offset).toList := by
      rw [String.toList_append]
      rfl
    have solid := Text.trim_toString offset
    rw [Text.trim] at solid ⊢
    rw [blank, solid]
  unfold read
  dsimp only
  rw [trimmed, chars]
  split
  · rename_i empty
    cases empty
  · rename_i opened
    exact absurd (List.cons.inj opened).1 brace
  · rename_i opened
    exact absurd (List.cons.inj opened).1 bracket
  · rw [cut]
    dsimp only
    rw [number, Text.readDecimal?_toString (by decide) (by decide), plain.trimmed]
    by_cases within : (Text.IntegerRange.signed 64).contains offset = true
    · rw [if_pos within, if_pos within]
    · rw [if_neg within, if_neg within]

theorem toOption_ofOffset (path : String) (offset : Int) :
    (ofOffset path offset).toOption = if 0 ≤ offset then some ⟨path, offset.toNat⟩ else none := by
  unfold ofOffset
  by_cases negative : offset < 0
  · rw [if_pos negative, if_neg (Int.not_le.mpr negative)]
    rfl
  · rw [if_neg negative, if_pos (Int.not_lt.mp negative)]
    rfl

theorem toOption_decode (text : String) : (decode text).toOption = (read text).toOption := by
  unfold decode
  cases read text <;> rfl

/-- The spellings of a target agree on every offset that is a signed integer of 64 bits: a path with that
offset, and nothing if it is negative. Above these the spellings go by the integers that each is read with:
a list keeps the largest signed one, a mapping the offset itself, and a text holds no offset behind its last
comma, so that all of it is the path. -/
theorem decode_spellings (path : String) (plain : IsPlain path) (offset : Int)
    (written : IsWritten path offset) (least : (Text.IntegerRange.signed 64).least ≤ offset)
    (greatest : offset ≤ (Text.IntegerRange.unsigned 64).greatest) :
    (offset ≤ (Text.IntegerRange.signed 64).greatest →
      let meant := if 0 ≤ offset then some ⟨path, offset.toNat⟩ else none
      (decode (asText path offset)).toOption = meant ∧
      (decode (asList path offset)).toOption = meant ∧
      (decode (asMapping path offset)).toOption = meant) ∧
    ((Text.IntegerRange.signed 64).greatest < offset →
      (decode (asText path offset)).toOption = some ⟨asText path offset, 0⟩ ∧
      (decode (asList path offset)).toOption =
        some ⟨path, (Text.IntegerRange.signed 64).greatest.toNat⟩ ∧
      (decode (asMapping path offset)).toOption = some ⟨path, offset.toNat⟩) := by
  have zero : (0 : Int) ≤ (Text.IntegerRange.signed 64).greatest := by decide
  have text := toOption_decode (asText path offset)
  have list := toOption_decode (asList path offset)
  have mapping := toOption_decode (asMapping path offset)
  rw [read_asText plain] at text
  rw [read_asList plain.value written.list least greatest, toOption_ofOffset] at list
  rw [read_asMapping written.mapping greatest] at mapping
  constructor
  · intro fits
    have within : (Text.IntegerRange.signed 64).contains offset = true :=
      Text.IntegerRange.contains_iff.mpr ⟨least, fits⟩
    rw [if_pos within, toOption_ofOffset] at text
    rw [Int.min_eq_left fits] at list
    exact ⟨text, list, mapping⟩
  · intro exceeds
    have positive : 0 ≤ offset := by omega
    have outside : ¬ (Text.IntegerRange.signed 64).contains offset = true := by
      rw [Text.IntegerRange.contains_iff]
      omega
    rw [if_neg outside] at text
    rw [Int.min_eq_right (Int.le_of_lt exceeds), if_pos zero] at list
    rw [if_pos positive] at mapping
    exact ⟨text, list, mapping⟩

namespace Sample

theorem isPlain_nested : IsPlain "nested.yaml" :=
  ⟨by decide +kernel, by decide, by decide, by decide, by decide⟩

theorem isWritten_nested : IsWritten "nested.yaml" 3 := ⟨by decide +kernel, by decide +kernel⟩

end Sample

/-- A path with a small offset. -/
theorem decode_spellings_sample :
    IsPlain "nested.yaml" ∧ IsWritten "nested.yaml" 3 ∧
    (decode "nested.yaml, 3").toOption = some ⟨"nested.yaml", 3⟩ ∧
    (decode "[nested.yaml, 3]").toOption = some ⟨"nested.yaml", 3⟩ ∧
    (decode "\x7bpath: nested.yaml, offset: 3\x7d").toOption = some ⟨"nested.yaml", 3⟩ := by
  refine ⟨Sample.isPlain_nested, Sample.isWritten_nested, ?_⟩
  exact (decode_spellings "nested.yaml" Sample.isPlain_nested 3 Sample.isWritten_nested (by decide)
    (by decide)).1 (by decide)

/-- The offset above all signed ones is another one in each of the spellings. -/
theorem spellings_part_above_signed :
    IsPlain "nested.yaml" ∧ IsWritten "nested.yaml" 9223372036854775808 ∧
    (decode "nested.yaml, 9223372036854775808").toOption =
      some ⟨"nested.yaml, 9223372036854775808", 0⟩ ∧
    (decode "[nested.yaml, 9223372036854775808]").toOption =
      some ⟨"nested.yaml", 9223372036854775807⟩ ∧
    (decode "\x7bpath: nested.yaml, offset: 9223372036854775808\x7d").toOption =
      some ⟨"nested.yaml", 9223372036854775808⟩ :=
  ⟨Sample.isPlain_nested, ⟨by decide +kernel, by decide +kernel⟩, by decide +kernel,
    by decide +kernel, by decide +kernel⟩

end SpecTarget
end TabSpec

import TabSpec.Proofs.Flag.Cutting
import TabSpec.Proofs.Outcome

/-! Flags written as identifiers and read back. A flag that was read comes back from its identifier,
but for what no identifier can tell: a longhand with one dash is read as a shorthand when none stands
before it, and the single dash of an empty longhand is lost. -/
namespace TabSpec.Flag

/-! ### The parts behind a shorthand -/

theorem isNumber_toString (value : Int) : IsNumber (toString value).toList := by
  refine ⟨decide (value < 0), Nat.toDigits 10 value.natAbs, ?_, Nat.toDigits_ne_nil, fun d member => ?_⟩
  · rw [Text.toList_toString, Text.sign]
    simp
  · exact Text.isDecimalDigit_of_isDigit (Nat.isDigit_of_mem_toDigits (by decide) (by decide) member)

/-- The parts are read as they were written, behind a separator or not. -/
theorem Tail.IsRead.ofText?_written {tail : Tail} (isRead : tail.IsRead) :
    Tail.ofText? (tail.longhand ++ tail.ending) = some tail ∧
      Tail.ofText? (',' :: ' ' :: (tail.longhand ++ tail.ending)) = some tail :=
  ⟨ofText?_eq_some_iff.mpr ⟨[], .inl rfl, rfl, isRead⟩,
    ofText?_eq_some_iff.mpr ⟨[',', ' '], .inr rfl, rfl, isRead⟩⟩

/-! ### Shorthands before them -/

theorem cuts_concat (run : List Char) (c : Char) :
    cuts (run ++ [c]) =
      (run ++ [c], []) :: (cuts run).map fun (front, back) => (front, back ++ [c]) := by
  unfold cuts
  rw [List.length_append, List.length_singleton, List.range_succ, List.reverse_append,
    List.reverse_singleton, List.singleton_append, List.map_cons, List.map_map]
  congr 1
  · simp [List.take_of_length_le]
  · refine List.map_congr_left fun count member => ?_
    have within : count ≤ run.length := by simpa [Nat.lt_succ_iff] using member
    simp [List.take_append_of_le_length within, List.drop_append_of_le_length within]

/-- The longest cut takes the whole run. -/
theorem exists_cuts_eq_cons (run : List Char) : ∃ others, cuts run = (run, []) :: others := by
  rcases List.eq_nil_or_concat run with rfl | ⟨run, c, rfl⟩
  · exact ⟨[], rfl⟩
  · exact ⟨_, List.concat_eq_append ▸ cuts_concat run c⟩

section

variable {c : Char} {front : List Char} {tail : Tail}

theorem shorthands_of_ne (undashed : c ≠ '-') (free : ∀ d ∈ front, endsForm d = false)
    {behind : List Char} (stops : ∀ d ∈ behind.head?, endsForm d = true) :
    shorthands ('-' :: c :: (front ++ behind)) =
      (cuts front).map (fun (front, back) => ('-' :: c :: front, back ++ behind)) ++
        [([], '-' :: c :: (front ++ behind))] := by
  obtain ⟨taken, left⟩ := form_cut free stops
  simp [shorthands, undashed, taken, left]

/-- A shorthand alone is as long as it can be. -/
theorem partsOf?_shorthand (undashed : c ≠ '-') (free : ∀ d ∈ front, endsForm d = false)
    (isRead : tail.IsRead) (bare : tail.longhand = []) :
    partsOf? ('-' :: c :: (front ++ tail.ending)) = some ('-' :: c :: front, tail) := by
  obtain ⟨others, longest⟩ := exists_cuts_eq_cons front
  have written := isRead.ofText?_written.1
  rw [bare, List.nil_append] at written
  simp [partsOf?, shorthands_of_ne undashed free (Tail.head?_ending isRead.modifiers), longest, written]

/-- A shorthand ends before the separator, although the comma could be a part of it. -/
theorem partsOf?_separated (undashed : c ≠ '-') (free : ∀ d ∈ front, endsForm d = false)
    (isRead : tail.IsRead) :
    partsOf? ('-' :: c :: (front ++ ',' :: ' ' :: (tail.longhand ++ tail.ending))) =
      some ('-' :: c :: front, tail) := by
  have chars : front ++ ',' :: ' ' :: (tail.longhand ++ tail.ending) =
      front ++ [','] ++ ' ' :: (tail.longhand ++ tail.ending) := by
    simp
  have longer : ∀ d ∈ front ++ [','], endsForm d = false := by
    intro d member
    rcases List.mem_append.mp member with inside | comma
    · exact free d inside
    · rw [List.mem_singleton.mp comma]
      decide
  have stops : ∀ d ∈ (' ' :: (tail.longhand ++ tail.ending)).head?, endsForm d = true := by
    rintro d ⟨rfl⟩
    decide
  have refused : Tail.ofText? (' ' :: (tail.longhand ++ tail.ending)) = none := by
    have space : isModifier ' ' = false := by decide
    simp [Tail.ofText?, space, nargsOf?]
  obtain ⟨others, longest⟩ := exists_cuts_eq_cons front
  rw [chars, partsOf?, shorthands_of_ne undashed longer stops, cuts_concat, longest]
  simp [refused, isRead.ofText?_written.2]

/-- Two dashes begin a longhand. -/
theorem partsOf?_longhand {rest : List Char} (isRead : tail.IsRead)
    (doubled : tail.longhand = '-' :: '-' :: rest) :
    partsOf? (tail.longhand ++ tail.ending) = some ([], tail) := by
  have written := isRead.ofText?_written.1
  rw [doubled] at written ⊢
  simpa [partsOf?, shorthands] using written

end

/-! ### Flags -/

/-- What is read from an identifier. -/
structure Legible (flag : Flag) : Prop where
  shorthand : ∀ c front, flag.shorthand.toList = c :: front →
    c ≠ '-' ∧ ∀ d ∈ front, endsForm d = false
  longhand : ∀ c ∈ flag.longhand.toList, endsForm c = false
  undashed : flag.longhand.toList.head? ≠ some '-'
  optionalArg : flag.optionalArg = true → flag.takesValue = true
  nargs : (Text.IntegerRange.signed 32).contains flag.nargs = true
  named : ¬ (flag.longhand = "" ∧ flag.shorthand = "")

/-- The modifiers of a flag in the order in which they are written. -/
def modifiers (flag : Flag) : List Char :=
  (if flag.optionalArg then ['?'] else if flag.takesValue then ['='] else []) ++
    (if flag.repeatable then ['*'] else []) ++ (if flag.required then ['!'] else []) ++
    (if flag.hidden then ['&'] else [])

/-- What is written of a flag behind its shorthand. -/
def tail (flag : Flag) : Tail where
  longhand := (flag.longForm?.getD "").toList
  modifiers := flag.modifiers
  nargs := if flag.nargs = 0 then none else some (toString flag.nargs).toList

theorem toList_format (flag : Flag) :
    flag.format.toList = (flag.shortForm?.getD "").toList ++
      ((if flag.shorthand = "" ∨ flag.longhand = "" then [] else [',', ' ']) ++
        (flag.tail.longhand ++ flag.tail.ending)) := by
  have ending : flag.tail.ending =
      ((if flag.optionalArg then "?" else if flag.takesValue then "=" else "") ++
        (if flag.repeatable then "*" else "") ++ (if flag.required then "!" else "") ++
        (if flag.hidden then "&" else "") ++
        (if flag.nargs = 0 then "" else "\x7b" ++ toString flag.nargs ++ "\x7d")).toList := by
    simp only [Tail.ending, tail, modifiers, String.toList_append, apply_ite String.toList]
    by_cases none : flag.nargs = 0
    · simp [none, braced]
    · simp [none, braced]
  rw [ending]
  by_cases short : flag.shorthand = "" <;> by_cases long : flag.longhand = "" <;>
    simp [format, tail, shortForm?, longForm?, short, long]

theorem contains_modifiers (flag : Flag) :
    flag.modifiers.contains '?' = flag.optionalArg ∧
    flag.modifiers.contains '=' = (!flag.optionalArg && flag.takesValue) ∧
    flag.modifiers.contains '*' = flag.repeatable ∧
    flag.modifiers.contains '!' = flag.required ∧
    flag.modifiers.contains '&' = flag.hidden := by
  unfold modifiers
  cases flag.optionalArg <;> cases flag.takesValue <;> cases flag.repeatable <;>
    cases flag.required <;> cases flag.hidden <;> decide

theorem dropDashes_cons (form : List Char) : dropDashes ('-' :: form) = dropDashes form := rfl

theorem dropDashes_of_head? {form : List Char} (undashed : form.head? ≠ some '-') :
    dropDashes form = String.ofList form := by
  cases form with
  | nil => rfl
  | cons c form => simp_all [dropDashes]

/-- A word is read back behind its dash. -/
theorem dropDashes_word {word : String} {c : Char} {front : List Char}
    (chars : word.toList = c :: front) (undashed : c ≠ '-') :
    dropDashes ('-' :: c :: front) = word := by
  rw [dropDashes_cons, dropDashes_of_head? (by simpa using undashed), ← chars, String.ofList_toList]

/-- How a flag is read whose identifier is written. -/
def respelled (flag : Flag) : Flag :=
  if flag.longhand = "" then { flag with nameAsShorthand := false }
  else if flag.shorthand = "" ∧ flag.nameAsShorthand = true then
    { flag with shorthand := flag.longhand, longhand := "", nameAsShorthand := false }
  else flag

/-- A flag without longhand that is marked as one with a single dash, or one with a single dash and no
shorthand, does not come back. -/
theorem respelled_eq_self_iff {flag : Flag} :
    flag.respelled = flag ↔
      (flag.nameAsShorthand = true → flag.shorthand ≠ "" ∧ flag.longhand ≠ "") := by
  obtain ⟨shorthand, longhand, description, nameAsShorthand⟩ := flag
  unfold respelled
  by_cases long : longhand = ""
  · cases nameAsShorthand <;> simp [long]
  · by_cases short : shorthand = ""
    · cases nameAsShorthand <;> simp [long, short, eq_comm]
    · simp [long, short]

namespace Legible

variable {flag : Flag} (legible : flag.Legible)

include legible

theorem isRead_tail : flag.tail.IsRead where
  longhand := by
    by_cases none : flag.longhand = ""
    · left
      simp [tail, longForm?, none]
    · right
      refine ⟨(if flag.nameAsShorthand then [] else ['-']) ++ flag.longhand.toList, ?_, ?_⟩
      · cases single : flag.nameAsShorthand <;> simp [tail, longForm?, none, single]
      · intro c member
        rcases List.mem_append.mp member with dash | inside
        · cases single : flag.nameAsShorthand with
          | true => simp [single] at dash
          | false =>
            simp only [single, Bool.false_eq_true, if_false, List.mem_singleton] at dash
            rw [dash]
            decide
        · exact legible.longhand c inside
  modifiers := by
    refine List.all_eq_true.mp (?_ : flag.modifiers.all isModifier = true)
    unfold modifiers
    cases flag.optionalArg <;> cases flag.takesValue <;> cases flag.repeatable <;>
      cases flag.required <;> cases flag.hidden <;> decide
  nargs := by
    intro number written
    simp only [tail] at written
    split at written
    · cases written
    · exact Option.some.inj written ▸ isNumber_toString flag.nargs

/-- The fields behind the forms are told by the parts. -/
theorem parse_eq_ok {identifier : String} {shorthand longhand : List Char} (description : String)
    (parts : partsOf? identifier.toList = some (shorthand, { flag.tail with longhand }))
    (named : ¬ (dropDashes longhand = "" ∧ dropDashes shorthand = "")) :
    parse identifier description = .ok
      { flag with
        shorthand := dropDashes shorthand
        longhand := dropDashes longhand
        description
        nameAsShorthand := !longhand.isEmpty && longhand.take 2 != ['-', '-'] } := by
  obtain ⟨optional, value, repeatable, required, hidden⟩ := contains_modifiers flag
  have takes : (flag.optionalArg || (!flag.optionalArg && flag.takesValue)) = flag.takesValue := by
    cases optionalArg : flag.optionalArg with
    | false => rfl
    | true => simp [legible.optionalArg optionalArg]
  have marks : flag.tail.modifiers = flag.modifiers := rfl
  simp only [parse, parts, marks, optional, value, repeatable, required, hidden, takes]
  by_cases none : flag.nargs = 0
  · simp only [tail, none, if_true]
    rw [if_neg named]
  · have number := Text.readInteger_toString (by decide) legible.nargs
    simp only [tail, none, if_false, number]
    rw [if_neg named]

/-- A word behind one dash is read as a shorthand. -/
theorem parse_word {identifier word : String} (some : word ≠ "")
    (form : ∀ c front, word.toList = c :: front → c ≠ '-' ∧ ∀ d ∈ front, endsForm d = false)
    (written : identifier.toList = '-' :: (word.toList ++ flag.tail.ending)) :
    parse identifier flag.description = .ok
      { flag with shorthand := word, longhand := "", nameAsShorthand := false } := by
  obtain ⟨c, front, chars⟩ := List.exists_cons_of_ne_nil (mt String.toList_eq_nil_iff.mp some)
  obtain ⟨undashed, free⟩ := form c front chars
  have word' := dropDashes_word chars undashed
  have bare : ({ flag.tail with longhand := [] } : Tail).IsRead :=
    ⟨.inl rfl, legible.isRead_tail.modifiers, legible.isRead_tail.nargs⟩
  have parts : partsOf? identifier.toList =
      .some ('-' :: c :: front, { flag.tail with longhand := [] }) := by
    rw [written, chars]
    exact partsOf?_shorthand undashed free bare rfl
  have read := legible.parse_eq_ok flag.description parts (by simp [word', some])
  rw [read, word']
  rfl

/-- A longhand is read back behind its dashes. -/
theorem dropDashes_longhand (some : flag.longhand ≠ "") :
    dropDashes flag.tail.longhand = flag.longhand ∧
      (!flag.tail.longhand.isEmpty && flag.tail.longhand.take 2 != ['-', '-']) =
        flag.nameAsShorthand := by
  obtain ⟨c, front, chars⟩ := List.exists_cons_of_ne_nil (mt String.toList_eq_nil_iff.mp some)
  have undashed : c ≠ '-' := by simpa [chars] using legible.undashed
  have word : dropDashes flag.longhand.toList = flag.longhand := by
    rw [dropDashes_of_head? legible.undashed, String.ofList_toList]
  cases single : flag.nameAsShorthand with
  | true =>
    have long : flag.tail.longhand = '-' :: flag.longhand.toList := by
      simp [tail, longForm?, some, single]
    rw [long, dropDashes_cons, word, chars]
    simp [undashed]
  | false =>
    have long : flag.tail.longhand = '-' :: '-' :: flag.longhand.toList := by
      simp [tail, longForm?, some, single]
    rw [long, dropDashes_cons, dropDashes_cons, word]
    simp

theorem parse_longhand (short : flag.shorthand = "") (long : flag.longhand ≠ "")
    (double : flag.nameAsShorthand = false) :
    parse flag.format flag.description = .ok flag := by
  obtain ⟨longhand, dashes⟩ := legible.dropDashes_longhand long
  have doubled : flag.tail.longhand = '-' :: '-' :: flag.longhand.toList := by
    simp [tail, longForm?, long, double]
  have written : flag.format.toList = flag.tail.longhand ++ flag.tail.ending := by
    simpa [short, shortForm?] using toList_format flag
  have parts : partsOf? flag.format.toList =
      some ([], { flag.tail with longhand := flag.tail.longhand }) :=
    written ▸ partsOf?_longhand legible.isRead_tail doubled
  have read := legible.parse_eq_ok flag.description parts (by simp [longhand, long])
  have none : dropDashes [] = flag.shorthand := short.symm
  rw [read, longhand, dashes, none]

theorem parse_forms (short : flag.shorthand ≠ "") (long : flag.longhand ≠ "") :
    parse flag.format flag.description = .ok flag := by
  obtain ⟨longhand, dashes⟩ := legible.dropDashes_longhand long
  obtain ⟨c, front, chars⟩ := List.exists_cons_of_ne_nil (mt String.toList_eq_nil_iff.mp short)
  obtain ⟨undashed, free⟩ := legible.shorthand c front chars
  have written : flag.format.toList =
      '-' :: c :: (front ++ ',' :: ' ' :: (flag.tail.longhand ++ flag.tail.ending)) := by
    simpa [short, long, shortForm?, chars] using toList_format flag
  have parts : partsOf? flag.format.toList =
      some ('-' :: c :: front, { flag.tail with longhand := flag.tail.longhand }) :=
    written ▸ partsOf?_separated undashed free legible.isRead_tail
  have read := legible.parse_eq_ok flag.description parts (by simp [longhand, long])
  rw [read, longhand, dashes, dropDashes_word chars undashed]

/-- What a flag is read as whose identifier is written. -/
theorem parse_format_eq_respelled : parse flag.format flag.description = .ok flag.respelled := by
  have whole := toList_format flag
  by_cases long : flag.longhand = ""
  · have some : flag.shorthand ≠ "" := fun short => legible.named ⟨long, short⟩
    have written : flag.format.toList = '-' :: (flag.shorthand.toList ++ flag.tail.ending) := by
      simpa [long, some, tail, shortForm?, longForm?] using whole
    rw [legible.parse_word some legible.shorthand written, respelled, if_pos long, long]
  · by_cases lost : flag.shorthand = "" ∧ flag.nameAsShorthand = true
    · have form : ∀ c front, flag.longhand.toList = c :: front →
          c ≠ '-' ∧ ∀ d ∈ front, endsForm d = false := by
        intro c front chars
        refine ⟨by simpa [chars] using legible.undashed, fun d member => ?_⟩
        exact legible.longhand d (by rw [chars]; exact List.mem_cons_of_mem c member)
      have written : flag.format.toList = '-' :: (flag.longhand.toList ++ flag.tail.ending) := by
        simpa [long, lost, tail, shortForm?, longForm?] using whole
      rw [legible.parse_word long form written, respelled, if_neg long, if_pos lost]
    · rw [respelled, if_neg long, if_neg lost]
      by_cases short : flag.shorthand = ""
      · exact legible.parse_longhand short long (by simpa [short] using lost)
      · exact legible.parse_forms short long

end Legible

/-! ### Flags from identifiers -/

theorem of_partsOf? {text shorthand : List Char} {tail : Tail}
    (found : partsOf? text = some (shorthand, tail)) :
    IsShorthand shorthand ∧ ∀ c ∈ tail.longhand, endsForm c = false := by
  obtain ⟨isShorthand, ⟨rest, -, read⟩, -⟩ := partsOf?_eq_some_iff.mp found
  obtain ⟨-, -, -, isRead⟩ := ofText?_eq_some_iff.mp read
  refine ⟨isShorthand, fun c member => ?_⟩
  rcases isRead.longhand with none | ⟨body, long, free⟩
  · rw [none] at member
    cases member
  · rw [long] at member
    rcases List.mem_cons.mp member with rfl | inside
    · decide
    · exact free c inside

theorem head?_dropDashes (form : List Char) : (dropDashes form).toList.head? ≠ some '-' := by
  have head := List.head?_dropWhile_not (· == '-') form
  intro dash
  rw [dropDashes, String.toList_ofList] at dash
  simp [dash] at head

theorem mem_of_mem_dropDashes {form : List Char} {c : Char} (member : c ∈ (dropDashes form).toList) :
    c ∈ form := by
  rw [dropDashes, String.toList_ofList] at member
  exact (List.dropWhile_suffix _).subset member

/-- What is read from an identifier can be written as one. -/
theorem legible_of_parse {identifier description : String} {flag : Flag}
    (read : parse identifier description = .ok flag) :
    flag.Legible ∧ flag.description = description := by
  unfold parse at read
  split at read
  · cases read
  · rename_i shorthand tail parts
    obtain ⟨short, long⟩ := of_partsOf? parts
    dsimp only at read
    split at read
    · cases read
    · rename_i nargs number
      split at read
      · cases read
      · rename_i named
        obtain rfl := Except.ok.inj read
        refine ⟨⟨?_, ?_, head?_dropDashes _, ?_, ?_, named⟩, rfl⟩
        · intro c front chars
          rcases short with rfl | ⟨d, others, rfl, undashed, free⟩
          · simp [dropDashes] at chars
          · rw [dropDashes_word String.toList_ofList undashed,
              String.toList_ofList] at chars
            obtain ⟨rfl, rfl⟩ := List.cons.inj chars
            exact ⟨undashed, free⟩
        · exact fun c member => long c (mem_of_mem_dropDashes member)
        · intro optional
          dsimp only at optional ⊢
          rw [optional, Bool.true_or]
        · split at number
          · obtain rfl := Except.ok.inj number
            rfl
          · exact Text.contains_of_readInteger (by decide) number

/-! ### Reading back -/

/-- A flag that was read from an identifier and is written as one again is read as the same flag,
except if its longhand is marked as one with a single dash and either is empty or has no shorthand
before it. In these cases only the mark is lost, or the longhand becomes a shorthand as well. -/
theorem parse_format {identifier description : String} {flag : Flag}
    (read : parse identifier description = .ok flag) :
    parse flag.format description = .ok flag.respelled ∧
      (parse flag.format description = .ok flag ↔
        (flag.nameAsShorthand = true → flag.shorthand ≠ "" ∧ flag.longhand ≠ "")) := by
  obtain ⟨legible, described⟩ := legible_of_parse read
  have back := legible.parse_format_eq_respelled
  rw [described] at back
  refine ⟨back, ?_⟩
  rw [back, ← respelled_eq_self_iff, Except.ok.injEq]

/-- A shorthand that ends in a comma, a longhand with one dash, and a negative number. -/
theorem parse_format_sample :
    ∃ flag, parse "-s,, -long?!*\x7b-2\x7d" "d" = .ok flag ∧ flag.shorthand = "s," ∧
      flag.longhand = "long" ∧ flag.nargs = -2 ∧ parse flag.format "d" = .ok flag := by
  have reads : (parse "-s,, -long?!*\x7b-2\x7d" "d").toOption.any (fun flag =>
      flag.shorthand == "s," && flag.longhand == "long" && flag.nargs == -2) = true := by
    decide +kernel
  obtain ⟨flag, read, fields⟩ := exists_of_toOption_any reads
  simp only [Bool.and_eq_true, beq_iff_eq] at fields
  obtain ⟨⟨short, long⟩, nargs⟩ := fields
  refine ⟨flag, read, short, long, nargs, (parse_format read).2.mpr fun _ => ?_⟩
  rw [short, long]
  decide

/-- A longhand with one dash that stands alone behind a separator is written without the separator,
and read as a shorthand; an empty longhand with one dash is written as none. -/
theorem format_loses_dash :
    (∃ flag, parse ", -long" "" = .ok flag ∧ flag.longhand = "long" ∧
      ∃ back, parse flag.format "" = .ok back ∧ back.longhand = "" ∧ back ≠ flag) ∧
    ∃ flag, parse "-a, -" "" = .ok flag ∧ flag.nameAsShorthand = true ∧
      ∃ back, parse flag.format "" = .ok back ∧ back.nameAsShorthand = false ∧ back ≠ flag := by
  constructor
  · have reads : (parse ", -long" "").toOption.any (fun flag => flag.longhand == "long" &&
        (parse flag.format "").toOption.any (·.longhand == "")) = true := by
      decide +kernel
    obtain ⟨flag, read, fields⟩ := exists_of_toOption_any reads
    simp only [Bool.and_eq_true, beq_iff_eq] at fields
    obtain ⟨long, written⟩ := fields
    obtain ⟨back, readBack, lost⟩ := exists_of_toOption_any written
    rw [beq_iff_eq] at lost
    refine ⟨flag, read, long, back, readBack, lost, ?_⟩
    rintro rfl
    simp [long] at lost
  · have reads : (parse "-a, -" "").toOption.any (fun flag => flag.nameAsShorthand &&
        (parse flag.format "").toOption.any (!·.nameAsShorthand)) = true := by
      decide +kernel
    obtain ⟨flag, read, fields⟩ := exists_of_toOption_any reads
    rw [Bool.and_eq_true] at fields
    obtain ⟨dashed, written⟩ := fields
    obtain ⟨back, readBack, lost⟩ := exists_of_toOption_any written
    rw [Bool.not_eq_true'] at lost
    refine ⟨flag, read, dashed, back, readBack, lost, ?_⟩
    rintro rfl
    simp [dashed] at lost

end TabSpec.Flag

import Mathlib.Data.List.TakeWhile
import TabSpec.Proofs.Flag.Spelling

/-! The grammar of flag identifiers. An identifier may be cut into its parts in several ways, since commas
and dashes can belong to a shorthand; the longest shorthand decides, and what stands behind it can be cut
in one way only. -/
namespace TabSpec.Flag

/-! ### One reading behind a shorthand -/

/-- Of what stands before a number of arguments, only a shorthand of one character ends in a brace. -/
theorem eq_of_getLast?_eq {shorthand separator longhand modifiers : List Char}
    (isShorthand : IsShorthand shorthand) (isSeparator : IsSeparator separator)
    (isLonghand : IsLonghand longhand) (marks : ∀ c ∈ modifiers, isModifier c = true)
    (last : (shorthand ++ (separator ++ (longhand ++ modifiers))).getLast? = some '\x7d') :
    shorthand ++ (separator ++ (longhand ++ modifiers)) = ['-', '\x7d'] := by
  have braceless : '\x7d' ∉ separator ++ (longhand ++ modifiers) := by
    intro member
    rcases List.mem_append.mp member with between | member
    · rcases isSeparator with rfl | rfl <;> exact absurd between (by decide)
    · rcases List.mem_append.mp member with long | mark
      · rcases isLonghand with rfl | ⟨body, rfl, free⟩
        · exact absurd long List.not_mem_nil
        · rcases List.mem_cons.mp long with dash | inside
          · exact absurd dash (by decide)
          · exact absurd (free _ inside) (by decide)
      · exact absurd (marks _ mark) (by decide)
  have none : separator ++ (longhand ++ modifiers) = [] := by
    refine Decidable.byContradiction fun some => braceless ?_
    obtain ⟨front, c, chars⟩ := List.eq_nil_or_concat _ |>.resolve_left some
    rw [chars, List.concat_eq_append, ← List.append_assoc, List.getLast?_concat] at last
    simp [chars, Option.some.inj last]
  rw [none, List.append_nil] at last ⊢
  rcases isShorthand with rfl | ⟨c, rest, rfl, -, free⟩
  · cases last
  · rcases List.eq_nil_or_concat rest with rfl | ⟨front, d, rfl⟩
    · simpa using last
    · rw [List.concat_eq_append, ← List.cons_append, ← List.cons_append, List.getLast?_concat] at last
      have brace : d = '\x7d' := Option.some.inj last
      exact absurd (free d (by simp)) (by rw [brace]; decide)

/-- The numbers of arguments at the end of one text are the same: digits hold no brace, and a brace that
is left to a shorthand has none before it. -/
theorem nargs_unique {front front' : List Char} {nargs nargs' : Option (List Char)}
    (same : front ++ braced nargs = front' ++ braced nargs')
    (numbers : ∀ number ∈ nargs, IsNumber number) (numbers' : ∀ number ∈ nargs', IsNumber number)
    (ends : front.getLast? = some '\x7d' → front = ['-', '\x7d'])
    (ends' : front'.getLast? = some '\x7d' → front' = ['-', '\x7d']) : nargs = nargs' := by
  -- A text with a number holds an opening brace and ends in a closing one.
  have unread {front front' number : List Char} (same : front = front' ++ braced (some number))
      (ends : front.getLast? = some '\x7d' → front = ['-', '\x7d']) : False := by
    have opening : '\x7b' ∈ front := by simp [same, braced]
    have closing : front.getLast? = some '\x7d' := by
      rw [same, braced, ← List.cons_append, ← List.append_assoc, List.getLast?_concat]
    rw [ends closing] at opening
    exact absurd opening (by decide)
  cases nargs with
  | none =>
    cases nargs' with
    | none => rfl
    | some number => exact (unread (by simpa [braced] using same) ends).elim
  | some number =>
    cases nargs' with
    | none => exact (unread (by simpa [braced] using same.symm) ends').elim
    | some number' =>
      have cut {number : List Char} (isNumber : IsNumber number) (front : List Char) :
          (number.reverse ++ '\x7b' :: front.reverse).takeWhile (· != '\x7b') = number.reverse := by
        refine (Text.takeWhile_dropWhile_append (fun c member => ?_) (by simp)).1
        have other : c ≠ '\x7b' := by
          rintro rfl
          exact not_mem_of_isNumber isNumber (List.mem_reverse.mp member)
        simpa using other
      have backward : number.reverse ++ '\x7b' :: front.reverse =
          number'.reverse ++ '\x7b' :: front'.reverse := by
        simpa [braced] using congrArg List.reverse same
      have reversed := congrArg (List.takeWhile (· != '\x7b')) backward
      rw [cut (numbers number rfl), cut (numbers' number' rfl), List.reverse_inj] at reversed
      rw [reversed]

theorem nargs_eq_of_ofText? {shorthand shorthand' rest rest' : List Char} {tail tail' : Tail}
    (same : shorthand ++ rest = shorthand' ++ rest') (isShorthand : IsShorthand shorthand)
    (isShorthand' : IsShorthand shorthand') (read : Tail.ofText? rest = some tail)
    (read' : Tail.ofText? rest' = some tail') : tail.nargs = tail'.nargs := by
  obtain ⟨separator, isSeparator, rfl, isRead⟩ := ofText?_eq_some_iff.mp read
  obtain ⟨separator', isSeparator', rfl, isRead'⟩ := ofText?_eq_some_iff.mp read'
  refine nargs_unique ?_ isRead.nargs isRead'.nargs
    (eq_of_getLast?_eq isShorthand isSeparator isRead.longhand isRead.modifiers)
    (eq_of_getLast?_eq isShorthand' isSeparator' isRead'.longhand isRead'.modifiers)
  simpa [Tail.ending] using same

/-! ### The parts of an identifier -/

/-- How many arguments are written: a number with its sign, within the bounds, or 0 for none. -/
inductive Counts : Option (List Char) → Int → Prop
  | absent : Counts none 0
  | written {digits : List Char} (negative : Bool) : digits ≠ [] → (∀ d ∈ digits, d.isDigit = true) →
      (Text.IntegerRange.signed 32).contains
        (Text.signed negative (Nat.ofDigitChars 10 digits 0)) = true →
      Counts (some (Text.sign negative ++ digits)) (Text.signed negative (Nat.ofDigitChars 10 digits 0))

theorem isNumber_of_counts {nargs : Option (List Char)} {count : Int} (counts : Counts nargs count) :
    ∀ number ∈ nargs, IsNumber number := by
  cases counts with
  | absent => simp
  | written negative some decimal =>
    rintro _ ⟨rfl⟩
    exact ⟨negative, _, rfl, some, fun d member => Text.isDecimalDigit_of_isDigit (decimal d member)⟩

/-- The number of arguments is read as it is written. -/
theorem counts_some_iff {number : List Char} {count : Int} (isNumber : IsNumber number) :
    Counts (some number) count ↔ Text.readInteger (.signed 32) 10 number = .ok count := by
  constructor
  · intro counts
    cases counts with
    | written negative some decimal within =>
      have digits := fun d member => Text.isDecimalDigit_of_isDigit (decimal d member)
      rw [Text.readInteger_sign some digits fun _ => by decide, Text.readDigits_eq_ok_iff (by decide)]
      exact ⟨decimal, rfl, within⟩
  · obtain ⟨negative, digits, rfl, some, decimal⟩ := isNumber
    rw [Text.readInteger_sign some decimal fun _ => by decide, Text.readDigits_eq_ok_iff (by decide)]
    rintro ⟨decimal, rfl, within⟩
    exact .written negative some decimal within

theorem counts_iff {nargs : Option (List Char)} {count : Int}
    (numbers : ∀ number ∈ nargs, IsNumber number) :
    Counts nargs count ↔ (match nargs with
      | none => Except.ok 0
      | some number => Text.readInteger (.signed 32) 10 number) = .ok count := by
  cases nargs with
  | none =>
    refine ⟨fun counts => ?_, fun same => Except.ok.inj same ▸ .absent⟩
    cases counts
    rfl
  | some number => exact counts_some_iff (numbers number rfl)

theorem counts_unique {nargs : Option (List Char)} {count other : Int} (counts : Counts nargs count)
    (otherwise : Counts nargs other) : count = other := by
  have numbers := isNumber_of_counts counts
  exact Except.ok.inj (((counts_iff numbers).mp counts).symm.trans ((counts_iff numbers).mp otherwise))

/-- The parts that an identifier may consist of: a shorthand, a separator, a longhand, modifiers and a
number of arguments. -/
structure Parts where
  shorthand : List Char
  separator : List Char
  tail : Tail
  count : Int

namespace Parts

/-- Whether an identifier consists of these parts, one behind the other. -/
structure Spells (parts : Parts) (identifier : String) : Prop where
  whole : identifier.toList =
    parts.shorthand ++ (parts.separator ++ (parts.tail.longhand ++ parts.tail.ending))
  shorthand : IsShorthand parts.shorthand
  separator : IsSeparator parts.separator
  longhand : IsLonghand parts.tail.longhand
  modifiers : ∀ c ∈ parts.tail.modifiers, isModifier c = true
  nargs : Counts parts.tail.nargs parts.count
  named : parts.shorthand ≠ [] ∨ ∃ c ∈ parts.tail.longhand, c ≠ '-'

/-- Whether no shorthand of the identifier is longer. -/
structure IsLongest (parts : Parts) (identifier : String) : Prop where
  spells : parts.Spells identifier
  longest : ∀ other : Parts, other.Spells identifier →
    other.shorthand.length ≤ parts.shorthand.length

/-- The flag of these parts. -/
def flag (parts : Parts) (description : String) : Flag where
  shorthand := String.ofList (parts.shorthand.drop 1)
  longhand := String.ofList (parts.tail.longhand.dropWhile (· == '-'))
  description
  nameAsShorthand := (parts.tail.longhand.takeWhile (· == '-')).length == 1
  repeatable := parts.tail.modifiers.contains '*'
  optionalArg := parts.tail.modifiers.contains '?'
  takesValue := parts.tail.modifiers.contains '=' || parts.tail.modifiers.contains '?'
  hidden := parts.tail.modifiers.contains '&'
  required := parts.tail.modifiers.contains '!'
  nargs := parts.count

variable {parts : Parts} {identifier : String}

theorem Spells.ofText?_rest (spells : parts.Spells identifier) :
    Tail.ofText? (parts.separator ++ (parts.tail.longhand ++ parts.tail.ending)) =
      some parts.tail :=
  ofText?_eq_some_iff.mpr ⟨_, spells.separator, rfl, spells.longhand, spells.modifiers,
    isNumber_of_counts spells.nargs⟩

/-- Parts with the same shorthand are the same. -/
theorem Spells.eq_of_shorthand {other : Parts} (spells : parts.Spells identifier)
    (otherwise : other.Spells identifier) (short : parts.shorthand = other.shorthand) :
    parts = other := by
  have behind := spells.whole.symm.trans otherwise.whole
  rw [short] at behind
  have rest := List.append_cancel_left behind
  have tail : parts.tail = other.tail := by
    have read := spells.ofText?_rest
    rw [rest, otherwise.ofText?_rest] at read
    exact (Option.some.inj read).symm
  rw [tail] at rest
  have count : parts.count = other.count := counts_unique (tail ▸ spells.nargs) otherwise.nargs
  obtain ⟨shorthand, separator, tail, count⟩ := parts
  cases other
  simp_all

theorem IsLongest.unique {other : Parts} (longest : parts.IsLongest identifier)
    (otherwise : other.IsLongest identifier) : parts = other := by
  refine longest.spells.eq_of_shorthand otherwise.spells ?_
  have length := Nat.le_antisymm (otherwise.longest _ longest.spells)
    (longest.longest _ otherwise.spells)
  exact (List.append_inj (longest.spells.whole.symm.trans otherwise.spells.whole) length).1

end Parts

/-! ### Identifiers that are read -/

variable {identifier description : String}

theorem dropDashes_shorthand {shorthand : List Char} (isShorthand : IsShorthand shorthand) :
    dropDashes shorthand = String.ofList (shorthand.drop 1) := by
  rcases isShorthand with rfl | ⟨c, rest, rfl, other, -⟩
  · rfl
  · rw [dropDashes_cons, dropDashes_of_head? (by simpa using other)]
    rfl

theorem isSingle_eq {longhand : List Char} (isLonghand : IsLonghand longhand) :
    (!longhand.isEmpty && longhand.take 2 != ['-', '-']) =
      ((longhand.takeWhile (· == '-')).length == 1) := by
  rcases isLonghand with rfl | ⟨body, rfl, -⟩
  · rfl
  · cases body with
    | nil => rfl
    | cons c rest => by_cases dash : c = '-' <;> simp [dash]

theorem dropDashes_eq_empty_iff {form : List Char} : dropDashes form = "" ↔ ∀ c ∈ form, c = '-' := by
  rw [dropDashes, String.ofList_eq_empty_iff, List.dropWhile_eq_nil_iff]
  simp

theorem nameless_iff {shorthand longhand : List Char} (isShorthand : IsShorthand shorthand) :
    dropDashes longhand = "" ∧ dropDashes shorthand = "" ↔
      ¬ (shorthand ≠ [] ∨ ∃ c ∈ longhand, c ≠ '-') := by
  have short : dropDashes shorthand = "" ↔ shorthand = [] := by
    rw [dropDashes_eq_empty_iff]
    rcases isShorthand with rfl | ⟨c, rest, rfl, other, -⟩
    · simp
    · simp [other]
  rw [short, dropDashes_eq_empty_iff]
  grind

/-- The flag of some parts, as it is read from them. -/
theorem Parts.flag_eq {parts : Parts} (isShorthand : IsShorthand parts.shorthand)
    (isLonghand : IsLonghand parts.tail.longhand) :
    parts.flag description =
      { shorthand := dropDashes parts.shorthand
        longhand := dropDashes parts.tail.longhand
        description
        nameAsShorthand := !parts.tail.longhand.isEmpty && (parts.tail.longhand.take 2 != ['-', '-'])
        repeatable := parts.tail.modifiers.contains '*'
        optionalArg := parts.tail.modifiers.contains '?'
        takesValue := parts.tail.modifiers.contains '?' || parts.tail.modifiers.contains '='
        hidden := parts.tail.modifiers.contains '&'
        required := parts.tail.modifiers.contains '!'
        nargs := parts.count } := by
  rw [Parts.flag, dropDashes_shorthand isShorthand, isSingle_eq isLonghand, Bool.or_comm]
  rfl

/-- A flag is read from the parts that are found, if they name it and the number of arguments lies
within the bounds. -/
theorem parse_eq_ok_iff_partsOf? {flag : Flag} :
    parse identifier description = .ok flag ↔ ∃ shorthand tail count,
      partsOf? identifier.toList = some (shorthand, tail) ∧ Counts tail.nargs count ∧
      (shorthand ≠ [] ∨ ∃ c ∈ tail.longhand, c ≠ '-') ∧
      flag = (Parts.mk shorthand [] tail count).flag description := by
  cases found : partsOf? identifier.toList with
  | none => simp [parse, found]
  | some parts =>
    obtain ⟨shorthand, tail⟩ := parts
    obtain ⟨isShorthand, ⟨rest, -, read⟩, -⟩ := partsOf?_eq_some_iff.mp found
    obtain ⟨-, -, -, isRead⟩ := ofText?_eq_some_iff.mp read
    constructor
    · intro parsed
      simp only [parse, found] at parsed
      split at parsed
      · cases parsed
      · rename_i count number
        split at parsed
        · cases parsed
        · rename_i named
          refine ⟨shorthand, tail, count, rfl, (counts_iff isRead.nargs).mpr number, ?_, ?_⟩
          · exact Decidable.byContradiction fun nameless =>
              named ((nameless_iff isShorthand).mpr nameless)
          · rw [Parts.flag_eq isShorthand isRead.longhand]
            exact (Except.ok.inj parsed).symm
    · rintro ⟨_, _, count, ⟨rfl, rfl⟩, counts, named, rfl⟩
      have number := (counts_iff isRead.nargs).mp counts
      rw [Parts.flag_eq isShorthand isRead.longhand]
      simp only [parse, found]
      split
      · rename_i fault refused
        cases number.symm.trans refused
      · rename_i read
        obtain rfl := Except.ok.inj (number.symm.trans read)
        rw [if_neg (mt (nameless_iff isShorthand).mp (not_not_intro named))]

/-- No shorthand of the identifier is longer than the one that is found. -/
theorem Parts.Spells.length_le {parts : Parts} {shorthand : List Char} {tail : Tail}
    (spells : parts.Spells identifier) (found : partsOf? identifier.toList = some (shorthand, tail)) :
    parts.shorthand.length ≤ shorthand.length := by
  obtain ⟨-, -, longest⟩ := partsOf?_eq_some_iff.mp found
  refine Nat.not_lt.mp fun longer => ?_
  have refused := longest _ _ spells.shorthand spells.whole longer
  rw [spells.ofText?_rest] at refused
  cases refused

/-- Parts that are read are the longest that spell the identifier. -/
theorem exists_isLongest_of_parse {flag : Flag} (read : parse identifier description = .ok flag) :
    ∃ parts : Parts, parts.IsLongest identifier ∧ flag = parts.flag description := by
  obtain ⟨shorthand, tail, count, found, counts, named, rfl⟩ := parse_eq_ok_iff_partsOf?.mp read
  obtain ⟨isShorthand, ⟨_, whole, behind⟩, -⟩ := partsOf?_eq_some_iff.mp found
  obtain ⟨separator, isSeparator, rfl, isRead⟩ := ofText?_eq_some_iff.mp behind
  exact ⟨⟨shorthand, separator, tail, count⟩, ⟨⟨whole, isShorthand, isSeparator, isRead.longhand,
    isRead.modifiers, counts, named⟩, fun other spells => spells.length_le found⟩, rfl⟩

/-- An identifier that some parts spell is read, although not always from these. -/
theorem exists_parse_of_spells {parts : Parts} (spells : parts.Spells identifier)
    (description : String) : ∃ flag, parse identifier description = .ok flag := by
  have listed := mem_shorthands_iff.mpr ⟨spells.shorthand, spells.whole⟩
  cases found : partsOf? identifier.toList with
  | none =>
    have refused := List.findSome?_eq_none_iff.mp found _ listed
    simp [spells.ofText?_rest] at refused
  | some read =>
    obtain ⟨shorthand, tail⟩ := read
    obtain ⟨isShorthand, ⟨rest, whole, behind⟩, -⟩ := partsOf?_eq_some_iff.mp found
    have same := spells.whole.symm.trans whole
    have nargs : parts.tail.nargs = tail.nargs :=
      nargs_eq_of_ofText? same spells.shorthand isShorthand spells.ofText?_rest behind
    have named : shorthand ≠ [] ∨ ∃ c ∈ tail.longhand, c ≠ '-' := by
      by_cases none : shorthand = []
      · -- Without a shorthand the parts behind it are those that spell the identifier.
        have short : parts.shorthand = [] := by simpa [none] using spells.length_le found
        rw [short, none, List.nil_append, List.nil_append] at same
        rw [← same, spells.ofText?_rest] at behind
        obtain rfl := Option.some.inj behind
        exact .inr (spells.named.resolve_left (not_not_intro short))
      · exact .inl none
    exact ⟨_, parse_eq_ok_iff_partsOf?.mpr
      ⟨shorthand, tail, parts.count, found, nargs ▸ spells.nargs, named, rfl⟩⟩

/-- An identifier is read exactly if some parts spell it; of the ways to cut it into parts there is one
with the longest shorthand, and its flag is the result. -/
theorem parse_reads_longest (identifier description : String) :
    ((∃ flag, parse identifier description = .ok flag) ↔ ∃ parts : Parts, parts.Spells identifier) ∧
    ((∃ parts : Parts, parts.Spells identifier) → ∃! parts : Parts, parts.IsLongest identifier) ∧
    ∀ parts : Parts, parts.IsLongest identifier →
      parse identifier description = .ok (parts.flag description) := by
  refine ⟨⟨?_, ?_⟩, ?_, ?_⟩
  · rintro ⟨flag, read⟩
    obtain ⟨parts, longest, -⟩ := exists_isLongest_of_parse read
    exact ⟨parts, longest.spells⟩
  · rintro ⟨parts, spells⟩
    exact exists_parse_of_spells spells description
  · rintro ⟨parts, spells⟩
    obtain ⟨flag, read⟩ := exists_parse_of_spells spells description
    obtain ⟨found, longest, -⟩ := exists_isLongest_of_parse read
    exact ⟨found, longest, fun other otherwise => otherwise.unique longest⟩
  · intro parts longest
    obtain ⟨flag, read⟩ := exists_parse_of_spells longest.spells description
    obtain ⟨found, otherwise, rfl⟩ := exists_isLongest_of_parse read
    rw [read, longest.unique otherwise]

/-- A dash inside a shorthand could begin a longhand as well. -/
theorem parse_reads_longest_sample :
    (⟨['-', 'a', 'b'], [], ⟨['-', 'c'], ['?', '*'], some ['-', '2']⟩, -2⟩ : Parts).Spells
      "-ab-c?*\x7b-2\x7d" ∧
    ∃ parts : Parts, parts.IsLongest "-ab-c?*\x7b-2\x7d" ∧
      parse "-ab-c?*\x7b-2\x7d" "d" = .ok (parts.flag "d") ∧
      (parts.flag "d").shorthand = "ab-c" ∧ (parts.flag "d").longhand = "" ∧
      (parts.flag "d").nargs = -2 := by
  have spells : (⟨['-', 'a', 'b'], [], ⟨['-', 'c'], ['?', '*'], some ['-', '2']⟩, -2⟩ : Parts).Spells
      "-ab-c?*\x7b-2\x7d" := {
    whole := by decide
    shorthand := .inr ⟨'a', ['b'], rfl, by decide, List.forall_mem_singleton.mpr (by decide)⟩
    separator := .inl rfl
    longhand := .inr ⟨['c'], rfl, List.forall_mem_singleton.mpr (by decide)⟩
    modifiers := List.all_eq_true.mp (by decide)
    nargs := .written true (List.cons_ne_nil '2' []) (List.forall_mem_singleton.mpr (by decide))
      (by decide)
    named := .inl (List.cons_ne_nil _ _) }
  obtain ⟨-, unique, result⟩ := parse_reads_longest "-ab-c?*\x7b-2\x7d" "d"
  obtain ⟨parts, longest, -⟩ := unique ⟨_, spells⟩
  have reads : (parse "-ab-c?*\x7b-2\x7d" "d").toOption.any (fun flag =>
      flag.shorthand == "ab-c" && flag.longhand == "" && flag.nargs == -2) = true := by
    decide +kernel
  rw [result parts longest] at reads
  simp only [Except.toOption, Option.any_some, Bool.and_eq_true, beq_iff_eq] at reads
  exact ⟨spells, parts, longest, result parts longest, reads.1.1, reads.1.2, reads.2⟩

end TabSpec.Flag

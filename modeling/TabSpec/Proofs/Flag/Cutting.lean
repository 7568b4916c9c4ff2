import TabSpec.Flag.Identifier
import TabSpec.Proofs.Text.Cut
import TabSpec.Proofs.Text.Integer

/-! How a flag identifier is cut into its parts. What stands behind a shorthand can be cut in one way only,
but commas and dashes can belong to a shorthand too: the longest one decides behind which the other parts
can be read. -/
namespace TabSpec.Flag

/-! ### Numbers of arguments -/

/-- A number of arguments as it is written. -/
def braced : Option (List Char) → List Char
  | none => []
  | some number => '\x7b' :: (number ++ ['\x7d'])

/-- An optional minus sign and decimal digits. -/
def IsNumber (number : List Char) : Prop :=
  ∃ negative digits, number = Text.sign negative ++ digits ∧ digits ≠ [] ∧
    ∀ d ∈ digits, Text.isDecimalDigit d = true

theorem not_mem_of_isNumber {number : List Char} (isNumber : IsNumber number) : '\x7b' ∉ number := by
  obtain ⟨negative, digits, rfl, -, decimal⟩ := isNumber
  intro member
  rcases List.mem_append.mp member with minus | member
  · revert minus
    cases negative <;> decide
  · exact absurd (decimal _ member) (by decide)

theorem nargsOf?_eq_some_iff {text : List Char} {nargs : Option (List Char)} :
    nargsOf? text = some nargs ↔ text = braced nargs ∧ ∀ number ∈ nargs, IsNumber number := by
  constructor
  · intro read
    unfold nargsOf? at read
    split at read
    · obtain rfl := Option.some.inj read
      exact ⟨rfl, by simp⟩
    · split at read
      · rename_i body last
        obtain ⟨number, rfl⟩ := List.getLast?_eq_some_iff.mp last
        simp only [List.dropLast_concat, Option.ite_none_right_eq_some, Option.some.injEq] at read
        obtain ⟨digits, rfl⟩ := read
        refine ⟨rfl, ?_⟩
        rintro _ ⟨rfl⟩
        split at digits
        · simp at digits
          exact ⟨true, _, rfl, digits⟩
        · simp at digits
          exact ⟨false, _, rfl, digits⟩
      · cases read
    · cases read
  · rintro ⟨rfl, numbers⟩
    cases nargs with
    | none => rfl
    | some number =>
      obtain ⟨negative, digits, rfl, some, decimal⟩ := numbers number rfl
      simp only [braced, nargsOf?, List.getLast?_concat, List.dropLast_concat]
      cases negative with
      | false =>
        have unsigned (rest : List Char) : digits ≠ '-' :: rest := by
          rintro rfl
          exact absurd (decimal '-' List.mem_cons_self) (by decide)
        simpa [Text.sign, unsigned, some] using decimal
      | true => simpa [Text.sign, some] using decimal

/-! ### Where a part ends -/

/-- What is written behind the longhand. -/
def Tail.ending (tail : Tail) : List Char := tail.modifiers ++ braced tail.nargs

theorem endsForm_of_isModifier {c : Char} (modifier : isModifier c = true) : endsForm c = true := by
  have listed : c ∈ "=*?&!".toList := by simpa [isModifier] using modifier
  have contained : "=*?&!".toList.all endsForm = true := by decide
  exact List.all_eq_true.mp contained c listed

theorem head?_braced (nargs : Option (List Char)) :
    ∀ c ∈ (braced nargs).head?, isModifier c = false ∧ endsForm c = true := by
  cases nargs with
  | none => simp [braced]
  | some number =>
    rintro c ⟨rfl⟩
    decide

/-- A form is cut off where it ends. -/
theorem form_cut {front back : List Char} (free : ∀ c ∈ front, endsForm c = false)
    (stops : ∀ c ∈ back.head?, endsForm c = true) :
    (front ++ back).takeWhile (!endsForm ·) = front ∧
      (front ++ back).dropWhile (!endsForm ·) = back :=
  Text.takeWhile_dropWhile_append (by simpa using free) (by simpa using stops)

namespace Tail

variable {tail : Tail} (marks : ∀ c ∈ tail.modifiers, isModifier c = true)

include marks

/-- Behind a form stands nothing that could belong to it. -/
theorem head?_ending : ∀ c ∈ tail.ending.head?, endsForm c = true := by
  unfold ending
  cases chars : tail.modifiers with
  | cons d rest =>
    rintro c ⟨rfl⟩
    exact endsForm_of_isModifier (marks d (by rw [chars]; exact List.mem_cons_self))
  | nil => exact fun c first => (head?_braced tail.nargs c first).2

theorem ending_cut :
    tail.ending.takeWhile isModifier = tail.modifiers ∧
      tail.ending.dropWhile isModifier = braced tail.nargs :=
  Text.takeWhile_dropWhile_append marks fun c first => (head?_braced tail.nargs c first).1

end Tail

theorem endsForm_of_mem_takeWhile {text : List Char} :
    ∀ c ∈ text.takeWhile (!endsForm ·), endsForm c = false := by
  intro c member
  simpa using List.all_eq_true.mp List.all_takeWhile c member

/-! ### Parts behind a shorthand -/

/-- A text that may stand as a longhand, if any is there. -/
def IsLonghand (longhand : List Char) : Prop :=
  longhand = [] ∨ ∃ body, longhand = '-' :: body ∧ ∀ c ∈ body, endsForm c = false

/-- What may stand between a shorthand and a longhand. -/
def IsSeparator (separator : List Char) : Prop := separator = [] ∨ separator = [',', ' ']

/-- Parts that may stand behind a shorthand. -/
structure Tail.IsRead (tail : Tail) : Prop where
  longhand : IsLonghand tail.longhand
  modifiers : ∀ c ∈ tail.modifiers, isModifier c = true
  nargs : ∀ number ∈ tail.nargs, IsNumber number

/-- Read parts without a separator in front. -/
def Tail.ofForms? (text : List Char) : Option Tail :=
  let (longhand, rest) := match text with
    | '-' :: rest => ('-' :: rest.takeWhile (!endsForm ·), rest.dropWhile (!endsForm ·))
    | _ => ([], text)
  (nargsOf? (rest.dropWhile isModifier)).map fun nargs => ⟨longhand, rest.takeWhile isModifier, nargs⟩

theorem ofText?_separated (text : List Char) :
    Tail.ofText? (',' :: ' ' :: text) = Tail.ofForms? text := rfl

theorem ofText?_bare {text : List Char} (bare : ¬ [',', ' '] <+: text) :
    Tail.ofText? text = Tail.ofForms? text := by
  unfold Tail.ofText?
  split
  · rename_i rest
    exact absurd ⟨rest, rfl⟩ bare
  · rfl

theorem ofForms?_dashed (rest : List Char) :
    Tail.ofForms? ('-' :: rest) =
      (nargsOf? ((rest.dropWhile (!endsForm ·)).dropWhile isModifier)).map fun nargs =>
        ⟨'-' :: rest.takeWhile (!endsForm ·), (rest.dropWhile (!endsForm ·)).takeWhile isModifier,
          nargs⟩ := rfl

theorem ofForms?_undashed {text : List Char} (undashed : text.head? ≠ some '-') :
    Tail.ofForms? text = (nargsOf? (text.dropWhile isModifier)).map fun nargs =>
      ⟨[], text.takeWhile isModifier, nargs⟩ := by
  cases text with
  | nil => rfl
  | cons c rest =>
    have other : c ≠ '-' := fun dash => undashed (congrArg some dash)
    simp [Tail.ofForms?, other]

theorem ofForms?_eq_some_iff {text : List Char} {tail : Tail} :
    Tail.ofForms? text = some tail ↔ text = tail.longhand ++ tail.ending ∧ tail.IsRead := by
  constructor
  · intro read
    have marks (rest : List Char) : ∀ c ∈ rest.takeWhile isModifier, isModifier c = true :=
      List.all_eq_true.mp List.all_takeWhile
    by_cases dashed : text.head? = some '-'
    · obtain ⟨rest, rfl⟩ := List.head?_eq_some_iff.mp dashed
      rw [ofForms?_dashed] at read
      obtain ⟨nargs, found, rfl⟩ := Option.map_eq_some_iff.mp read
      obtain ⟨stop, numbers⟩ := nargsOf?_eq_some_iff.mp found
      refine ⟨?_, .inr ⟨_, rfl, endsForm_of_mem_takeWhile⟩, marks _, numbers⟩
      simp only [Tail.ending, ← stop, List.takeWhile_append_dropWhile, List.cons_append]
    · rw [ofForms?_undashed dashed] at read
      obtain ⟨nargs, found, rfl⟩ := Option.map_eq_some_iff.mp read
      obtain ⟨stop, numbers⟩ := nargsOf?_eq_some_iff.mp found
      refine ⟨?_, .inl rfl, marks _, numbers⟩
      simp only [Tail.ending, ← stop, List.takeWhile_append_dropWhile, List.nil_append]
  · rintro ⟨rfl, isRead⟩
    obtain ⟨taken, left⟩ := Tail.ending_cut isRead.modifiers
    have numbers := nargsOf?_eq_some_iff.mpr ⟨rfl, isRead.nargs⟩
    rcases isRead.longhand with none | ⟨body, long, inside⟩
    · have undashed : tail.ending.head? ≠ some '-' := fun dashed =>
        absurd (Tail.head?_ending isRead.modifiers '-' dashed) (by decide)
      have same : (⟨[], tail.modifiers, tail.nargs⟩ : Tail) = tail := by rw [← none]
      rw [none, List.nil_append, ofForms?_undashed undashed, taken, left, numbers, Option.map_some,
        same]
    · obtain ⟨front, back⟩ := form_cut inside (Tail.head?_ending isRead.modifiers)
      have same : (⟨'-' :: body, tail.modifiers, tail.nargs⟩ : Tail) = tail := by rw [← long]
      rw [long, List.cons_append, ofForms?_dashed, front, back, taken, left, numbers,
        Option.map_some, same]

theorem ofText?_eq_some_iff {text : List Char} {tail : Tail} :
    Tail.ofText? text = some tail ↔
      ∃ separator, IsSeparator separator ∧ text = separator ++ (tail.longhand ++ tail.ending) ∧
        tail.IsRead := by
  -- Neither a longhand nor what may stand behind it begins with a comma.
  have commaless (isRead : tail.IsRead) : (tail.longhand ++ tail.ending).head? ≠ some ',' := by
    rcases isRead.longhand with none | ⟨body, long, -⟩
    · intro comma
      rw [none, List.nil_append] at comma
      exact absurd (Tail.head?_ending isRead.modifiers ',' comma) (by decide)
    · simp [long]
  by_cases separated : [',', ' '] <+: text
  · obtain ⟨rest, rfl⟩ := separated
    have cut : Tail.ofText? ([',', ' '] ++ rest) = Tail.ofForms? rest := ofText?_separated rest
    rw [cut, ofForms?_eq_some_iff]
    constructor
    · rintro ⟨rfl, isRead⟩
      exact ⟨_, .inr rfl, rfl, isRead⟩
    · rintro ⟨separator, rfl | rfl, whole, isRead⟩
      · refine absurd ?_ (commaless isRead)
        rw [← List.nil_append (tail.longhand ++ tail.ending), ← whole]
        rfl
      · exact ⟨List.append_cancel_left whole, isRead⟩
  · rw [ofText?_bare separated, ofForms?_eq_some_iff]
    constructor
    · rintro ⟨rfl, isRead⟩
      exact ⟨_, .inl rfl, rfl, isRead⟩
    · rintro ⟨separator, rfl | rfl, rfl, isRead⟩
      · exact ⟨rfl, isRead⟩
      · exact absurd (List.prefix_append _ _) separated

/-! ### Shorthands -/

/-- A text that may stand as a shorthand, if any is there. -/
def IsShorthand (shorthand : List Char) : Prop :=
  shorthand = [] ∨ ∃ c rest, shorthand = '-' :: c :: rest ∧ c ≠ '-' ∧ ∀ d ∈ rest, endsForm d = false

theorem mem_cuts_iff {run front back : List Char} :
    (front, back) ∈ cuts run ↔ run = front ++ back := by
  simp only [cuts, List.mem_map, List.mem_reverse, List.mem_range, Prod.mk.injEq]
  constructor
  · rintro ⟨count, -, rfl, rfl⟩
    exact (List.take_append_drop count run).symm
  · rintro rfl
    refine ⟨front.length, ?_, List.take_left, List.drop_left⟩
    rw [List.length_append]
    omega

theorem pairwise_cuts (run : List Char) :
    (cuts run).Pairwise fun one other => other.1.length < one.1.length := by
  refine List.pairwise_map.mpr (List.pairwise_reverse.mpr ?_)
  refine List.pairwise_lt_range.imp_of_mem fun first second less => ?_
  rw [List.mem_range] at first second
  simp only [List.length_take]
  omega

/-- A text begins with shorthands if a dash stands in front of something else than a dash. -/
theorem shorthands_cases (text : List Char) :
    (∃ c rest, text = '-' :: c :: rest ∧ c ≠ '-' ∧ shorthands text =
      (cuts (rest.takeWhile (!endsForm ·))).map (fun (front, back) =>
        ('-' :: c :: front, back ++ rest.dropWhile (!endsForm ·))) ++ [([], text)]) ∨
      (∀ c rest, text = '-' :: c :: rest → c = '-') ∧ shorthands text = [([], text)] := by
  unfold shorthands
  split
  · rename_i c rest
    by_cases dash : c = '-'
    · right
      rw [if_pos dash]
      refine ⟨fun d rest' same => ?_, rfl⟩
      obtain ⟨rfl, -⟩ := List.cons.inj (List.cons.inj same).2
      exact dash
    · left
      rw [if_neg dash]
      exact ⟨c, rest, rfl, dash, rfl⟩
  · rename_i other
    exact .inr ⟨fun c rest whole => absurd whole (other c rest), rfl⟩

theorem mem_shorthands_iff {text shorthand rest : List Char} :
    (shorthand, rest) ∈ shorthands text ↔ IsShorthand shorthand ∧ text = shorthand ++ rest := by
  rcases shorthands_cases text with ⟨c, back, rfl, other, listing⟩ | ⟨undashed, listing⟩
  · rw [listing, List.mem_append, List.mem_map, List.mem_singleton]
    constructor
    · rintro (⟨⟨front, between⟩, listed, same⟩ | same)
      · obtain ⟨rfl, rfl⟩ := Prod.mk.inj same
        have run := mem_cuts_iff.mp listed
        refine ⟨.inr ⟨c, front, rfl, other, fun d member => ?_⟩, ?_⟩
        · exact endsForm_of_mem_takeWhile d (run ▸ List.mem_append_left between member)
        · rw [List.cons_append, List.cons_append, ← List.append_assoc, ← run,
            List.takeWhile_append_dropWhile]
      · obtain ⟨rfl, rfl⟩ := Prod.mk.inj same
        exact ⟨.inl rfl, rfl⟩
    · rintro ⟨rfl | ⟨d, front, rfl, -, free⟩, whole⟩
      · exact .inr (by rw [whole]; rfl)
      · obtain ⟨rfl, rfl⟩ : c = d ∧ back = front ++ rest := by simpa using whole
        have free' : ∀ d ∈ front, (!endsForm d) = true := by simpa using free
        refine .inl ⟨(front, rest.takeWhile (!endsForm ·)), mem_cuts_iff.mpr ?_, ?_⟩
        · rw [List.takeWhile_append_of_pos free']
        · rw [List.dropWhile_append_of_pos free']
          dsimp only
          rw [List.takeWhile_append_dropWhile]
  · rw [listing, List.mem_singleton]
    constructor
    · intro same
      obtain ⟨rfl, rfl⟩ := Prod.mk.inj same
      exact ⟨.inl rfl, rfl⟩
    · rintro ⟨rfl | ⟨c, front, rfl, other, -⟩, rfl⟩
      · rfl
      · exact absurd (undashed c (front ++ rest) rfl) other

/-- The shorthands that a text may begin with become shorter. -/
theorem pairwise_shorthands (text : List Char) :
    (shorthands text).Pairwise fun one other => other.1.length < one.1.length := by
  rcases shorthands_cases text with ⟨c, back, -, -, listing⟩ | ⟨-, listing⟩
  · rw [listing, List.pairwise_append]
    refine ⟨List.pairwise_map.mpr ?_, List.pairwise_singleton _ _, ?_⟩
    · refine (pairwise_cuts _).imp fun less => ?_
      simpa using less
    · intro one listed last single
      obtain ⟨cut, -, rfl⟩ := List.mem_map.mp listed
      obtain rfl := List.mem_singleton.mp single
      exact Nat.succ_pos _
  · rw [listing]
    exact List.pairwise_singleton _ _

/-- The longest shorthand is read behind which the other parts can be read. -/
theorem partsOf?_eq_some_iff {text shorthand : List Char} {tail : Tail} :
    partsOf? text = some (shorthand, tail) ↔
      IsShorthand shorthand ∧ (∃ rest, text = shorthand ++ rest ∧ Tail.ofText? rest = some tail) ∧
        ∀ longer rest, IsShorthand longer → text = longer ++ rest →
          shorthand.length < longer.length → Tail.ofText? rest = none := by
  have sorted := pairwise_shorthands text
  constructor
  · intro found
    obtain ⟨earlier, ⟨front, rest⟩, later, listed, here, refused⟩ := List.findSome?_eq_some_iff.mp found
    obtain ⟨behind, read, same⟩ := Option.map_eq_some_iff.mp here
    obtain ⟨rfl, rfl⟩ := Prod.mk.inj same
    obtain ⟨isShorthand, whole⟩ := mem_shorthands_iff.mp
      (listed ▸ List.mem_append_right earlier List.mem_cons_self)
    refine ⟨isShorthand, ⟨rest, whole, read⟩, fun longer rest' isLonger whole' more => ?_⟩
    have member := mem_shorthands_iff.mpr ⟨isLonger, whole'⟩
    rw [listed] at member sorted
    rcases List.mem_append.mp member with before | onward
    · exact Option.map_eq_none_iff.mp (refused _ before)
    · rcases List.mem_cons.mp onward with same | behind
      · obtain ⟨rfl, -⟩ := Prod.mk.inj same
        exact absurd more (Nat.lt_irrefl _)
      · have less := (List.pairwise_cons.mp (List.pairwise_append.mp sorted).2.1).1 _ behind
        exact absurd more (Nat.lt_asymm less)
  · rintro ⟨isShorthand, ⟨rest, whole, read⟩, longest⟩
    obtain ⟨earlier, later, listed⟩ :=
      List.append_of_mem (mem_shorthands_iff.mpr ⟨isShorthand, whole⟩)
    rw [listed] at sorted
    refine List.findSome?_eq_some_iff.mpr ⟨earlier, (shorthand, rest), later, listed, ?_, ?_⟩
    · simp [read]
    · rintro ⟨longer, rest'⟩ before
      obtain ⟨isLonger, whole'⟩ := mem_shorthands_iff.mp (listed ▸ List.mem_append_left _ before)
      have more := (List.pairwise_append.mp sorted).2.2 _ before _ List.mem_cons_self
      exact Option.map_eq_none_iff.mpr (longest longer rest' isLonger whole' more)

end TabSpec.Flag

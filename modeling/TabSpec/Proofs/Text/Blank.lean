import TabSpec.Proofs.Text.Integer
import TabSpec.Text.Blank

/-! What trimming leaves of a text. -/
namespace TabSpec.Text

theorem trimFront_of_head? {text : List Char} (starts : ∀ c ∈ text.head?, isBlank c = false) :
    trimFront text = text := by
  cases text with
  | nil => rfl
  | cons c text => simp [trimFront, starts c rfl]

theorem trimBack_of_getLast? {text : List Char}
    (ends : ∀ c ∈ text.getLast?, isBlank c = false) : trimBack text = text := by
  rw [← List.head?_reverse] at ends
  rw [trimBack, ← trimFront, trimFront_of_head? ends, List.reverse_reverse]

theorem trim_subset (text : List Char) : trimBack (trimFront text) ⊆ text := by
  intro c member
  have inside := (List.dropWhile_suffix _).subset (List.mem_reverse.mp member)
  exact (List.dropWhile_suffix _).subset (List.mem_reverse.mp inside)

/-- A text that neither begins nor ends with a blank is not trimmed. -/
theorem trim_eq_self {text : String} (starts : ∀ c ∈ text.toList.head?, isBlank c = false)
    (ends : ∀ c ∈ text.toList.getLast?, isBlank c = false) : trim text = text := by
  rw [trim, trimFront_of_head? starts, trimBack_of_getLast? ends, String.ofList_toList]

theorem trim_between {text : String} {first last : Char} {middle : List Char}
    (whole : text.toList = first :: (middle ++ [last])) (starts : isBlank first = false)
    (ends : isBlank last = false) : trim text = text := by
  refine trim_eq_self (fun c begins => ?_) fun c closes => ?_
  · rw [whole] at begins
    obtain rfl := Option.some.inj begins
    exact starts
  · rw [whole, ← List.cons_append, List.getLast?_concat] at closes
    obtain rfl := Option.some.inj closes
    exact ends

theorem isBlank_of_isDigit {c : Char} (digit : c.isDigit = true) : isBlank c = false := by
  have range : 48 ≤ c.toNat ∧ c.toNat ≤ 57 := Char.isDigit_iff_toNat.mp digit
  simp only [isBlank, Bool.or_eq_false_iff, Bool.and_eq_false_iff, decide_eq_false_iff_not,
    beq_eq_false_iff_ne]
  omega

/-- A text that is not trimmed neither begins nor ends with a blank. -/
theorem of_trim_eq_self {text : String} (trimmed : trim text = text) :
    (∀ c ∈ text.toList.head?, isBlank c = false) ∧ ∀ c ∈ text.toList.getLast?, isBlank c = false := by
  have whole : trimBack (trimFront text.toList) = text.toList := by
    simpa [trim] using congrArg String.toList trimmed
  have front : trimFront text.toList = text.toList := by
    refine (List.dropWhile_suffix isBlank).eq_of_length_le ?_
    have shorter := (List.dropWhile_suffix (l := (trimFront text.toList).reverse) isBlank).length_le
    have length := congrArg List.length whole
    simp only [trimBack, List.length_reverse] at shorter length
    simp only [trimFront] at shorter length ⊢
    omega
  rw [front] at whole
  have unblank {chars : List Char} (kept : chars.dropWhile isBlank = chars) :
      ∀ c ∈ chars.head?, isBlank c = false := by
    intro c member
    have first := List.head?_dropWhile_not isBlank chars
    rw [kept, member] at first
    simpa using first
  refine ⟨unblank front, ?_⟩
  have back : text.toList.reverse.dropWhile isBlank = text.toList.reverse := by
    rw [← List.reverse_inj, List.reverse_reverse]
    exact whole
  rw [← List.head?_reverse]
  exact unblank back

/-- The text of an integer has no blanks around it. -/
theorem trim_toString (value : Int) : trim (toString value) = toString value := by
  refine trim_eq_self (fun c first => ?_) fun c last => ?_
  · obtain ⟨d, rest, begins, digit⟩ := exists_toDigits_eq_cons value.natAbs
    rw [toList_toString, begins] at first
    split at first
    · obtain rfl := Option.some.inj first
      decide
    · obtain rfl := Option.some.inj first
      exact isBlank_of_isDigit digit
  · obtain ⟨front, d, ends, digit⟩ := exists_toString_eq_concat value
    rw [ends, List.getLast?_concat] at last
    obtain rfl := Option.some.inj last
    exact isBlank_of_isDigit digit

end TabSpec.Text

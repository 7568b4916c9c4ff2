import TabSpec.Text.Cut

/-! What cutting a text answers, for separators that do and do not occur in it. -/
namespace TabSpec.Text

/-- What a predicate holds of is cut off where it stops to hold. -/
theorem takeWhile_dropWhile_append {holds : Char → Bool} {front back : List Char}
    (all : ∀ c ∈ front, holds c = true) (stops : ∀ c ∈ back.head?, holds c = false) :
    (front ++ back).takeWhile holds = front ∧ (front ++ back).dropWhile holds = back := by
  rw [List.takeWhile_append_of_pos all, List.dropWhile_append_of_pos all]
  cases back with
  | nil => simp
  | cons c back => simp [stops c rfl]

theorem after?_eq_none_iff {front text : List Char} :
    after? front text = none ↔ ¬ front <+: text := by
  rw [Option.eq_none_iff_forall_ne_some, ← not_exists]
  exact not_congr (exists_congr fun rest => after?_eq_some_iff.trans eq_comm)

/-- A cut is found wherever the separator occurs. -/
theorem firstCut?_eq_none_iff {separator text : List Char} :
    firstCut? separator text = none ↔ ¬ separator <:+: text := by
  induction text with
  | nil => cases separator <;> simp [firstCut?, after?]
  | cons c text ih =>
    rw [List.infix_cons_iff, not_or, ← ih, ← after?_eq_none_iff]
    simp only [firstCut?]
    cases after? separator (c :: text) with
    | some rest => simp
    | none => simp

/-- The last cut is found wherever the separator occurs, too. -/
theorem lastCut?_eq_none_iff {separator text : List Char} :
    lastCut? separator text = none ↔ ¬ separator <:+: text := by
  induction text with
  | nil => cases separator <;> simp [lastCut?, after?]
  | cons c text ih =>
    rw [List.infix_cons_iff, not_or, ← ih, ← after?_eq_none_iff]
    simp only [lastCut?]
    cases lastCut? separator text with
    | some cut => simp
    | none => simp

/-- The separator behind `front` is the first one, unless it is complete before its last
character. -/
theorem firstCut?_append_separator {separator front : List Char} (some : separator ≠ [])
    (uncut : ¬ separator <:+: front ++ separator.dropLast) (rest : List Char) :
    firstCut? separator (front ++ separator ++ rest) = .some (front, rest) := by
  have found : after? separator (separator ++ rest) = .some rest := after?_eq_some_iff.mpr rfl
  induction front with
  | nil =>
    cases separator with
    | nil => exact absurd rfl some
    | cons c behind =>
      rw [List.nil_append, List.cons_append, firstCut?, ← List.cons_append, found]
  | cons c front ih =>
    have apart : after? separator (c :: (front ++ separator ++ rest)) = none := by
      refine after?_eq_none_iff.mpr fun begins => uncut ?_
      have shorter : c :: front ++ separator.dropLast <+: c :: (front ++ separator ++ rest) := by
        have almost := (List.prefix_append_right_inj (c :: front)).mpr
          (List.dropLast_prefix separator)
        exact almost.trans (List.prefix_append _ rest)
      have long : separator.length ≤ (c :: front ++ separator.dropLast).length := by
        have positive := List.length_pos_iff.mpr some
        simp only [List.length_append, List.length_cons, List.length_dropLast]
        omega
      exact (List.prefix_of_prefix_length_le begins shorter long).isInfix
    have later := ih fun inside => uncut (List.infix_cons inside)
    rw [List.cons_append, List.cons_append, firstCut?, apart, later]
    rfl

/-- A separator of one character is not found where it does not occur. -/
theorem firstCut?_of_not_mem {c : Char} {text : List Char} (absent : c ∉ text) :
    firstCut? [c] text = none :=
  firstCut?_eq_none_iff.mpr fun inside => absent (inside.subset (List.mem_singleton_self c))

/-- A separator of one character is found where it first occurs. -/
theorem firstCut?_append {c : Char} {before : List Char} (absent : c ∉ before)
    (rest : List Char) : firstCut? [c] (before ++ c :: rest) = some (before, rest) := by
  have uncut : ¬ [c] <:+: before ++ [c].dropLast := by
    rw [← firstCut?_eq_none_iff, List.dropLast_singleton, List.append_nil]
    exact firstCut?_of_not_mem absent
  have cut := firstCut?_append_separator (List.cons_ne_nil c []) uncut rest
  rwa [List.append_assoc] at cut

/-- A separator does not occur before where it is found first. -/
theorem not_infix_of_firstCut? {separator text before rest : List Char} (some : separator ≠ [])
    (cut : firstCut? separator text = .some (before, rest)) : ¬ separator <:+: before := by
  induction text generalizing before with
  | nil =>
    obtain ⟨_, found, same⟩ := Option.map_eq_some_iff.mp cut
    obtain ⟨rfl, _⟩ := Prod.mk.inj same
    simpa using some
  | cons c text ih =>
    simp only [firstCut?] at cut
    split at cut
    · obtain ⟨rfl, _⟩ := Prod.mk.inj (Option.some.inj cut)
      simpa using some
    · rename_i apart
      obtain ⟨⟨front, behind⟩, found, same⟩ := Option.map_eq_some_iff.mp cut
      obtain ⟨rfl, rfl⟩ := Prod.mk.inj same
      rw [List.infix_cons_iff, not_or]
      refine ⟨fun begins => after?_eq_none_iff.mp apart ?_, ih found⟩
      rw [eq_of_firstCut? found, ← List.cons_append, ← List.cons_append]
      exact (begins.trans (List.prefix_append _ _)).trans (List.prefix_append _ _)

/-- A separator does not occur behind where it is found last. -/
theorem not_infix_of_lastCut? {separator text before rest : List Char} (some : separator ≠ [])
    (cut : lastCut? separator text = .some (before, rest)) : ¬ separator <:+: rest := by
  induction text generalizing before with
  | nil =>
    obtain ⟨_, found, _⟩ := Option.map_eq_some_iff.mp cut
    exact absurd (List.append_eq_nil_iff.mp (after?_eq_some_iff.mp found).symm).1 some
  | cons c text ih =>
    simp only [lastCut?] at cut
    split at cut
    · rename_i found
      obtain ⟨rfl, rfl⟩ := Prod.mk.inj (Option.some.inj cut)
      exact ih found
    · -- The separator begins the text and does not occur behind its first character.
      rename_i uncut
      obtain ⟨behind, found, same⟩ := Option.map_eq_some_iff.mp cut
      obtain ⟨rfl, rfl⟩ := Prod.mk.inj same
      obtain ⟨d, separator, rfl⟩ := List.exists_cons_of_ne_nil some
      obtain ⟨rfl, shorter⟩ := List.cons.inj (after?_eq_some_iff.mp found)
      have further : behind <:+: text := ⟨separator, [], by simp [shorter]⟩
      exact fun inside => lastCut?_eq_none_iff.mp uncut (inside.trans further)

/-- The last cut lies no further to the front than any other one. -/
theorem exists_lastCut?_append (separator front back : List Char) :
    ∃ before rest, lastCut? separator (front ++ separator ++ back) = some (before, rest) ∧
      front.length ≤ before.length := by
  induction front with
  | nil =>
    cases whole : separator ++ back with
    | nil =>
      obtain ⟨rfl, rfl⟩ := List.append_eq_nil_iff.mp whole
      exact ⟨[], [], rfl, Nat.le_refl 0⟩
    | cons c text =>
      have found : after? separator (c :: text) = some back := after?_eq_some_iff.mpr whole.symm
      rw [List.nil_append, whole, lastCut?, found]
      cases lastCut? separator text with
      | none => exact ⟨[], back, rfl, Nat.le_refl 0⟩
      | some later => exact ⟨c :: later.1, later.2, rfl, Nat.zero_le _⟩
  | cons c front ih =>
    obtain ⟨before, rest, found, further⟩ := ih
    rw [List.cons_append, List.cons_append, lastCut?, found]
    exact ⟨c :: before, rest, rfl, Nat.succ_le_succ further⟩

/-- A separator of one character is found where it last occurs. -/
theorem lastCut?_append {c : Char} {rest : List Char} (absent : c ∉ rest) (before : List Char) :
    lastCut? [c] (before ++ c :: rest) = some (before, rest) := by
  induction before with
  | nil =>
    have uncut : lastCut? [c] rest = none :=
      lastCut?_eq_none_iff.mpr fun inside => absent (inside.subset (List.mem_singleton_self c))
    have found : after? [c] (c :: rest) = some rest := after?_eq_some_iff.mpr rfl
    rw [List.nil_append, lastCut?, uncut, found]
    rfl
  | cons d before ih => rw [List.cons_append, lastCut?, ih]

/-- What occurs around a character that it does not hold occurs on one side of it. -/
theorem infix_or_infix_of_not_mem {part front back : List Char} {c : Char} (some : part ≠ [])
    (absent : c ∉ part) (inside : part <:+: front ++ c :: back) : part <:+: front ∨ part <:+: back := by
  have apart {rest : List Char} (nonempty : rest ≠ []) (begins : rest <+: c :: back) : c ∈ rest := by
    obtain ⟨d, rest, rfl⟩ := List.exists_cons_of_ne_nil nonempty
    obtain ⟨rfl, -⟩ := List.cons_prefix_cons.mp begins
    exact List.mem_cons_self
  rcases List.infix_append_iff_ne_nil.mp inside with before | behind | ⟨first, last, -, more, rfl, -, begins⟩
  · exact .inl before
  · rcases List.infix_cons_iff.mp behind with begins | later
    · exact absurd (apart some begins) absent
    · exact .inr later
  · exact absurd (List.mem_append_right _ (apart more begins)) absent

theorem startsWith_iff {front text : String} :
    startsWith front text = true ↔ front.toList <+: text.toList := by
  rw [startsWith, Option.isSome_iff_exists]
  exact exists_congr fun rest => after?_eq_some_iff.trans eq_comm

theorem contains_eq_false_iff {part text : String} :
    contains part text = false ↔ ¬ part.toList <:+: text.toList := by
  rw [← firstCut?_eq_none_iff, contains, Option.isSome_eq_false_iff, Option.isNone_iff_eq_none]

theorem splitOnce?_of_not_mem {separator text : String} {c : Char}
    (single : separator.toList = [c]) (absent : c ∉ text.toList) :
    splitOnce? separator text = none := by
  rw [splitOnce?, single, firstCut?_of_not_mem absent]
  rfl

theorem not_mem_of_splitOnce? {separator text : String} {c : Char}
    (single : separator.toList = [c]) (uncut : splitOnce? separator text = none) :
    c ∉ text.toList := by
  rw [splitOnce?, Option.map_eq_none_iff, firstCut?_eq_none_iff, single] at uncut
  intro member
  obtain ⟨front, back, whole⟩ := List.append_of_mem member
  exact uncut ⟨front, back, by simp [whole]⟩

theorem splitOnce?_append {separator before : String} {c : Char}
    (single : separator.toList = [c]) (absent : c ∉ before.toList) (rest : String) :
    splitOnce? separator (before ++ separator ++ rest) = some (before, rest) := by
  have chars : (before ++ separator ++ rest).toList = before.toList ++ c :: rest.toList := by
    simp [single]
  rw [splitOnce?, single, chars, firstCut?_append absent]
  simp

/-- The two parts and the separator make up the whole. -/
theorem eq_of_splitOnce? {separator text before rest : String}
    (cut : splitOnce? separator text = some (before, rest)) :
    text = before ++ separator ++ rest := by
  simp only [splitOnce?, Option.map_eq_some_iff, Prod.mk.injEq, Prod.exists] at cut
  obtain ⟨front, back, found, rfl, rfl⟩ := cut
  have whole := eq_of_firstCut? found
  apply String.toList_inj.mp
  simpa using whole

/-- What is in front of every separator is in front of the cut. -/
theorem prefix_of_splitOnce? {separator text before rest : String} {c : Char}
    (single : separator.toList = [c]) (cut : splitOnce? separator text = some (before, rest))
    {front : List Char} (begins : front <+: text.toList) (absent : c ∉ front) :
    front <+: before.toList := by
  obtain ⟨back, whole⟩ := begins
  rw [eq_of_splitOnce? cut] at whole
  simp only [String.toList_append, single, List.append_assoc] at whole
  rcases List.append_eq_append_iff.mp whole with ⟨between, same, _⟩ | ⟨between, same, behind⟩
  · exact ⟨between, same.symm⟩
  · cases between with
    | nil => exact ⟨[], by simp [same]⟩
    | cons d between =>
      obtain ⟨rfl, _⟩ := List.cons.inj behind
      exact absurd (by simp [same]) absent

theorem eq_of_splitLast? {separator text before rest : String}
    (cut : splitLast? separator text = some (before, rest)) :
    text = before ++ separator ++ rest := by
  simp only [splitLast?, Option.map_eq_some_iff, Prod.mk.injEq, Prod.exists] at cut
  obtain ⟨front, back, found, rfl, rfl⟩ := cut
  have whole := eq_of_lastCut? found
  apply String.toList_inj.mp
  simpa using whole

theorem eq_of_stripFront? {front text rest : String} (cut : stripFront? front text = some rest) :
    text = front ++ rest := by
  simp only [stripFront?, Option.map_eq_some_iff] at cut
  obtain ⟨chars, found, rfl⟩ := cut
  apply String.toList_inj.mp
  simpa using after?_eq_some_iff.mp found

theorem parts_of_uncut {separator text : List Char} (uncut : firstCut? separator text = none) :
    parts separator text = [text] := by
  rw [parts]
  split
  · rfl
  · split
    · rfl
    · rename_i cut
      rw [uncut] at cut
      cases cut

theorem parts_of_cut {separator text before rest : List Char} (some : separator ≠ [])
    (cut : firstCut? separator text = .some (before, rest)) :
    parts separator text = before :: parts separator rest := by
  rw [parts, dif_neg some]
  split
  · rename_i uncut
    rw [cut] at uncut
    cases uncut
  · rename_i cut'
    rw [cut] at cut'
    obtain ⟨rfl, rfl⟩ := Prod.mk.inj (Option.some.inj cut')
    rfl

/-- A cut is found where it was found before when more text stands behind. -/
theorem firstCut?_append_of_eq_some {separator text before rest : List Char} (some : separator ≠ [])
    (cut : firstCut? separator text = .some (before, rest)) (more : List Char) :
    firstCut? separator (text ++ more) = .some (before, rest ++ more) := by
  induction text generalizing before with
  | nil =>
    obtain ⟨_, found, _⟩ := Option.map_eq_some_iff.mp cut
    exact absurd (List.append_eq_nil_iff.mp (after?_eq_some_iff.mp found).symm).1 some
  | cons c text ih =>
    simp only [firstCut?] at cut
    split at cut
    · rename_i behind found
      obtain ⟨rfl, same⟩ := Prod.mk.inj (Option.some.inj cut)
      have further : after? separator (c :: (text ++ more)) = .some (behind ++ more) := by
        rw [after?_eq_some_iff, ← List.cons_append, after?_eq_some_iff.mp found, List.append_assoc]
      rw [List.cons_append, firstCut?, further, ← same]
    · rename_i unfound
      obtain ⟨⟨front, behind⟩, found, same⟩ := Option.map_eq_some_iff.mp cut
      obtain ⟨rfl, rfl⟩ := Prod.mk.inj same
      -- The text is long enough to hold a separator, so none is completed by what follows.
      have apart : after? separator (c :: (text ++ more)) = none := by
        refine after?_eq_none_iff.mpr fun begins => after?_eq_none_iff.mp unfound ?_
        have long : separator.length ≤ (c :: text).length := by
          have whole := congrArg List.length (eq_of_firstCut? found)
          simp only [List.length_append] at whole
          rw [List.length_cons]
          omega
        exact List.prefix_of_prefix_length_le begins (List.prefix_append (c :: text) more) long
      rw [List.cons_append, firstCut?, apart, ih found]
      rfl

/-- Behind a text that does not end within a separator, a separator cuts. -/
theorem parts_append {separator front : List Char} (some : separator ≠ [])
    (ends : ∀ c ∈ front.getLast?, c ∉ separator) (back : List Char) :
    parts separator (front ++ separator ++ back) = parts separator front ++ parts separator back := by
  induction front using parts.induct separator with
  | case1 front empty => exact absurd empty some
  | case2 front _ uncut =>
    have short : ¬ separator <:+: separator.dropLast := by
      intro inside
      have positive := List.length_pos_iff.mpr some
      have le := inside.length_le
      rw [List.length_dropLast] at le
      omega
    have alone : ¬ separator <:+: front ++ separator.dropLast := by
      rcases List.eq_nil_or_concat front with rfl | ⟨body, c, rfl⟩
      · exact short
      · rw [List.concat_eq_append] at ends uncut ⊢
        rw [List.append_assoc, List.singleton_append]
        intro inside
        rcases infix_or_infix_of_not_mem some (ends c List.getLast?_concat) inside with before | behind
        · exact firstCut?_eq_none_iff.mp uncut (before.trans (List.prefix_append _ _).isInfix)
        · exact short behind
    rw [parts_of_cut some (firstCut?_append_separator some alone back), parts_of_uncut uncut]
    rfl
  | case3 front _ before rest cut _ ih =>
    have later : ∀ c ∈ rest.getLast?, c ∉ separator := by
      intro c last
      refine ends c ?_
      rw [eq_of_firstCut? cut, List.getLast?_append, Option.mem_def.mp last]
      rfl
    rw [parts_of_cut some cut, List.append_assoc,
      parts_of_cut some (firstCut?_append_of_eq_some some cut _), ← List.append_assoc, ih later]
    rfl

/-- A text begins with its first part, which holds all that stands in front of every separator. -/
theorem prefix_of_parts {separator text first : List Char} {others : List (List Char)}
    (cut : parts separator text = first :: others) :
    first <+: text ∧
      ∀ front, front <+: text → (∀ c ∈ front, c ∉ separator) → front <+: first := by
  unfold parts at cut
  split at cut
  · obtain ⟨rfl, -⟩ := List.cons.inj cut
    exact ⟨List.prefix_rfl, fun _ begins _ => begins⟩
  · rename_i some
    split at cut
    · obtain ⟨rfl, -⟩ := List.cons.inj cut
      exact ⟨List.prefix_rfl, fun _ begins _ => begins⟩
    · rename_i before rest found
      obtain ⟨rfl, -⟩ := List.cons.inj cut
      have whole := eq_of_firstCut? found
      rw [List.append_assoc] at whole
      refine ⟨⟨_, whole.symm⟩, fun front begins apart => ?_⟩
      rcases List.prefix_or_prefix_of_prefix begins ⟨_, whole.symm⟩ with inside | ⟨between, rfl⟩
      · exact inside
      · cases between with
        | nil => simp
        | cons d between =>
          rw [whole, List.prefix_append_right_inj] at begins
          obtain ⟨e, separator, rfl⟩ := List.exists_cons_of_ne_nil some
          obtain ⟨rfl, -⟩ := List.cons_prefix_cons.mp begins
          exact absurd List.mem_cons_self (apart d (by simp))

/-- A text without the separator is a single part. -/
theorem split_of_not_contains {separator text : String}
    (absent : contains separator text = false) : split separator text = [text] := by
  have uncut : firstCut? separator.toList text.toList = none := by
    simpa [contains] using absent
  rw [split, parts_of_uncut uncut]
  simp

/-- What stands before the first separator is a part, and the others are those behind it. -/
theorem split_append {separator front : String} (some : separator ≠ "")
    (uncut : ¬ separator.toList <:+: front.toList ++ separator.toList.dropLast) (rest : String) :
    split separator (front ++ separator ++ rest) = front :: split separator rest := by
  have filled : separator.toList ≠ [] := fun empty => some (String.toList_eq_nil_iff.mp empty)
  have cut := firstCut?_append_separator filled uncut rest.toList
  have chars : (front ++ separator ++ rest).toList =
      front.toList ++ separator.toList ++ rest.toList := by
    simp
  rw [split, chars, parts_of_cut filled cut, List.map_cons, String.ofList_toList, split]

/-- Pieces with the separator between them are the parts of the whole. -/
theorem split_pieces {separator first : String} {others : List String} (some : separator ≠ "")
    (closed : ∀ piece ∈ first :: others,
      ¬ separator.toList <:+: piece.toList ++ separator.toList.dropLast) :
    split separator (first ++ String.join (others.map (separator ++ ·))) = first :: others := by
  induction others generalizing first with
  | nil =>
    have alone : ¬ separator.toList <:+: first.toList := fun inside =>
      closed first List.mem_cons_self (inside.trans (List.prefix_append _ _).isInfix)
    simpa using split_of_not_contains (contains_eq_false_iff.mpr alone)
  | cons second others ih =>
    have whole : first ++ String.join ((second :: others).map (separator ++ ·)) =
        first ++ separator ++ (second ++ String.join (others.map (separator ++ ·))) := by
      simp [String.append_assoc]
    rw [whole, split_append some (closed first List.mem_cons_self),
      ih fun piece member => closed piece (List.mem_cons_of_mem first member)]

/-- Every part of a text is made of its characters. -/
theorem subset_of_mem_parts {separator text part : List Char} (member : part ∈ parts separator text) :
    part ⊆ text := by
  induction text using parts.induct separator with
  | case1 text empty =>
    rw [parts, dif_pos empty, List.mem_singleton] at member
    exact member ▸ List.Subset.refl _
  | case2 text some uncut =>
    rw [parts_of_uncut uncut, List.mem_singleton] at member
    exact member ▸ List.Subset.refl _
  | case3 text some before rest cut _ ih =>
    rw [parts_of_cut some cut] at member
    rw [eq_of_firstCut? cut]
    rcases List.mem_cons.mp member with rfl | later
    · simp
    · exact List.subset_append_of_subset_right _ (ih later)

/-- The separator occurs in no part. -/
theorem not_infix_of_mem_parts {separator text part : List Char} (some : separator ≠ [])
    (member : part ∈ parts separator text) : ¬ separator <:+: part := by
  induction text using parts.induct separator with
  | case1 text empty => exact absurd empty some
  | case2 text _ uncut =>
    rw [parts_of_uncut uncut, List.mem_singleton] at member
    exact member ▸ firstCut?_eq_none_iff.mp uncut
  | case3 text _ before rest cut _ ih =>
    rw [parts_of_cut some cut] at member
    rcases List.mem_cons.mp member with rfl | later
    · exact not_infix_of_firstCut? some cut
    · exact ih later

/-- The parts of a text make it up again. -/
theorem intercalate_parts (separator text : List Char) :
    separator.intercalate (parts separator text) = text := by
  induction text using parts.induct separator with
  | case1 text empty => rw [parts, dif_pos empty, List.intercalate_singleton]
  | case2 text _ uncut => rw [parts_of_uncut uncut, List.intercalate_singleton]
  | case3 text some before rest cut _ ih =>
    obtain ⟨first, others, listed⟩ := List.exists_cons_of_ne_nil (parts_ne_nil separator rest)
    rw [parts_of_cut some cut, listed, List.intercalate_cons_cons, ← listed, ih,
      ← eq_of_firstCut? cut]

theorem join_split (separator text : String) : join separator (split separator text) = text := by
  apply String.toList_inj.mp
  simp [join, split, String.toList_intercalate, intercalate_parts]

theorem subset_of_mem_split {separator text part : String} (member : part ∈ split separator text) :
    part.toList ⊆ text.toList := by
  obtain ⟨chars, found, rfl⟩ := List.mem_map.mp member
  rw [String.toList_ofList]
  exact subset_of_mem_parts found

theorem stripFront?_append (front rest : String) : stripFront? front (front ++ rest) = some rest := by
  rw [stripFront?, String.toList_append, after?_eq_some_iff.mpr rfl, Option.map_some,
    String.ofList_toList]

/-- A single character begins a text that is not empty whatever is behind it. -/
theorem startsWith_append_of_ne {mark front : String} {c : Char} (some : front ≠ "")
    (single : mark.toList = [c]) (rest : String) :
    startsWith mark (front ++ rest) = startsWith mark front := by
  have filled : front.toList ≠ [] := fun empty => some (String.toList_inj.mp empty)
  obtain ⟨d, chars, whole⟩ := List.exists_cons_of_ne_nil filled
  simp only [startsWith, String.toList_append, single, whole, List.cons_append, after?]
  split <;> rfl

end TabSpec.Text

import TabSpec.Proofs.Action.Sound

/-! Candidates that are offered one segment at a time. Every offered segment leads on to a whole
candidate, every candidate is led to, and typing what it offers arrives at it. -/
namespace TabSpec.Action

/-! ### The typed text up to its last divider -/

/-- A text that ends with a divider. An empty divider divides nothing. -/
def EndsDivided (dividers : List String) (text : List Char) : Prop :=
  ∃ divider ∈ dividers, divider ≠ "" ∧ divider.toList <:+ text

/-- The front of a typed value up to and including its last divider, which is the whole value where
there are no dividers. -/
structure IsTypedFront (dividers : List String) (value front : String) : Prop where
  begins : front.toList <+: value.toList
  whole : dividers = [] → front = value
  ends : dividers ≠ [] → front = "" ∨ EndsDivided dividers front.toList
  last : dividers ≠ [] → ∀ other, other <+: value.toList → EndsDivided dividers other →
    other.length ≤ front.toList.length

theorem IsTypedFront.unique {dividers : List String} {value first second : String}
    (one : IsTypedFront dividers value first) (other : IsTypedFront dividers value second) :
    first = second := by
  by_cases none : dividers = []
  · rw [one.whole none, other.whole none]
  have shorter {first second : String} (one : IsTypedFront dividers value first)
      (other : IsTypedFront dividers value second) :
      first.toList.length ≤ second.toList.length := by
    rcases one.ends none with rfl | divided
    · exact Nat.zero_le _
    · exact other.last none _ one.begins divided
  have long : first.toList.length = second.toList.length :=
    Nat.le_antisymm (shorter one other) (shorter other one)
  have inside : first.toList <+: second.toList :=
    List.prefix_of_prefix_length_le one.begins other.begins (Nat.le_of_eq long)
  exact String.toList_inj.mp (inside.eq_of_length long)

/-- A value that ends with a divider is its own typed front, and so is every value where there are no
dividers. -/
theorem isTypedFront_self {dividers : List String} {value : String}
    (divided : dividers ≠ [] → EndsDivided dividers value.toList) :
    IsTypedFront dividers value value where
  begins := List.prefix_refl _
  whole _ := rfl
  ends some := .inr (divided some)
  last _ _ inside _ := inside.length_le

theorem isTypedFront_empty (dividers : List String) : IsTypedFront dividers "" "" where
  begins := List.prefix_refl _
  whole _ := rfl
  ends _ := .inl rfl
  last _ _ inside _ := inside.length_le

/-- The typed length is that of some front that ends with a divider, if it is not zero. -/
theorem typedLength_cases {dividers : List String} (some : dividers ≠ []) (value : String) :
    typedLength dividers value = 0 ∨ ∃ divider ∈ dividers, divider ≠ "" ∧ ∃ before rest,
      value = before ++ divider ++ rest ∧
        typedLength dividers value = (before ++ divider).length := by
  have filled : dividers.isEmpty = false := by simpa using some
  rw [typedLength, filled]
  simp only [Bool.false_eq_true, if_false]
  refine List.foldlRecOn (motive := fun longest => longest = 0 ∨ ∃ divider ∈ dividers,
    divider ≠ "" ∧ ∃ before rest, value = before ++ divider ++ rest ∧
      longest = (before ++ divider).length) _ _ (.inl rfl) ?_
  intro longest reached divider listed
  obtain ⟨member, nonempty⟩ := List.mem_filter.mp listed
  split
  · rename_i before rest cut
    rcases Nat.le_total longest (before.length + divider.length) with short | long
    · rw [Nat.max_eq_right short]
      refine .inr ⟨divider, member, by simpa using nonempty, before, rest,
        Text.eq_of_splitLast? cut, ?_⟩
      rw [String.length_append]
    · rw [Nat.max_eq_left long]
      exact reached
  · exact reached

/-- The typed text that whole candidates are reduced behind. -/
def typedFront (dividers : List String) (value : String) : String :=
  String.ofList (value.toList.take (typedLength dividers value))

theorem isTypedFront_typedFront (dividers : List String) (value : String) :
    IsTypedFront dividers value (typedFront dividers value) where
  begins := by
    rw [typedFront, String.toList_ofList]
    exact List.take_prefix ..
  whole none := by
    subst none
    have all : typedLength [] value = value.toList.length := by
      rw [typedLength, String.length_toList]
      rfl
    rw [typedFront, all, List.take_length, String.ofList_toList]
  ends some := by
    rcases typedLength_cases some value with zero | reached
    · left
      rw [typedFront, zero]
      rfl
    · right
      obtain ⟨divider, member, nonempty, before, rest, whole, length⟩ := reached
      refine ⟨divider, member, nonempty, ?_⟩
      have front : value.toList.take (typedLength dividers value) = (before ++ divider).toList := by
        rw [length, whole, String.toList_append, ← String.length_toList, List.take_left]
      rw [typedFront, String.toList_ofList, front, String.toList_append]
      exact List.suffix_append ..
  last some := by
    rintro other ⟨back, whole⟩ ⟨divider, member, nonempty, front, rfl⟩
    have reaches := le_typedLength member nonempty (String.ofList front) (String.ofList back)
    have same : String.ofList front ++ divider ++ String.ofList back = value := by
      apply String.toList_inj.mp
      simpa using whole
    have inside : (front ++ divider.toList).length ≤ value.toList.length := by
      rw [← whole]
      exact (List.prefix_append _ _).length_le
    rw [same, String.length_append, String.length_ofList, ← String.length_toList] at reaches
    rw [typedFront, String.toList_ofList, List.length_take]
    rw [List.length_append] at inside ⊢
    exact Nat.le_min.mpr ⟨reaches, inside⟩

/-! ### The candidate that a target gives -/

/-- A segment that is not all of a text has characters, and ends with a divider if there are any. -/
theorem of_segmentLength? {dividers : List String} {rest : String} {length : Nat}
    (found : segmentLength? dividers rest = some length) :
    0 < length ∧ length < rest.toList.length ∧ (dividers = [] → length = 1) ∧
      (dividers ≠ [] → EndsDivided dividers (rest.toList.take length)) := by
  obtain ⟨listed, short⟩ := List.mem_filter.mp (List.min?_mem found)
  have inside : length < rest.toList.length := by
    rw [String.length_toList]
    exact of_decide_eq_true short
  cases dividers with
  | nil =>
    obtain rfl : length = 1 := by simpa using listed
    exact ⟨Nat.one_pos, inside, fun _ => rfl, fun some => absurd rfl some⟩
  | cons first dividers =>
    simp only [List.isEmpty_cons, Bool.false_eq_true, if_false, List.mem_filterMap, List.mem_filter,
      bne_iff_ne, Option.map_eq_some_iff, Prod.exists] at listed
    obtain ⟨divider, ⟨member, some⟩, before, back, cut, rfl⟩ := listed
    have positive : 0 < divider.length := by
      simpa [Nat.pos_iff_ne_zero, String.length_eq_zero_iff] using some
    refine ⟨by omega, inside, nofun, fun _ => ⟨divider, member, some, ?_⟩⟩
    have front : rest.toList.take (before.length + divider.length) = (before ++ divider).toList := by
      rw [Text.eq_of_splitOnce? cut, ← String.length_append, String.toList_append,
        ← String.length_toList, List.take_left]
    rw [front, String.toList_append]
    exact List.suffix_append ..

/-- The value of the candidate that a target gives behind the typed text. -/
def candidate? (dividers : List String) (typed target : String) : Option String :=
  (Text.stripFront? typed target).map fun rest =>
    match segmentLength? dividers rest with
    | some length => typed ++ String.ofList (rest.toList.take length)
    | none => target

theorem map_segmentOf? (dividers : List String) (typed : String) (suggestion : Suggestion) :
    (segmentOf? dividers typed suggestion).map (·.1.value) =
      candidate? dividers typed suggestion.value := by
  unfold segmentOf? candidate?
  cases Text.stripFront? typed suggestion.value with
  | none => rfl
  | some rest =>
    cases found : segmentLength? dividers rest <;> simp [found]

/-- Every target behind the typed text gives a candidate. -/
theorem exists_candidate? {typed target : String} (dividers : List String)
    (continues : typed.toList <+: target.toList) :
    ∃ candidate, candidate? dividers typed target = some candidate := by
  obtain ⟨rest, whole⟩ := continues
  have cut : Text.stripFront? typed target = some (String.ofList rest) := by
    rw [Text.stripFront?, Text.after?_eq_some_iff.mpr whole.symm]
    rfl
  exact ⟨_, by rw [candidate?, cut]; rfl⟩

/-- A candidate that is not the whole target goes beyond the typed text, up to a divider. -/
structure LeadsOn (dividers : List String) (typed candidate : String) : Prop where
  further : typed.length < candidate.length
  single : dividers = [] → candidate.length = typed.length + 1
  ends : dividers ≠ [] → EndsDivided dividers candidate.toList

theorem of_candidate? {dividers : List String} {typed target candidate : String}
    (gives : candidate? dividers typed target = some candidate) :
    typed.toList <+: target.toList ∧ candidate.toList <+: target.toList ∧
      (candidate = target ∨ LeadsOn dividers typed candidate) := by
  obtain ⟨rest, cut, same⟩ := Option.map_eq_some_iff.mp gives
  have whole := Text.eq_of_stripFront? cut
  have begun : typed.toList <+: target.toList := by
    rw [whole, String.toList_append]
    exact List.prefix_append ..
  refine ⟨begun, ?_⟩
  split at same
  · rename_i length found
    obtain ⟨positive, short, single, ends⟩ := of_segmentLength? found
    subst same whole
    have segment : (rest.toList.take length).length = length := by
      rw [List.length_take]
      omega
    have chars : (typed ++ String.ofList (rest.toList.take length)).length = typed.length + length := by
      rw [String.length_append, String.length_ofList, segment]
    refine ⟨?_, .inr ⟨?_, ?_, ?_⟩⟩
    · rw [String.toList_append, String.toList_append, String.toList_ofList]
      exact (List.prefix_append_right_inj _).mpr (List.take_prefix ..)
    · omega
    · intro none
      rw [chars, single none]
    · intro some
      obtain ⟨divider, member, nonempty, closes⟩ := ends some
      refine ⟨divider, member, nonempty, closes.trans ?_⟩
      rw [String.toList_append, String.toList_ofList]
      exact List.suffix_append ..
  · subst same
    exact ⟨List.prefix_refl _, .inl rfl⟩

/-- The segments of all candidates are offered, each value once. -/
theorem suggestions_toSegments (dividers : List String) (value : String)
    (completion : Completion) :
    (toSegments dividers value completion).suggestions = Completion.gather Suggestion.value []
      ((completion.suggestions.filterMap
        (segmentOf? dividers (typedFront dividers value))).map Prod.fst) := by
  unfold toSegments
  change _ = Completion.gather Suggestion.value
    ({ completion with suggestions := [] } : Completion).suggestions _
  generalize ({ completion with suggestions := [] } : Completion) = result
  simp only [typedFront]
  generalize completion.suggestions.filterMap _ = segments
  induction segments generalizing result with
  | nil => rfl
  | cons segment segments ih =>
    obtain ⟨suggestion, more⟩ := segment
    rw [List.foldl_cons, ih, Completion.addSuggestions_eq_gather]
    cases more with
    | none => rfl
    | some c => rw [Completion.suggestions_addNospace]; rfl

theorem mem_values_toSegments_iff {dividers : List String} {value candidate : String}
    {completion : Completion} :
    candidate ∈ (toSegments dividers value completion).values ↔
      ∃ target ∈ completion.values,
        candidate? dividers (typedFront dividers value) target = some candidate := by
  have gives (suggestion : Suggestion) (segment : Suggestion) :
      (∃ more, segmentOf? dividers (typedFront dividers value) suggestion = some (segment, more)) →
        candidate? dividers (typedFront dividers value) suggestion.value = some segment.value := by
    rintro ⟨more, found⟩
    rw [← map_segmentOf?, found]
    rfl
  rw [Completion.values, suggestions_toSegments, List.mem_map]
  constructor
  · rintro ⟨segment, member, rfl⟩
    rcases Completion.mem_gather _ member with old | new
    · cases old
    · obtain ⟨⟨_, more⟩, listed, rfl⟩ := List.mem_map.mp new
      obtain ⟨suggestion, present, found⟩ := List.mem_filterMap.mp listed
      exact ⟨suggestion.value, List.mem_map_of_mem present, gives _ _ ⟨more, found⟩⟩
  · rintro ⟨target, present, found⟩
    obtain ⟨suggestion, listed, rfl⟩ := List.mem_map.mp present
    rw [← map_segmentOf?, Option.map_eq_some_iff] at found
    obtain ⟨⟨segment, more⟩, cut, rfl⟩ := found
    refine List.mem_map.mp (Completion.key_mem_gather Suggestion.value [] ?_)
    refine List.mem_map_of_mem (List.mem_map.mpr ⟨(segment, more), ?_, rfl⟩)
    exact List.mem_filterMap.mpr ⟨suggestion, listed, cut⟩

/-! ### Typing what is offered -/

/-- What is offered one segment at a time for a fixed completion, where a value is typed. -/
def offered (dividers : List String) (completion : Completion) (context : Context)
    (value : String) : List String :=
  ((ofCompletion completion).stepwise dividers { context with value }).value.values

theorem mem_offered_iff {dividers : List String} {completion : Completion} {context : Context}
    {value candidate : String} :
    candidate ∈ offered dividers completion context value ↔ ∃ target ∈ completion.values,
      candidate? dividers (typedFront dividers value) target = some candidate :=
  mem_values_toSegments_iff

/-- The target is arrived at by typing, so many times, the candidate that it gives. -/
inductive Arrives (dividers : List String) (completion : Completion) (context : Context)
    (target : String) : (steps : Nat) → (value : String) → Prop where
  | arrived : Arrives dividers completion context target 0 target
  | typing {steps : Nat} {value typed next : String} (front : IsTypedFront dividers value typed)
      (gives : candidate? dividers typed target = some next)
      (isOffered : next ∈ offered dividers completion context value)
      (further : Arrives dividers completion context target steps next) :
      Arrives dividers completion context target (steps + 1) value

/-- From a front of a target that is its own typed front, the target is arrived at with at most one
step for each character that is left. -/
theorem exists_arrives {dividers : List String} {completion : Completion} (context : Context)
    {target : String} (member : target ∈ completion.values) (left : Nat) {value : String}
    (front : IsTypedFront dividers value value) (begun : value.toList <+: target.toList)
    (enough : target.length ≤ value.length + left) :
    ∃ steps ≤ left, Arrives dividers completion context target steps value := by
  induction left generalizing value with
  | zero =>
    have same : value = target := by
      refine String.toList_inj.mp (begun.eq_of_length_le ?_)
      simpa only [String.length_toList, Nat.add_zero] using enough
    subst same
    exact ⟨0, Nat.le_refl 0, .arrived⟩
  | succ left ih =>
    obtain ⟨next, gives⟩ := exists_candidate? dividers begun
    have isOffered : next ∈ offered dividers completion context value := by
      rw [mem_offered_iff, (isTypedFront_typedFront dividers value).unique front]
      exact ⟨target, member, gives⟩
    obtain ⟨_, inside, rfl | leads⟩ := of_candidate? gives
    · exact ⟨1, Nat.le_add_left 1 left, .typing front gives isOffered .arrived⟩
    · have further := leads.further
      obtain ⟨steps, few, arrives⟩ := ih (isTypedFront_self leads.ends) inside (by omega)
      exact ⟨steps + 1, Nat.succ_le_succ few, .typing front gives isOffered arrives⟩

/-- What is offered one segment at a time are fronts of the candidates behind the typed text, each of
which is a whole candidate or goes on to a divider. Every candidate behind the typed text is led to in
this way, and from the empty value it is arrived at by typing what it gives, with no more steps than it
has characters. -/
theorem stepwise_leads_on (dividers : List String) (completion : Completion) (context : Context)
    (value : String) {typed : String} (front : IsTypedFront dividers value typed) :
    (∀ candidate ∈ offered dividers completion context value, ∃ target ∈ completion.values,
      typed.toList <+: target.toList ∧ candidate.toList <+: target.toList ∧
        (candidate = target ∨ LeadsOn dividers typed candidate)) ∧
    (∀ target ∈ completion.values, typed.toList <+: target.toList →
      ∃ candidate ∈ offered dividers completion context value,
        candidate.toList <+: target.toList ∧ (candidate = target ∨
          typed.length < candidate.length ∧ IsTypedFront dividers candidate candidate)) ∧
    ∀ target ∈ completion.values, ∃ steps ≤ target.length,
      Arrives dividers completion context target steps "" := by
  have actual : typedFront dividers value = typed :=
    (isTypedFront_typedFront dividers value).unique front
  refine ⟨?_, ?_, ?_⟩
  · intro candidate member
    rw [mem_offered_iff, actual] at member
    obtain ⟨target, present, gives⟩ := member
    exact ⟨target, present, of_candidate? gives⟩
  · intro target member begun
    obtain ⟨candidate, gives⟩ := exists_candidate? dividers begun
    obtain ⟨_, inside, form⟩ := of_candidate? gives
    refine ⟨candidate, ?_, inside, ?_⟩
    · rw [mem_offered_iff, actual]
      exact ⟨target, member, gives⟩
    · exact form.imp_right fun leads => ⟨leads.further, isTypedFront_self leads.ends⟩
  · intro target member
    refine exists_arrives context member target.length (isTypedFront_empty dividers) ?_ ?_
    · exact List.nil_prefix
    · exact Nat.le_add_left ..

namespace Sample

/-- Two candidates that are divided in different ways. -/
def places : Completion := .ofValues ["one/two::three", "one/four"]

end Sample

/-- Behind a typed segment, one candidate goes on to its next divider and the other one ends. -/
theorem stepwise_leads_on_sample :
    IsTypedFront ["/", "::"] "one/t" "one/" ∧
      offered ["/", "::"] Sample.places default "one/t" = ["one/two::", "one/four"] ∧
      (∃ target ∈ Sample.places.values, "one/two::".toList <+: target.toList) ∧
      ∃ steps ≤ 14, Arrives ["/", "::"] Sample.places default "one/two::three" steps "" := by
  have typed : typedFront ["/", "::"] "one/t" = "one/" := by decide +kernel
  have front : IsTypedFront ["/", "::"] "one/t" "one/" := typed ▸ isTypedFront_typedFront _ _
  have values : offered ["/", "::"] Sample.places default "one/t" = ["one/two::", "one/four"] := by
    decide +kernel
  obtain ⟨leads, _, arrives⟩ := stepwise_leads_on ["/", "::"] Sample.places default "one/t" front
  refine ⟨front, values, ?_, arrives "one/two::three" (by decide +kernel)⟩
  obtain ⟨target, present, _, inside, _⟩ := leads "one/two::" (values ▸ List.mem_cons_self)
  exact ⟨target, present, inside⟩

end TabSpec.Action

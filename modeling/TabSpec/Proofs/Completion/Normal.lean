import TabSpec.Completion.Basic

/-! The normal form of completions: no value is offered twice, and the characters without space are
a star alone or name no character twice. Merging brings every completion into normal form and leaves
those that are. -/
namespace TabSpec.Completion

/-! ### Appending what is not there yet -/

section

variable {Item Key : Type} [DecidableEq Key] (key : Item → Key)

/-- Append the items whose keys are not there yet. -/
def gather (present added : List Item) : List Item :=
  added.foldl (fun present item =>
    if key item ∈ present.map key then present else present ++ [item]) present

section

variable {present : List Item} {item : Item}

theorem gather_cons_of_mem (known : key item ∈ present.map key) (rest : List Item) :
    gather key present (item :: rest) = gather key present rest := by
  simp only [gather, List.foldl_cons, if_pos known]

theorem gather_cons_of_not_mem (new : key item ∉ present.map key) (rest : List Item) :
    gather key present (item :: rest) = gather key (present ++ [item]) rest := by
  simp only [gather, List.foldl_cons, if_neg new]

end

theorem nodup_gather {present : List Item} (distinct : (present.map key).Nodup)
    (added : List Item) : ((gather key present added).map key).Nodup := by
  induction added generalizing present with
  | nil => exact distinct
  | cons item rest ih =>
    by_cases known : key item ∈ present.map key
    · rw [gather_cons_of_mem key known]
      exact ih distinct
    · rw [gather_cons_of_not_mem key known]
      refine ih ?_
      rw [((List.perm_append_singleton item present).map key).nodup_iff]
      exact List.nodup_cons.mpr ⟨known, distinct⟩

theorem gather_append (present front back : List Item) :
    gather key present (front ++ back) = gather key (gather key present front) back :=
  List.foldl_append

/-- The items that are not there yet are appended where they occur first. -/
theorem gather_eq_append (present added : List Item) :
    gather key present added = present ++
      (added.filter fun item => key item ∉ present.map key).eraseDupsBy
        fun item other => key item == key other := by
  induction added generalizing present with
  | nil => exact (List.append_nil present).symm
  | cons item rest ih =>
    by_cases known : key item ∈ present.map key
    · rw [gather_cons_of_mem key known, ih, List.filter_cons_of_neg (by simpa using known)]
    · have further : (rest.filter fun other => key other ∉ (present ++ [item]).map key) =
          (rest.filter fun other => key other ∉ present.map key).filter
            fun other => (key other == key item) = false := by
        rw [List.filter_filter]
        refine List.filter_congr fun other _ => ?_
        simp only [List.map_append, List.map_singleton, List.mem_append, List.mem_singleton, not_or,
          beq_eq_false_iff_ne, Bool.decide_and, Bool.and_comm, ne_eq]
      rw [gather_cons_of_not_mem key known, ih, List.filter_cons_of_pos (by simpa using known),
        List.eraseDupsBy_cons, further, List.append_assoc, List.singleton_append]

theorem subset_gather (present added : List Item) : present ⊆ gather key present added := by
  rw [gather_eq_append]
  exact List.subset_append_left present _

theorem mem_gather {present added : List Item} {item : Item}
    (member : item ∈ gather key present added) : item ∈ present ∨ item ∈ added := by
  induction added generalizing present with
  | nil => exact .inl member
  | cons first rest ih =>
    by_cases known : key first ∈ present.map key
    · rw [gather_cons_of_mem key known] at member
      exact (ih member).imp_right (List.mem_cons_of_mem first)
    · rw [gather_cons_of_not_mem key known] at member
      rcases ih member with old | new
      · rcases List.mem_append.mp old with old | last
        · exact .inl old
        · exact .inr (List.mem_singleton.mp last ▸ List.mem_cons_self)
      · exact .inr (List.mem_cons_of_mem first new)

theorem key_mem_gather {added : List Item} (present : List Item) {wanted : Key}
    (member : wanted ∈ added.map key) : wanted ∈ (gather key present added).map key := by
  induction added generalizing present with
  | nil => cases member
  | cons item rest ih =>
    simp only [gather, List.foldl_cons]
    rcases List.mem_cons.mp member with rfl | later
    · split
      · rename_i known
        exact List.map_subset key (subset_gather key present rest) known
      · refine List.map_subset key (subset_gather key _ rest) ?_
        simp
    · exact ih _ later

/-- Items may be gathered on their own before they are appended. -/
theorem gather_gather (present front back : List Item) :
    gather key (gather key present front) back = gather key present (gather key front back) := by
  induction back generalizing front with
  | nil => rfl
  | cons item rest ih =>
    by_cases known : key item ∈ front.map key
    · have later : key item ∈ (gather key present front).map key :=
        key_mem_gather key present known
      rw [gather_cons_of_mem key known, gather_cons_of_mem key later, ih]
    · rw [gather_cons_of_not_mem key known, ← ih, gather_append, ← List.singleton_append,
        gather_append]

/-- Distinct items are all appended. -/
theorem gather_of_nodup {present added : List Item}
    (distinct : ((present ++ added).map key).Nodup) : gather key present added = present ++ added := by
  induction added generalizing present with
  | nil => exact (List.append_nil present).symm
  | cons item rest ih =>
    have new : key item ∉ present.map key := by
      rw [List.map_append, List.nodup_append] at distinct
      exact fun old => distinct.2.2 _ old _ List.mem_cons_self rfl
    rw [gather_cons_of_not_mem key new, ih (by simpa using distinct), List.append_assoc,
      List.singleton_append]

end

theorem mem_gather_id_iff {Item : Type} [DecidableEq Item] {present added : List Item}
    {item : Item} : item ∈ gather id present added ↔ item ∈ present ∨ item ∈ added := by
  refine ⟨mem_gather id, ?_⟩
  rintro (old | new)
  · exact subset_gather id present added old
  · simpa using key_mem_gather id present (List.mem_map_of_mem new)

theorem addChars_eq_gather (present chars : List Char) :
    addChars present chars = gather id present chars := by
  simp [addChars, gather]

theorem addSuggestions_eq_gather (present added : List Suggestion) :
    addSuggestions present added = gather Suggestion.value present added := by
  have known (present : List Suggestion) (suggestion : Suggestion) :
      (present.any (·.value == suggestion.value) = true) =
        (suggestion.value ∈ present.map Suggestion.value) := by
    simp
  simp only [addSuggestions, gather, known]

/-! ### The normal form -/

/-- Characters without space that are a star alone, or among which are no star and no character
twice. -/
def IsNormalNospace (nospace : String) : Prop :=
  nospace = "*" ∨ '*' ∉ nospace.toList ∧ nospace.toList.Nodup

structure IsNormal (completion : Completion) : Prop where
  values : completion.values.Nodup
  nospace : IsNormalNospace completion.nospace

theorem suggestions_addNospace (completion : Completion) (chars : String) :
    (completion.addNospace chars).suggestions = completion.suggestions := by
  unfold addNospace
  split
  · rfl
  · split <;> rfl

theorem isNormalNospace_addNospace {completion : Completion}
    (normal : IsNormalNospace completion.nospace) (chars : String) :
    IsNormalNospace (completion.addNospace chars).nospace := by
  unfold addNospace
  split
  · exact normal
  · rename_i listed
    split
    · exact .inl rfl
    · rename_i plain
      obtain ⟨noStar, distinct⟩ := normal.resolve_left listed
      right
      simp only [String.toList_ofList, addChars_eq_gather]
      constructor
      · intro star
        rcases mem_gather id star with old | new
        · exact noStar old
        · exact plain (by simpa using new)
      · simpa using nodup_gather id (by simpa using distinct) chars.toList

theorem IsNormal.addNospace {completion : Completion} (normal : completion.IsNormal)
    (chars : String) : (completion.addNospace chars).IsNormal where
  values := by
    unfold Completion.values
    rw [suggestions_addNospace]
    exact normal.values
  nospace := isNormalNospace_addNospace normal.nospace chars

/-- More candidates may be added to a completion in normal form. -/
theorem IsNormal.addSuggestions {completion : Completion} (normal : completion.IsNormal)
    (added : List Suggestion) :
    ({ completion with
      suggestions := Completion.addSuggestions completion.suggestions added } :
        Completion).IsNormal where
  values := by
    simp only [Completion.values, addSuggestions_eq_gather]
    exact nodup_gather _ normal.values added
  nospace := normal.nospace

/-- Candidates may be changed as long as different values stay different. -/
theorem IsNormal.mapSuggestions {completion : Completion} (normal : completion.IsNormal)
    {change : Suggestion → Suggestion}
    (apart : ∀ first ∈ completion.suggestions, ∀ second ∈ completion.suggestions,
      (change first).value = (change second).value → first.value = second.value) :
    (completion.mapSuggestions change).IsNormal where
  values := by
    have distinct := List.pairwise_map.mp normal.values
    simp only [Completion.values, Completion.mapSuggestions, List.map_map]
    refine List.pairwise_map.mpr (distinct.imp_of_mem ?_)
    intro first second one other different same
    exact different (apart first one second other same)
  nospace := normal.nospace

theorem IsNormal.filter {completion : Completion} (normal : completion.IsNormal)
    (wanted : Suggestion → Bool) :
    ({ completion with suggestions := completion.suggestions.filter wanted } : Completion).IsNormal where
  values := normal.values.sublist (List.filter_sublist.map _)
  nospace := normal.nospace

theorem isNormal_empty : empty.IsNormal := ⟨List.nodup_nil, .inr ⟨by simp [empty], List.nodup_nil⟩⟩

theorem isNormal_ofMessage (message : String) : (ofMessage message).IsNormal :=
  ⟨List.nodup_nil, .inr ⟨by simp [ofMessage], List.nodup_nil⟩⟩

/-! ### Merging -/

theorem IsNormal.append {first : Completion} (normal : first.IsNormal) (second : Completion) :
    (first.append second).IsNormal := by
  have joint : ({ suggestions := Completion.addSuggestions first.suggestions second.suggestions
                  messages := first.messages ++ second.messages
                  nospace := first.nospace
                  usage := if second.usage = "" then first.usage else second.usage } :
                    Completion).IsNormal :=
    ⟨(normal.addSuggestions second.suggestions).values, normal.nospace⟩
  exact joint.addNospace second.nospace

/-- Whatever is merged, the outcome is in normal form. -/
theorem isNormal_merge (completions : List Completion) : (merge completions).IsNormal := by
  have extended (first : Completion) (normal : first.IsNormal) :
      (completions.foldl append first).IsNormal := by
    induction completions generalizing first with
    | nil => exact normal
    | cons completion rest ih => exact ih _ (normal.append completion)
  exact extended empty isNormal_empty

theorem addNospace_of_isNormal {completion : Completion} {chars : String}
    (fresh : completion.nospace = "") (normal : IsNormalNospace chars) :
    completion.addNospace chars = { completion with nospace := chars } := by
  unfold addNospace
  rw [if_neg (by rw [fresh]; decide)]
  rcases normal with rfl | ⟨noStar, distinct⟩
  · rfl
  · rw [if_neg (by simpa using noStar), addChars_eq_gather,
      gather_of_nodup id (by simpa [fresh] using distinct), fresh]
    simp

/-- Merging leaves exactly the completions in normal form as they are. -/
theorem merge_singleton_eq_self_iff (completion : Completion) :
    merge [completion] = completion ↔ completion.IsNormal := by
  constructor
  · intro same
    rw [← same]
    exact isNormal_merge [completion]
  · intro normal
    obtain ⟨suggestions, messages, nospace, usage⟩ := completion
    have whole : Completion.addSuggestions [] suggestions = suggestions := by
      rw [addSuggestions_eq_gather]
      exact gather_of_nodup _ normal.values
    have kept : (if usage = "" then "" else usage) = usage := by
      split
      · rename_i nothing
        exact nothing.symm
      · rfl
    simp only [merge, List.foldl_cons, List.foldl_nil, append, empty, whole, kept, List.nil_append]
    exact addNospace_of_isNormal rfl normal.nospace

end TabSpec.Completion

import TabSpec.Action.Basic
import TabSpec.Proofs.Completion.Normal

/-! Merging in groups. Appending completions is associative, field by field: candidates and characters
are gathered where they occur first, messages are appended and the last usage is kept. So merging the
merges of groups is merging all completions at once, and batches of actions may be nested. Whether a
merged completion withholds a space is told from the completions that were merged. -/
namespace TabSpec

namespace Completion

/-! ### Characters without space -/

/-- The characters without space when more are added. -/
def unite (present added : String) : String :=
  if present = "*" ∨ '*' ∈ added.toList then "*"
  else String.ofList (gather id present.toList added.toList)

theorem addNospace_eq (completion : Completion) (chars : String) :
    completion.addNospace chars =
      { completion with nospace := unite completion.nospace chars } := by
  unfold addNospace unite
  by_cases all : completion.nospace = "*"
  · rw [if_pos all, if_pos (.inl all), ← all]
  · by_cases star : '*' ∈ chars.toList
    · simp [all, star]
    · simp [all, star, addChars_eq_gather]

section

variable {present added : String}

theorem toList_unite (some : present ≠ "*") (plain : '*' ∉ added.toList) :
    (unite present added).toList = gather id present.toList added.toList := by
  rw [unite, if_neg (not_or.mpr ⟨some, plain⟩), String.toList_ofList]

/-- A star alone was there before, or a star is added. -/
theorem unite_eq_star_iff : unite present added = "*" ↔ present = "*" ∨ '*' ∈ added.toList := by
  refine ⟨fun alone => ?_, fun star => if_pos star⟩
  refine Decidable.byContradiction fun other => ?_
  obtain ⟨some, plain⟩ := not_or.mp other
  have whole : gather id present.toList added.toList = ['*'] := by
    rw [← toList_unite some plain, alone]
    rfl
  have old : '*' ∈ present.toList :=
    (mem_gather_id_iff.mp (whole ▸ List.mem_singleton_self '*')).resolve_right plain
  rw [gather_eq_append] at whole
  rcases List.append_eq_singleton_iff.mp whole with ⟨none, -⟩ | ⟨single, -⟩
  · rw [none] at old
    cases old
  · exact some (String.toList_inj.mp single)

/-- A star is among the characters when it was there or is added. -/
theorem star_mem_unite_iff :
    '*' ∈ (unite present added).toList ↔ '*' ∈ present.toList ∨ '*' ∈ added.toList := by
  by_cases alone : present = "*" ∨ '*' ∈ added.toList
  · rw [unite_eq_star_iff.mpr alone]
    refine iff_of_true (by decide) (alone.imp_left ?_)
    rintro rfl
    decide
  · obtain ⟨some, plain⟩ := not_or.mp alone
    rw [toList_unite some plain, mem_gather_id_iff]

end

theorem unite_empty (present : String) : unite present "" = present := by
  by_cases all : present = "*"
  · rw [all]
    rfl
  · apply String.toList_inj.mp
    rw [toList_unite all (by decide)]
    rfl

theorem unite_assoc (first second third : String) :
    unite (unite first second) third = unite first (unite second third) := by
  have stars : unite (unite first second) third = "*" ↔ unite first (unite second third) = "*" := by
    rw [unite_eq_star_iff, unite_eq_star_iff, unite_eq_star_iff, star_mem_unite_iff, or_assoc]
  by_cases star : unite (unite first second) third = "*"
  · rw [star, stars.mp star]
  · obtain ⟨front, last⟩ := not_or.mp (mt unite_eq_star_iff.mpr star)
    obtain ⟨some, back⟩ := not_or.mp (mt unite_eq_star_iff.mpr (mt stars.mpr star))
    obtain ⟨plain, -⟩ := not_or.mp (mt star_mem_unite_iff.mpr back)
    have middle : second ≠ "*" := by
      rintro rfl
      exact plain (by decide)
    apply String.toList_inj.mp
    rw [toList_unite front last, toList_unite some plain, toList_unite some back,
      toList_unite middle last, gather_gather]

theorem addNospace_star (completion : Completion) :
    completion.addNospace "*" = { completion with nospace := "*" } := by
  rw [addNospace_eq, unite_eq_star_iff.mpr (.inr (by decide))]

/-! ### Appending completions -/

theorem append_eq (first second : Completion) :
    first.append second =
      { suggestions := gather Suggestion.value first.suggestions second.suggestions
        messages := first.messages ++ second.messages
        nospace := unite first.nospace second.nospace
        usage := if second.usage = "" then first.usage else second.usage } := by
  simp only [append, addNospace_eq, addSuggestions_eq_gather]

theorem append_empty (completion : Completion) : completion.append empty = completion := by
  rw [append_eq]
  simp [empty, unite_empty, gather]

theorem append_assoc (first second third : Completion) :
    (first.append second).append third = first.append (second.append third) := by
  have usages : (if third.usage = "" then if second.usage = "" then first.usage else second.usage
        else third.usage) =
      if (if third.usage = "" then second.usage else third.usage) = "" then first.usage
        else if third.usage = "" then second.usage else third.usage := by
    by_cases last : third.usage = ""
    · simp only [if_pos last]
    · simp only [if_neg last]
  simp only [append_eq, gather_gather, List.append_assoc, unite_assoc, usages]

/-! ### Merging in groups -/

/-- What is appended to a completion may be merged before. -/
theorem foldl_append_eq (first : Completion) (completions : List Completion) :
    completions.foldl append first = first.append (merge completions) := by
  induction completions generalizing first with
  | nil => exact (append_empty first).symm
  | cons completion rest ih =>
    have merged : merge (completion :: rest) = empty.append (completion.append (merge rest)) := by
      rw [merge, List.foldl_cons, ih, append_assoc]
    rw [List.foldl_cons, ih, append_assoc, merged, ← append_assoc first empty, append_empty]

theorem merge_append (front back : List Completion) :
    merge (front ++ back) = (merge front).append (merge back) := by
  rw [merge, List.foldl_append, foldl_append_eq]
  rfl

theorem merge_cons (completion : Completion) (rest : List Completion) :
    merge (completion :: rest) = (merge [completion]).append (merge rest) :=
  merge_append [completion] rest

/-- What was merged is left as it is. -/
theorem merge_singleton_merge (completions : List Completion) :
    merge [merge completions] = merge completions :=
  (merge_singleton_eq_self_iff _).mpr (isNormal_merge completions)

theorem merge_map_merge (groups : List (List Completion)) :
    merge (groups.map merge) = merge groups.flatten := by
  induction groups with
  | nil => rfl
  | cons group rest ih =>
    rw [List.map_cons, List.flatten_cons, merge_cons, merge_singleton_merge, ih, merge_append]

theorem merge_insert_empty (front back : List Completion) :
    merge (front ++ empty :: back) = merge (front ++ back) := by
  have nothing : merge [empty] = empty := merge_singleton_merge []
  rw [merge_append, merge_cons, nothing, ← append_assoc, append_empty, ← merge_append]

/-- The first candidate of each value is kept, in order. -/
theorem suggestions_merge (completions : List Completion) :
    (merge completions).suggestions =
      (completions.flatMap (·.suggestions)).eraseDupsBy fun one other => one.value == other.value := by
  have gathered (first : Completion) : (completions.foldl append first).suggestions =
      gather Suggestion.value first.suggestions (completions.flatMap (·.suggestions)) := by
    induction completions generalizing first with
    | nil => rfl
    | cons completion rest ih =>
      rw [List.foldl_cons, ih, List.flatMap_cons, gather_append, append_eq]
  have fresh : (completions.flatMap (·.suggestions)).filter
      (fun suggestion => suggestion.value ∉ empty.suggestions.map Suggestion.value) =
        completions.flatMap (·.suggestions) :=
    List.filter_eq_self.mpr fun _ _ => by simp [empty]
  rw [merge, gathered, gather_eq_append, fresh]
  exact List.nil_append _

theorem merge_singleton_ofSuggestions (suggestions : List Suggestion) :
    merge [ofSuggestions suggestions] =
      ofSuggestions (suggestions.eraseDupsBy fun one other => one.value == other.value) := by
  have merged := suggestions_merge [ofSuggestions suggestions]
  rw [merge, List.foldl_cons, List.foldl_nil, append_eq] at merged ⊢
  simp only [List.flatMap_cons, List.flatMap_nil, List.append_nil] at merged
  rw [merged]
  simp [empty, ofSuggestions, unite_empty]

end Completion

namespace Action

/-- Actions are asked in the order in which they stand. -/
theorem batch_append (front back : List Action) (context : Context) :
    batch (front ++ back) context =
      do return (← batch front context).append (← batch back context) := by
  simp [batch, List.mapM_append, Completion.merge_append]

theorem batch_singleton_batch (actions : List Action) : batch [batch actions] = batch actions := by
  funext context
  simp [batch, Completion.merge_singleton_merge]

theorem batch_map_batch (groups : List (List Action)) :
    batch (groups.map batch) = batch groups.flatten := by
  funext context
  induction groups with
  | nil => rfl
  | cons group rest ih =>
    rw [List.map_cons, List.flatten_cons, ← List.singleton_append, batch_append, batch_append, ih,
      batch_singleton_batch]

end Action

namespace Completion

/-- Completions may be merged in groups, and batches of actions may be nested: the answer, what is
recorded and in which order is the same as for all of them at once. So merging is associative, an empty
completion may be left out, and what was merged stays as it is. -/
theorem merge_in_groups :
    (∀ groups : List (List Completion), merge (groups.map merge) = merge groups.flatten) ∧
    (∀ groups : List (List Action),
      Action.batch (groups.map Action.batch) = Action.batch groups.flatten) ∧
    (∀ first second third : Completion,
      merge [merge [first, second], third] = merge [first, merge [second, third]]) ∧
    (∀ front back : List Completion, merge (front ++ empty :: back) = merge (front ++ back)) ∧
    ∀ completions : List Completion,
      merge [merge completions] = merge completions ∧
      merge [empty, merge completions] = merge completions ∧
      merge [merge completions, empty] = merge completions ∧
      (merge completions).suggestions = (completions.flatMap (·.suggestions)).eraseDupsBy
        fun one other => one.value == other.value := by
  refine ⟨merge_map_merge, Action.batch_map_batch, fun first second third => ?_, merge_insert_empty,
    fun completions => ⟨merge_singleton_merge completions, ?_, ?_, suggestions_merge completions⟩⟩
  · have left : merge [merge [first, second], third] = merge [first, second, third] := by
      rw [merge_cons, merge_singleton_merge, ← merge_append]
      rfl
    have right : merge [first, merge [second, third]] = merge [first, second, third] := by
      rw [merge_cons, merge_singleton_merge, ← merge_cons]
    rw [left, right]
  · exact (merge_insert_empty [] [merge completions]).trans (merge_singleton_merge completions)
  · exact (merge_insert_empty [merge completions] []).trans (merge_singleton_merge completions)

/-! ### Where a space is withheld -/

/-- A space is withheld behind a value when the characters are a star alone, or the last character of
the value is among them. -/
theorem suppressesSpace_iff {completion : Completion} {value : String} :
    completion.suppressesSpace value = true ↔ completion.nospace = "*" ∨
      ∃ last ∈ Text.last? value, last ∈ completion.nospace.toList := by
  simp [suppressesSpace, Option.any_eq_true]

theorem suppressesSpace_append_iff {first second : Completion} {value : String} :
    (first.append second).suppressesSpace value = true ↔ first.suppressesSpace value = true ∨
      second.suppressesSpace value = true ∨ '*' ∈ second.nospace.toList := by
  have among : second.nospace = "*" → '*' ∈ second.nospace.toList := fun same => same ▸ by decide
  rw [append_eq, suppressesSpace_iff, suppressesSpace_iff, suppressesSpace_iff, unite_eq_star_iff]
  by_cases alone : first.nospace = "*" ∨ '*' ∈ second.nospace.toList
  · refine iff_of_true (.inl alone) ?_
    exact alone.imp .inl .inr
  · obtain ⟨some, plain⟩ := not_or.mp alone
    have apart : second.nospace ≠ "*" := mt among plain
    simp only [some, plain, apart, toList_unite some plain, mem_gather_id_iff, false_or, or_false,
      and_or_left, exists_or]

theorem suppressesSpace_merge_iff {completions : List Completion} {value : String} :
    (merge completions).suppressesSpace value = true ↔ ∃ completion ∈ completions,
      completion.suppressesSpace value = true ∨ '*' ∈ completion.nospace.toList := by
  have extended (first : Completion) :
      (completions.foldl append first).suppressesSpace value = true ↔
        first.suppressesSpace value = true ∨ ∃ completion ∈ completions,
          completion.suppressesSpace value = true ∨ '*' ∈ completion.nospace.toList := by
    induction completions generalizing first with
    | nil => simp
    | cons completion rest ih => simp [ih, suppressesSpace_append_iff, or_assoc]
  have nothing : ¬ empty.suppressesSpace value = true := by
    simp [suppressesSpace_iff, empty]
  rw [merge, extended, or_iff_right nothing]

/-- Merged completions withhold a space where one of them does, and behind every value when a star is
among the characters of one of them. So merging keeps the decision for every value exactly when a star
that is among the characters of any of them stands alone in one of them. -/
theorem merge_withholds_space (completions : List Completion) :
    (∀ value, (merge completions).suppressesSpace value = true ↔ ∃ completion ∈ completions,
      completion.suppressesSpace value = true ∨ '*' ∈ completion.nospace.toList) ∧
    ((∀ value, (merge completions).suppressesSpace value = true ↔
        ∃ completion ∈ completions, completion.suppressesSpace value = true) ↔
      ((∃ completion ∈ completions, '*' ∈ completion.nospace.toList) →
        ∃ completion ∈ completions, completion.nospace = "*")) := by
  refine ⟨fun value => suppressesSpace_merge_iff, ?_, ?_⟩
  · rintro told ⟨completion, member, star⟩
    -- Nothing is the last character of an empty value, so only a star alone withholds the space there.
    obtain ⟨other, listed, withheld⟩ :=
      (told "").mp (suppressesSpace_merge_iff.mpr ⟨completion, member, .inr star⟩)
    refine ⟨other, listed, (suppressesSpace_iff.mp withheld).resolve_right ?_⟩
    rintro ⟨last, none, -⟩
    cases none
  · intro alone value
    rw [suppressesSpace_merge_iff]
    refine ⟨?_, fun ⟨completion, member, withheld⟩ => ⟨completion, member, .inl withheld⟩⟩
    rintro ⟨completion, member, withheld | star⟩
    · exact ⟨completion, member, withheld⟩
    · obtain ⟨other, listed, all⟩ := alone ⟨completion, member, star⟩
      exact ⟨other, listed, suppressesSpace_iff.mpr (.inl all)⟩

namespace Sample

/-- What another program may answer: a star among other characters. -/
def starred : Completion := { nospace := "*," }

end Sample

/-- A star among other characters does not withhold the space, and does so once it is merged. -/
theorem merge_spreads_star :
    Sample.starred.suppressesSpace "a" = false ∧
    ¬ ((merge [Sample.starred]).suppressesSpace "a" = true ↔
      ∃ completion ∈ [Sample.starred], completion.suppressesSpace "a" = true) := by
  decide

end Completion
end TabSpec

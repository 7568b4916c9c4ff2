import TabSpec.Proofs.Action.Sound
import TabSpec.Proofs.Completion.Merge

/-! Lists in which one entry is completed at a time. The typed value is cut into entries around a
divider, the last entry is what the action is asked for, and each of its candidates is put behind the
entries before, so that what was typed is kept. -/
namespace TabSpec.Action

namespace Segments

variable {divider : String} (some : divider ≠ "")

include some

/-- What stands in front of the segment under the cursor are the segments before it, with a divider
behind each. -/
theorem front_append_eq_join (value entry : String) :
    (Segments.of divider value).front ++ entry =
      Text.join divider ((Segments.of divider value).parts ++ [entry]) := by
  unfold Segments.of
  rw [if_neg some]
  split
  · simp [Text.join]
  · rename_i before current cut
    have parted : Text.split divider before ≠ [] := by
      simp [Text.split, Text.parts_ne_nil]
    rw [Text.join, String.intercalate_append_of_ne_nil parted (List.cons_ne_nil entry []),
      ← Text.join, Text.join_split, String.intercalate_singleton]

/-- No segment holds the divider, also where dividers overlap: the last one is found from the right, and
the others from the left. -/
theorem not_contains_of_mem (value : String) {entry : String}
    (member : entry ∈ (Segments.of divider value).parts ++ [(Segments.of divider value).current]) :
    Text.contains divider entry = false := by
  have filled : divider.toList ≠ [] := mt String.toList_eq_nil_iff.mp some
  rw [Text.contains_eq_false_iff]
  unfold Segments.of at member
  rw [if_neg some] at member
  split at member
  · rename_i uncut
    obtain rfl : entry = value := by simpa using member
    exact Text.lastCut?_eq_none_iff.mp (by simpa [Text.splitLast?] using uncut)
  · rename_i cut
    obtain ⟨⟨front, rest⟩, found, same⟩ := Option.map_eq_some_iff.mp cut
    obtain ⟨rfl, rfl⟩ := Prod.mk.inj same
    rcases List.mem_append.mp member with earlier | last
    · obtain ⟨chars, part, rfl⟩ := List.mem_map.mp earlier
      rw [String.toList_ofList]
      exact Text.not_infix_of_mem_parts filled part
    · obtain rfl := List.mem_singleton.mp last
      rw [String.toList_ofList]
      exact Text.not_infix_of_lastCut? filled found

end Segments

/-- Completing one segment without a space asks for the segment under the cursor, and puts the segments
before it in front of the candidates. -/
theorem withoutSpace_segmented {divider : String} (some : divider ≠ "") (action : Action)
    (context : Context) :
    withoutSpace "*" (segmented divider action) context =
      (fun answer => { answer with
        suggestions := answer.suggestions.map fun suggestion => { suggestion with
          value := Text.join divider
            ((Segments.of divider context.value).parts ++ [suggestion.value]) }
        nospace := "*" }) <$> action { context with
          parts := (Segments.of divider context.value).parts
          value := (Segments.of divider context.value).current } := by
  have put (answer : Completion) :
      answer.prependValues (Segments.of divider context.value).front =
        answer.mapSuggestions fun suggestion => { suggestion with
          value := Text.join divider
            ((Segments.of divider context.value).parts ++ [suggestion.value]) } := by
    simp only [Completion.prependValues, Segments.front_append_eq_join some]
  unfold withoutSpace map segmented
  cases Text.last? divider with
  | none =>
    simp only [bind_pure_comp, Functor.map_map, put, ite_self, Completion.addNospace_star]
    rfl
  | some last =>
    simp only [bind_pure_comp, Functor.map_map, put, ite_self, Completion.addNospace_star]
    simp only [Completion.addNospace_eq]
    rfl

/-- A typed value is a list of entries without the divider, of which the last one is completed. Completed
without repetitions, the action is asked for it behind the other entries, and the candidates are the
whole list with each entry that is offered and not there yet. Completed with repetitions, the action is
asked for it without the others, and the candidates are the list with each entry that is offered. -/
theorem distinctEntries_completes_last {divider : String} (some : divider ≠ "") (value : String) :
    let parts := (Segments.of divider value).parts
    let current := (Segments.of divider value).current
    (∀ entry ∈ parts ++ [current], Text.contains divider entry = false) ∧
    value = Text.join divider (parts ++ [current]) ∧
    ∀ (action : Action) (context : Context), context.value = value →
      distinctEntries divider action context =
        (fun answer => { answer with
          suggestions := (answer.suggestions.filter fun suggestion =>
            !parts.contains suggestion.value).map fun suggestion =>
              { suggestion with value := Text.join divider (parts ++ [suggestion.value]) }
          nospace := "*" }) <$> action { context with parts, value := current } ∧
      entries divider action context =
        (fun answer => { answer with
          suggestions := answer.suggestions.map fun suggestion =>
            { suggestion with value := Text.join divider (parts ++ [suggestion.value]) }
          nospace := "*" }) <$> action { context with parts := [], value := current } := by
  intro parts current
  refine ⟨fun entry => Segments.not_contains_of_mem some value, ?_, ?_⟩
  · rw [← Segments.front_append_eq_join some]
    exact Segments.eq_front_append_current divider value
  · rintro action context rfl
    refine ⟨?_, withoutSpace_segmented some _ context⟩
    rw [distinctEntries, withoutSpace_segmented some, dropParts, keep, map, bind_pure_comp,
      Functor.map_map]

namespace Sample

/-- Two entries around overlapping dividers. -/
def overlapping : Context := { (default : Context) with value := "a,,,b" }

end Sample

/-- The first entry takes what is left of the overlapping dividers. -/
theorem distinctEntries_completes_last_sample :
    ",," ≠ "" ∧ Sample.overlapping.value = Text.join ",," ["a,", "b"] ∧
    (distinctEntries ",," (.ofValues ["a,", "c"]) Sample.overlapping).value.values = ["a,,,c"] ∧
    (entries ",," (.ofValues ["a,", "c"]) Sample.overlapping).value.values = ["a,,,a,", "a,,,c"] := by
  have some : ",," ≠ "" := by decide
  obtain ⟨_, whole, completes⟩ := distinctEntries_completes_last some Sample.overlapping.value
  obtain ⟨distinct, all⟩ := completes (.ofValues ["a,", "c"]) Sample.overlapping rfl
  refine ⟨some, ?_, ?_, ?_⟩
  · rw [whole]
    decide +kernel
  · rw [distinct]
    decide +kernel
  · rw [all]
    decide +kernel

end TabSpec.Action

import TabSpec.Action.Adjust
import TabSpec.Proofs.Action.Words
import TabSpec.Proofs.Completion.Normal
import TabSpec.Proofs.Context.NulFree
import TabSpec.Proofs.Text.ShellWords

/-! Properties of completions that nothing breaks that is done to completions, as long as no text
holds NUL. Two such properties are that no candidate holds NUL, and that the completion is in normal
form besides. -/
namespace TabSpec

namespace Completion

/-- No candidate holds NUL. -/
def NulFree (completion : Completion) : Prop :=
  ∀ suggestion ∈ completion.suggestions, Text.NulFree suggestion.value

/-- A property of completions without NUL that is kept by all that modifiers do to completions. -/
structure Stable (holds : Completion → Prop) : Prop where
  nulFree {completion : Completion} : holds completion → completion.NulFree
  empty : holds .empty
  ofMessage (message : String) : holds (.ofMessage message)
  beside {completion : Completion} (messages : List String) (usage : String) :
    holds completion → holds { completion with messages, usage }
  addNospace {completion : Completion} (chars : String) :
    holds completion → holds (completion.addNospace chars)
  withoutSpaces {completion : Completion} :
    holds completion → holds { completion with nospace := "*" }
  filter {completion : Completion} (wanted : Suggestion → Bool) :
    holds completion →
      holds { completion with suggestions := completion.suggestions.filter wanted }
  /-- Candidates may be changed when different values stay different. -/
  change {completion : Completion} {change : Suggestion → Suggestion}
    (free : ∀ suggestion, Text.NulFree suggestion.value → Text.NulFree (change suggestion).value)
    (apart : ∀ first second, Text.NulFree first.value → Text.NulFree second.value →
      (change first).value = (change second).value → first.value = second.value) :
    holds completion → holds (completion.mapSuggestions change)
  add {completion : Completion} {suggestion : Suggestion} (free : Text.NulFree suggestion.value) :
    holds completion →
      holds { completion with
        suggestions := addSuggestions completion.suggestions [suggestion] }

theorem stable_nulFree : Stable NulFree where
  nulFree free := free
  empty := by simp [NulFree, Completion.empty]
  ofMessage message := by simp [NulFree, Completion.ofMessage]
  beside _ _ free := free
  addNospace chars free := by
    unfold NulFree
    rw [suggestions_addNospace]
    exact free
  withoutSpaces free := free
  filter wanted free := fun suggestion member => free suggestion (List.mem_filter.mp member).1
  change keeps _ free := by
    intro suggestion member
    obtain ⟨old, present, rfl⟩ := List.mem_map.mp member
    exact keeps old (free old present)
  add {completion suggestion} added free := by
    intro other member
    simp only [addSuggestions_eq_gather] at member
    rcases mem_gather _ member with old | new
    · exact free other old
    · rw [List.mem_singleton.mp new]
      exact added

theorem stable_isNormal : Stable fun completion => completion.NulFree ∧ completion.IsNormal where
  nulFree holds := holds.1
  empty := ⟨stable_nulFree.empty, isNormal_empty⟩
  ofMessage message := ⟨stable_nulFree.ofMessage message, isNormal_ofMessage message⟩
  beside messages usage holds :=
    ⟨stable_nulFree.beside messages usage holds.1, holds.2.values, holds.2.nospace⟩
  addNospace chars holds := ⟨stable_nulFree.addNospace chars holds.1, holds.2.addNospace chars⟩
  withoutSpaces holds := ⟨stable_nulFree.withoutSpaces holds.1, holds.2.values, .inl rfl⟩
  filter wanted holds := ⟨stable_nulFree.filter wanted holds.1, holds.2.filter wanted⟩
  change keeps apart holds :=
    ⟨stable_nulFree.change keeps apart holds.1, holds.2.mapSuggestions fun first one second other =>
      apart first second (holds.1 first one) (holds.1 second other)⟩
  add added holds := ⟨stable_nulFree.add added holds.1, holds.2.addSuggestions _⟩

end Completion

namespace Action

/-- A value cut at its dividers holds no NUL when the value holds none. -/
structure Segments.NulFree (segments : Segments) : Prop where
  parts : ∀ part ∈ segments.parts, Text.NulFree part
  front : Text.NulFree segments.front
  current : Text.NulFree segments.current

theorem Segments.nulFree_of (divider : String) {value : String} (free : Text.NulFree value) :
    (Segments.of divider value).NulFree := by
  unfold Segments.of
  split
  · refine ⟨?_, free, Text.nulFree_empty⟩
    intro part member
    obtain ⟨c, present, rfl⟩ := List.mem_map.mp member
    exact free.of_subset (by simpa using present)
  · split
    · exact ⟨by simp, Text.nulFree_empty, free⟩
    · rename_i before current cut
      rw [Text.eq_of_splitLast? cut, Text.nulFree_append, Text.nulFree_append] at free
      obtain ⟨⟨beforeFree, dividerFree⟩, currentFree⟩ := free
      exact ⟨fun part member => beforeFree.of_mem_split member,
        Text.nulFree_append.mpr ⟨beforeFree, dividerFree⟩, currentFree⟩

/-- A segment of a candidate is made of the candidate's characters. -/
theorem nulFree_of_segmentOf? {dividers : List String} {typed : String}
    {suggestion segment : Suggestion} {more : Option Char} (free : Text.NulFree suggestion.value)
    (found : segmentOf? dividers typed suggestion = some (segment, more)) :
    Text.NulFree segment.value := by
  simp only [segmentOf?, Option.bind_eq_bind, Option.bind_eq_some_iff] at found
  obtain ⟨rest, cut, found⟩ := found
  have whole := Text.eq_of_stripFront? cut
  split at found
  · obtain ⟨rfl, rfl⟩ := Prod.mk.inj (Option.some.inj found)
    rw [whole, Text.nulFree_append] at free
    refine Text.nulFree_append.mpr ⟨free.1, ?_⟩
    exact Text.nulFree_ofList.mpr fun member => free.2 (List.mem_of_mem_take member)
  · obtain ⟨rfl, rfl⟩ := Prod.mk.inj (Option.some.inj found)
    exact free

theorem nulFree_quoteLike {line : List Char} {token : WordToken} (taken : token.IsFrom line)
    {value : String} (free : Text.NulFree value) : Text.NulFree (quoteLike token value) := by
  unfold quoteLike
  cases opened : token.quote with
  | some quote =>
    have mark : Text.NulFree (String.ofList [quote]) := by
      rcases taken.quote quote opened with rfl | rfl <;> decide
    exact Text.nulFree_append.mpr ⟨Text.nulFree_append.mpr ⟨mark, free⟩, mark⟩
  | none =>
    obtain ⟨quoted, written, quotedFree⟩ := Text.ShellWords.exists_quote?_of_not_mem free
    rw [written]
    exact quotedFree

/-- Candidates that are written alike in a line, each with a space behind it or not, are the same. -/
theorem eq_of_quoteLike_append {line : List Char} {token : WordToken} (taken : token.IsFrom line)
    {first second gap space : String} (firstFree : Text.NulFree first)
    (secondFree : Text.NulFree second) (gaps : gap = "" ∨ gap = " ")
    (spaces : space = "" ∨ space = " ")
    (same : quoteLike token first ++ gap = quoteLike token second ++ space) : first = second := by
  unfold quoteLike at same
  cases opened : token.quote with
  | some quote =>
    have chars : first.toList ++ quote :: gap.toList = second.toList ++ quote :: space.toList := by
      simpa [opened] using congrArg String.toList same
    have ends := congrArg List.getLast? chars
    apply String.toList_inj.mp
    -- A space behind one of them only would be the quote at the end of the other.
    rcases gaps with rfl | rfl <;> rcases spaces with rfl | rfl
    · exact List.append_cancel_right chars
    · rcases taken.quote quote opened with rfl | rfl <;> simp at ends
    · rcases taken.quote quote opened with rfl | rfl <;> simp at ends
    · exact List.append_cancel_right chars
  | none =>
    simp only [opened] at same
    obtain ⟨one, firstWritten, _⟩ := Text.ShellWords.exists_quote?_of_not_mem firstFree
    obtain ⟨other, secondWritten, _⟩ := Text.ShellWords.exists_quote?_of_not_mem secondFree
    rw [firstWritten, secondWritten] at same
    refine Text.ShellWords.eq_of_quote?_append firstWritten secondWritten ?_ ?_ same
    · rcases gaps with rfl | rfl <;> simp [Text.ShellWords.isSpace]
    · rcases spaces with rfl | rfl <;> simp [Text.ShellWords.isSpace]

end Action

namespace Completion

namespace Stable

variable {holds : Completion → Prop} (stable : Stable holds) {completion : Completion}

include stable

theorem restyle {change : Suggestion → Suggestion}
    (same : ∀ suggestion, (change suggestion).value = suggestion.value)
    (kept : holds completion) : holds (completion.mapSuggestions change) := by
  refine stable.change ?_ ?_ kept
  · intro suggestion free
    rw [same]
    exact free
  · intro first second _ _ equal
    rwa [same, same] at equal

theorem prependValues {front : String} (free : Text.NulFree front) (kept : holds completion) :
    holds (completion.prependValues front) := by
  refine stable.change ?_ ?_ kept
  · intro suggestion valueFree
    exact Text.nulFree_append.mpr ⟨free, valueFree⟩
  · intro first second _ _ equal
    exact String.append_right_inj front |>.mp equal

theorem appendValues {back : String} (free : Text.NulFree back) (kept : holds completion) :
    holds (completion.mapSuggestions fun suggestion =>
      { suggestion with value := suggestion.value ++ back }) := by
  refine stable.change ?_ ?_ kept
  · intro suggestion valueFree
    exact Text.nulFree_append.mpr ⟨valueFree, free⟩
  · intro first second _ _ equal
    exact String.append_left_inj back |>.mp equal

theorem toSegments (dividers : List String) (value : String) (kept : holds completion) :
    holds (Action.toSegments dividers value completion) := by
  refine Action.toSegments_induction dividers value ?_ (fun _ => stable.addNospace) ?_
  · have none := stable.filter (fun _ => false) kept
    rwa [List.filter_eq_nil_iff.mpr (by simp)] at none
  · intro result suggestion present segment more found
    exact stable.add (Action.nulFree_of_segmentOf? (stable.nulFree kept suggestion present) found)

theorem intoLine {line : List Char} {front : String} {token : WordToken}
    (free : Text.NulFree front) (taken : token.IsFrom line) (kept : holds completion) :
    holds (Action.intoLine front token completion) := by
  unfold Action.intoLine
  refine stable.withoutSpaces (stable.change ?_ ?_ kept)
  · intro suggestion valueFree
    have gap : Text.NulFree (if completion.suppressesSpace suggestion.value then "" else " ") := by
      split <;> decide
    exact Text.nulFree_append.mpr
      ⟨Text.nulFree_append.mpr ⟨free, Action.nulFree_quoteLike taken valueFree⟩, gap⟩
  · intro first second firstFree secondFree same
    have gaps (value : String) : (if completion.suppressesSpace value then "" else " ") = "" ∨
        (if completion.suppressesSpace value then "" else " ") = " " := by
      split
      · exact .inl rfl
      · exact .inr rfl
    simp only [String.append_assoc, String.append_right_inj] at same
    exact Action.eq_of_quoteLike_append taken firstFree secondFree (gaps _) (gaps _) same

end Stable

end Completion

end TabSpec

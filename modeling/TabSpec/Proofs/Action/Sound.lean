import TabSpec.Expression
import TabSpec.Proofs.Completion.Normal
import TabSpec.Proofs.Context.Parts
import TabSpec.Proofs.Outcome
import TabSpec.Proofs.Substitution

/-! Actions that stay within what was typed: all their candidates begin with the value they are
asked for. Modifiers make such actions of such actions, though several of them hand on another value
and rewrite the candidates. Only those that complete a word of a command line do not, since they
write the word anew. -/
namespace TabSpec

namespace Completion

/-- Every candidate begins with a text. -/
def Continues (completion : Completion) (typed : String) : Prop :=
  ∀ suggestion ∈ completion.suggestions, typed.toList <+: suggestion.value.toList

variable {completion : Completion} {typed : String}

/-- Filtering by a text drops nothing exactly when all candidates begin with it. -/
theorem filterPrefix_eq_self_iff :
    completion.filterPrefix typed = completion ↔ completion.Continues typed := by
  have suggestions : completion.filterPrefix typed = completion ↔
      (completion.suggestions.filter fun suggestion => Text.startsWith typed suggestion.value) =
        completion.suggestions := by
    obtain ⟨suggestions, messages, nospace, usage⟩ := completion
    simp [filterPrefix]
  rw [suggestions, List.filter_eq_self]
  exact forall₂_congr fun _ _ => Text.startsWith_iff

namespace Continues

theorem of_subset (continues : completion.Continues typed) {other : Completion}
    (subset : other.suggestions ⊆ completion.suggestions) : other.Continues typed :=
  fun suggestion member => continues suggestion (subset member)

theorem addNospace (continues : completion.Continues typed) (chars : String) :
    (completion.addNospace chars).Continues typed :=
  continues.of_subset (by rw [suggestions_addNospace]; exact List.Subset.refl _)

/-- What is changed or appended behind the value does not matter. -/
theorem mapSuggestions (continues : completion.Continues typed) {change : Suggestion → Suggestion}
    (behind : ∀ suggestion, suggestion.value.toList <+: (change suggestion).value.toList) :
    (completion.mapSuggestions change).Continues typed := by
  intro suggestion member
  obtain ⟨old, present, rfl⟩ := List.mem_map.mp member
  exact (continues old present).trans (behind old)

theorem prependValues (continues : completion.Continues typed) (front : String) :
    (completion.prependValues front).Continues (front ++ typed) := by
  intro suggestion member
  obtain ⟨old, present, rfl⟩ := List.mem_map.mp member
  simpa using continues old present

end Continues

theorem continues_ofMessage (message : String) : (ofMessage message).Continues typed := nofun

end Completion

namespace Action

/-! ### Segments of candidates -/

theorem Segments.eq_front_append_current (divider value : String) :
    value = (Segments.of divider value).front ++ (Segments.of divider value).current := by
  unfold Segments.of
  split
  · simp
  · split
    · simp
    · rename_i before current cut
      exact Text.eq_of_splitLast? cut

/-- The typed text reaches behind every divider in it. -/
theorem le_typedLength {dividers : List String} {divider : String} (member : divider ∈ dividers)
    (some : divider ≠ "") (front back : String) :
    (front ++ divider).length ≤ typedLength dividers (front ++ divider ++ back) := by
  generalize whole : front ++ divider ++ back = value
  have chars : value.toList = front.toList ++ divider.toList ++ back.toList := by
    simp [← whole]
  obtain ⟨before, rest, found, further⟩ :=
    Text.exists_lastCut?_append divider.toList front.toList back.toList
  have cut : Text.splitLast? divider value = .some (String.ofList before, String.ofList rest) := by
    rw [Text.splitLast?, chars, found]
    rfl
  have filled : dividers.isEmpty = false := by
    cases dividers with
    | nil => cases member
    | cons => rfl
  have listed : divider ∈ dividers.filter (· != "") := by simp [member, some]
  rw [typedLength, filled]
  generalize dividers.filter (· != "") = dividers at listed
  obtain ⟨earlier, later, rfl⟩ := List.append_of_mem listed
  simp only [Bool.false_eq_true, if_false, List.foldl_append, List.foldl_cons, cut]
  -- The dividers behind this one never shorten what it reaches.
  refine List.foldlRecOn (motive := fun longest => (front ++ divider).length ≤ longest) later _
    (Nat.le_trans ?_ (Nat.le_max_right ..)) fun longest reached other _ => ?_
  · simpa only [String.length_append, Nat.add_le_add_iff_right, String.length_ofList,
      String.length_toList] using further
  · split
    · exact Nat.le_trans reached (Nat.le_max_left ..)
    · exact reached

/-- The first segment behind the typed text is not shorter than what was typed of it. -/
theorem le_segmentLength {dividers : List String} {value more : String} {length : Nat}
    (found : segmentLength? dividers
      (String.ofList (value.toList.drop (typedLength dividers value)) ++ more) = some length) :
    value.toList.length - typedLength dividers value ≤ length := by
  refine Nat.le_of_not_lt fun short => ?_
  generalize typing : typedLength dividers value = typed at found short
  cases empty : dividers.isEmpty with
  | true =>
    have whole : typed = value.length := by simp [← typing, typedLength, empty]
    rw [String.length_toList] at short
    omega
  | false =>
    have inside := (List.mem_filter.mp (List.min?_mem found)).1
    simp only [empty, Bool.false_eq_true, if_false, List.mem_filterMap, List.mem_filter, bne_iff_ne,
      Option.map_eq_some_iff, Prod.exists] at inside
    obtain ⟨divider, ⟨listed, some⟩, before, back, cut, rfl⟩ := inside
    -- A segment that ends within the typed value ends with a divider behind the last one.
    have rest := congrArg String.toList (Text.eq_of_splitOnce? cut)
    simp only [String.toList_append, String.toList_ofList] at rest
    have front : before.toList ++ divider.toList <+: value.toList.drop typed := by
      refine List.prefix_of_prefix_length_le ⟨back.toList, rest.symm⟩ (List.prefix_append _ _) ?_
      simp only [List.length_append, List.length_drop, String.length_toList] at short ⊢
      omega
    obtain ⟨behind, current⟩ := front
    have whole : String.ofList (value.toList.take typed) ++ before ++ divider ++
        String.ofList behind = value := by
      apply String.toList_inj.mp
      have chars := List.take_append_drop typed value.toList
      rw [← current] at chars
      simpa using chars
    have further := le_typedLength listed some (String.ofList (value.toList.take typed) ++ before)
      (String.ofList behind)
    rw [whole, typing] at further
    have positive : 0 < divider.length := by
      simpa [Nat.pos_iff_ne_zero, String.length_eq_zero_iff] using some
    simp only [String.length_append, String.length_ofList, List.length_take] at further
    omega

/-- A segment of a candidate that begins with the typed value begins with it, too. -/
theorem prefix_of_segmentOf? {dividers : List String} {value : String}
    {suggestion segment : Suggestion} {more : Option Char}
    (continues : value.toList <+: suggestion.value.toList)
    (found : segmentOf? dividers (String.ofList (value.toList.take (typedLength dividers value)))
      suggestion = some (segment, more)) : value.toList <+: segment.value.toList := by
  simp only [segmentOf?, Option.bind_eq_bind, Option.bind_eq_some_iff] at found
  obtain ⟨rest, cut, found⟩ := found
  split at found
  · rename_i length ends
    obtain ⟨rfl, rfl⟩ := Prod.mk.inj (Option.some.inj found)
    obtain ⟨back, whole⟩ := continues
    have typed := List.take_append_drop (typedLength dividers value) value.toList
    have chars := congrArg String.toList (Text.eq_of_stripFront? cut)
    rw [← whole, ← congrArg (· ++ back) typed, String.toList_append, String.toList_ofList,
      List.append_assoc] at chars
    have behind : String.ofList (value.toList.drop (typedLength dividers value)) ++
        String.ofList back = rest := by
      apply String.toList_inj.mp
      simpa using List.append_cancel_left chars
    rw [← behind] at ends
    have long := le_segmentLength ends
    have segment : value.toList.drop (typedLength dividers value) <+: rest.toList.take length := by
      refine List.prefix_take_iff.mpr ⟨⟨back, List.append_cancel_left chars⟩, ?_⟩
      simpa using long
    have begun := (List.prefix_append_right_inj
      (value.toList.take (typedLength dividers value))).mpr segment
    rw [typed] at begun
    simpa using begun
  · obtain ⟨rfl, rfl⟩ := Prod.mk.inj (Option.some.inj found)
    exact continues

end Action

theorem Completion.Continues.toSegments {completion : Completion} {value : String}
    (continues : completion.Continues value) (dividers : List String) :
    (Action.toSegments dividers value completion).Continues value := by
  refine Action.toSegments_induction (motive := fun result => result.Continues value) dividers value
    nofun (fun _ chars kept => kept.addNospace chars) ?_
  intro result suggestion present segment more found kept added member
  simp only [addSuggestions_eq_gather] at member
  rcases mem_gather _ member with old | new
  · exact kept added old
  · rw [List.mem_singleton.mp new]
    exact Action.prefix_of_segmentOf? (continues suggestion present) found

namespace Action

/-- In every context, the candidates begin with the context's value. -/
def Sound (action : Action) : Prop := ∀ context, (action context).value.Continues context.value

namespace Sound

variable {action : Action} (sound : action.Sound)

include sound

theorem map {change : Context → Completion → Completion}
    (keeps : ∀ context completion, completion.Continues context.value →
      (change context completion).Continues context.value) : (action.map change).Sound :=
  fun context => keeps context _ (sound context)

/-- Asking in a changed context that has the same value. -/
theorem within {change : Context → Context}
    (same : ∀ context, (change context).value = context.value) :
    Sound fun context => action (change context) :=
  fun context => same context ▸ sound (change context)

theorem keep (wanted : Context → Suggestion → Bool) : (action.keep wanted).Sound :=
  sound.map fun _ _ continues => continues.of_subset List.filter_sublist.subset

theorem inDirectory (directory : Context → Except SpecFault String) :
    (action.inDirectory directory).Sound := by
  intro context
  unfold Action.inDirectory
  split
  · exact Completion.continues_ofMessage _
  · split
    · exact Completion.continues_ofMessage _
    · exact sound _
    · exact Completion.continues_ofMessage _

theorem withoutSpace (chars : String) : (action.withoutSpace chars).Sound :=
  sound.map fun _ _ continues => continues.addNospace _

/-- What stands before the segment under the cursor is put back. -/
theorem segmented (divider : String) : (action.segmented divider).Sound := by
  intro context
  have inner := sound { context with
    parts := (Segments.of divider context.value).parts
    value := (Segments.of divider context.value).current }
  have whole := inner.prependValues (Segments.of divider context.value).front
  rw [← Segments.eq_front_append_current] at whole
  unfold Action.segmented
  cases Text.last? divider with
  | none => exact whole
  | some last => exact whole.addNospace _

theorem entries (divider : String) : (action.entries divider).Sound := by
  have inner : Sound fun context => action { context with parts := [] } := sound.within fun _ => rfl
  exact (inner.segmented divider).withoutSpace "*"

theorem distinctEntries (divider : String) : (action.distinctEntries divider).Sound :=
  ((sound.keep _).segmented divider).withoutSpace "*"

theorem behind (front : String) : (action.behind front).Sound := by
  intro context
  unfold Action.behind
  dsimp only
  split
  · exact nofun
  · rename_i value typed
    have candidates := (sound { context with value }).prependValues front
    split at typed
    · rename_i rest cut
      rw [Text.eq_of_stripFront? cut, ← Option.some.inj typed]
      exact Option.some.inj typed ▸ candidates
    · split at typed
      · rename_i short
        intro suggestion member
        refine (Text.startsWith_iff.mp short).trans ?_
        have longer := candidates suggestion member
        rw [String.toList_append] at longer
        exact (List.prefix_append _ _).trans longer
      · cases typed

theorem suppress (pattern : String) : (Action.suppress pattern action).Sound := by
  unfold Action.suppress
  split
  · exact fun _ => Completion.continues_ofMessage _
  · exact sound.map fun _ _ continues => continues

theorem rewritten {change : Suggestion → Suggestion}
    (behind : ∀ suggestion, suggestion.value.toList <+: (change suggestion).value.toList) :
    (action.map fun _ completion => completion.mapSuggestions change).Sound :=
  sound.map fun _ _ continues => continues.mapSuggestions behind

theorem stepwise (dividers : List String) : (action.stepwise dividers).Sound :=
  sound.map fun _ _ continues => continues.toSegments dividers

end Sound

end Action

namespace Modifier

open TabSpec.Action

/-- Whether a modifier completes a word of a command line inside the value. -/
def EntersLine (modifier : Modifier) : Prop := modifier = .split ∨ modifier = .splitPipeline

/-- A call that names no modifier for words of a command line, whatever its placeholders are filled
with. It need not name a modifier at all. -/
def StaysOutside (call : String) : Prop :=
  ∀ (context : Context) (filled : String), context.substitute call = .ok filled →
    ∀ modifier, ofCall? filled = some modifier → ¬ modifier.EntersLine

/-- Substitution keeps an opening parenthesis in front. -/
theorem opens_of_expandChars {lookup : String → Option String} {argument filled : List Char}
    (opens : ∀ c ∈ argument.head?, c = '(')
    (fills : Substitution.expandChars lookup argument = some filled) :
    ∀ c ∈ filled.head?, c = '(' := by
  cases argument with
  | nil =>
    rw [Substitution.expandChars] at fills
    obtain rfl := Option.some.inj fills
    exact opens
  | cons c rest =>
    obtain rfl : c = '(' := opens c rfl
    have closed : ¬ ['$', '\x7b'] <+: '(' :: rest := fun opened =>
      absurd (List.cons_prefix_cons.mp opened).1 (by decide)
    rw [Substitution.expandChars_cons lookup closed] at fills
    obtain ⟨_, _, rfl⟩ := Option.map_eq_some_iff.mp fills
    simp

/-- The name of a modifier stays in front when what stands behind it is filled. -/
theorem ofCall?_of_substitute {modifier : Modifier} {context : Context} {argument filled : String}
    (opens : ∀ c ∈ argument.toList.head?, c = '(')
    (fills : context.substitute ("$" ++ modifier.name ++ argument) = .ok filled) :
    ofCall? filled = some modifier := by
  have closed : ¬ ['$', '\x7b'] <:+: ("$" ++ modifier.name).toList := by
    rw [← Text.firstCut?_eq_none_iff]
    cases modifier <;> decide
  have apart : argument.toList.head? ≠ some '\x7b' := fun brace =>
    absurd (opens _ brace) (by decide)
  have named : ∀ c ∈ ("$" ++ modifier.name).toList, (c != '(') = true := by
    apply List.all_eq_true.mp
    cases modifier <;> decide
  rw [Context.substitute, Substitution.expand, String.toList_append,
    Substitution.expandChars_append _ closed apart] at fills
  cases behind : Substitution.expandChars context.get? argument.toList with
  | none =>
    rw [behind] at fills
    cases fills
  | some rest =>
    rw [behind] at fills
    obtain rfl := Except.ok.inj fills
    have stops : ∀ c ∈ rest.head?, (c != '(') = false := by
      intro c first
      simp [opens_of_expandChars opens behind c first]
    have head : Call.head (String.ofList (("$" ++ modifier.name).toList ++ rest)) =
        "$" ++ modifier.name := by
      rw [Call.head, String.toList_ofList, (Text.takeWhile_dropWhile_append named stops).1,
        String.ofList_toList]
    rw [ofCall?, head]
    cases modifier <;> decide

/-- A call that is written with the name of another modifier stays outside, whatever its argument
holds. -/
theorem staysOutside_written (modifier : Modifier) (argument : String)
    (outside : ¬ modifier.EntersLine) (opens : ∀ c ∈ argument.toList.head?, c = '(') :
    StaysOutside ("$" ++ modifier.name ++ argument) := by
  intro context filled fills other named
  rw [ofCall?_of_substitute opens fills] at named
  exact Option.some.inj named ▸ outside

section

variable {action : Action} (sound : action.Sound)

include sound

theorem sound_of_changeDirectory {argument : String} {built : Action}
    (done : changeDirectory argument action = .ok built) : built.Sound := by
  unfold changeDirectory at done
  split at done
  · exact of_bind_eq_ok done fun _ => sound.inDirectory _
  · obtain rfl := Except.ok.inj done
    exact sound.inDirectory _

/-- Every modifier keeps actions sound that does not complete words of a command line. -/
theorem sound_of_apply {modifier : Modifier} (outside : ¬ modifier.EntersLine) {argument : String}
    {built : Action} (done : modifier.apply action argument = .ok built) : built.Sound := by
  cases modifier with
  | chdir => exact sound_of_changeDirectory sound done
  | filter => exact of_bind_eq_ok done fun _ => sound.keep _
  | filterArgs =>
    obtain rfl := Except.ok.inj done
    exact sound.keep _
  | list =>
    obtain rfl := Except.ok.inj done
    exact sound.entries argument
  | multiParts => exact of_bind_eq_ok done fun dividers => sound.stepwise dividers
  | noSpace =>
    obtain rfl := Except.ok.inj done
    exact sound.withoutSpace argument
  | prepend =>
    obtain rfl := Except.ok.inj done
    exact sound.behind argument
  | retain => exact of_bind_eq_ok done fun _ => sound.keep _
  | shift => exact of_bind_eq_ok done fun _ => sound.within fun _ => rfl
  | split => exact absurd (.inl rfl) outside
  | splitPipeline => exact absurd (.inr rfl) outside
  | append =>
    obtain rfl := Except.ok.inj done
    exact sound.rewritten fun _ => by simp
  | suppress =>
    obtain rfl := Except.ok.inj done
    exact sound.suppress argument
  | style =>
    obtain rfl := Except.ok.inj done
    exact sound.rewritten fun _ => List.prefix_rfl
  | tag =>
    obtain rfl := Except.ok.inj done
    exact sound.rewritten fun _ => List.prefix_rfl
  | uniqueList =>
    obtain rfl := Except.ok.inj done
    exact sound.distinctEntries argument
  | usage =>
    obtain rfl := Except.ok.inj done
    exact sound.map fun _ _ continues => continues

/-- A call layered on a sound action makes a sound action; one without meaning offers nothing. -/
theorem sound_modify {call : String} (outside : StaysOutside call) : (modify action call).Sound := by
  intro context
  unfold modify
  cases resolved : resolve action.withParts call context.exportParts with
  | error fault => exact Completion.continues_ofMessage _
  | ok modified =>
    obtain ⟨filled, fills, done⟩ := bind_eq_ok_iff.mp resolved
    split at done
    · cases done
    · rename_i modifier named
      obtain ⟨parts, _, applied⟩ := bind_eq_ok_iff.mp done
      have inner : action.withParts.Sound := sound.within Context.value_exportParts
      exact sound_of_apply inner (outside _ _ fills _ named) applied context

end

end Modifier

/-- Completion stays within what was typed: whatever modifiers are layered on a sound action, except
those for words of a command line, the candidates begin with the typed value, and filtering by it
drops nothing. -/
theorem Expression.sound_withModifiers {action : Action} (sound : action.Sound)
    {calls : List String} (outside : ∀ call ∈ calls, Modifier.StaysOutside call) :
    (withModifiers action calls).Sound ∧ ∀ context,
      (withModifiers action calls context).value.filterPrefix context.value =
        (withModifiers action calls context).value := by
  have layered : (withModifiers action calls).Sound := by
    induction calls generalizing action with
    | nil => exact sound
    | cons call rest ih =>
      obtain ⟨first, later⟩ := List.forall_mem_cons.mp outside
      exact ih (Modifier.sound_modify sound first) later
  exact ⟨layered, fun context => Completion.filterPrefix_eq_self_iff.mpr (layered context)⟩

namespace Sample

/-- The names in two directories that begin with the typed value. -/
def matching : Action :=
  Action.keep (fun context suggestion => Text.startsWith context.value suggestion.value)
    (.ofValues ["a/b", "a/c", "d/e"])

theorem sound_matching : matching.Sound := by
  intro context suggestion member
  exact Text.startsWith_iff.mp (List.mem_filter.mp member).2

/-- One segment of a name, as an entry of a list behind an option. -/
def nested : List String := ["$multiparts([/])", "$list(,)", "$prefix($\x7bC_ARG0\x7d)"]

/-- A second entry is typed behind the option. -/
def behindEntry : Context := { (default : Context) with args := ["-o"], value := "-ox,a" }

end Sample

theorem Expression.sound_withModifiers_sample :
    Sample.matching.Sound ∧ (∀ call ∈ Sample.nested, Modifier.StaysOutside call) ∧
    (withModifiers Sample.matching Sample.nested Sample.behindEntry).value.values = ["-ox,a/"] ∧
    (withModifiers Sample.matching Sample.nested Sample.behindEntry).value.filterPrefix "-ox,a" =
      (withModifiers Sample.matching Sample.nested Sample.behindEntry).value := by
  have outside : ∀ call ∈ Sample.nested, Modifier.StaysOutside call := by
    have stepwise : Modifier.StaysOutside "$multiparts([/])" :=
      Modifier.staysOutside_written .multiParts "([/])" nofun
        fun _ first => (Option.some.inj first).symm
    have listed : Modifier.StaysOutside "$list(,)" :=
      Modifier.staysOutside_written .list "(,)" nofun fun _ first => (Option.some.inj first).symm
    have behind : Modifier.StaysOutside "$prefix($\x7bC_ARG0\x7d)" :=
      Modifier.staysOutside_written .prepend "($\x7bC_ARG0\x7d)" nofun
        fun _ first => (Option.some.inj first).symm
    simp [Sample.nested, stepwise, listed, behind]
  have values : (withModifiers Sample.matching Sample.nested Sample.behindEntry).value.values =
      ["-ox,a/"] := by
    decide +kernel
  exact ⟨Sample.sound_matching, outside, values,
    (Expression.sound_withModifiers Sample.sound_matching outside).2 Sample.behindEntry⟩

end TabSpec

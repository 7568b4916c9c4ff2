import TabSpec.Modifier
import TabSpec.Proofs.Completion.Stable
import TabSpec.Proofs.Outcome

/-! Actions whose answers have a property of completions wherever no text holds NUL. Modifiers make
such actions of such actions when the property is one that nothing breaks that they do. -/
namespace TabSpec

namespace Action

/-- In every context without NUL, the answer has a property. -/
def Gives (machine : Machine) (holds : Completion → Prop) (action : Action) : Prop :=
  ∀ context, context.NulFree machine → holds (action context).value

section

variable {machine : Machine} {holds : Completion → Prop} {action : Action}

theorem gives_ofCompletion {completion : Completion} (kept : holds completion) :
    (ofCompletion completion).Gives machine holds := fun _ _ => kept

theorem Gives.map (gives : action.Gives machine holds)
    {change : Context → Completion → Completion}
    (keeps : ∀ context, context.NulFree machine → ∀ completion, holds completion →
      holds (change context completion)) : (action.map change).Gives machine holds :=
  fun context free => keeps context free _ (gives context free)

/-- Asking in a changed context. -/
theorem Gives.within (gives : action.Gives machine holds) {change : Context → Context}
    (keeps : ∀ context, context.NulFree machine → (change context).NulFree machine) :
    Gives machine holds fun context => action (change context) :=
  fun context free => gives _ (keeps context free)

theorem Gives.withParts (gives : action.Gives machine holds) :
    action.withParts.Gives machine holds :=
  gives.within fun _ free => free.exportParts

theorem Gives.shifted (gives : action.Gives machine holds) (count : Nat) :
    (action.shifted count).Gives machine holds :=
  gives.within fun _ free =>
    { free with args := fun arg member => free.args arg (List.mem_of_mem_drop member) }

end

section

variable {machine : Machine} {holds : Completion → Prop} (stable : Completion.Stable holds) {action : Action}

include stable

theorem Gives.inDirectory (gives : action.Gives machine holds)
    {directory : Context → Except SpecFault String}
    (found : ∀ context, context.NulFree machine → ∀ place, directory context = .ok place →
      Text.NulFree place) : (action.inDirectory directory).Gives machine holds := by
  intro context free
  unfold Action.inDirectory
  cases place : directory context with
  | error fault => exact stable.ofMessage _
  | ok place' =>
    dsimp only
    split
    · exact stable.ofMessage _
    · exact gives _ { free with directory := found context free _ place }
    · exact stable.ofMessage _

theorem Gives.keep (gives : action.Gives machine holds) (wanted : Context → Suggestion → Bool) :
    (action.keep wanted).Gives machine holds :=
  gives.map fun context _ _ kept => stable.filter (wanted context) kept

theorem Gives.withoutSpace (gives : action.Gives machine holds) (chars : String) :
    (action.withoutSpace chars).Gives machine holds :=
  gives.map fun _ _ _ kept => stable.addNospace _ kept

theorem Gives.segmented (gives : action.Gives machine holds) (divider : String) :
    (action.segmented divider).Gives machine holds := by
  intro context free
  have segments := Segments.nulFree_of divider free.value
  have inner : Context.NulFree machine { context with
      parts := (Segments.of divider context.value).parts
      value := (Segments.of divider context.value).current } :=
    { free with parts := segments.parts, value := segments.current }
  have kept := stable.prependValues segments.front (gives _ inner)
  unfold Action.segmented
  cases Text.last? divider with
  | none => exact kept
  | some last => exact stable.addNospace _ kept

theorem Gives.entries (gives : action.Gives machine holds) (divider : String) :
    (action.entries divider).Gives machine holds := by
  have inner : Gives machine holds fun context => action { context with parts := [] } :=
    gives.within fun _ free => { free with parts := by simp }
  exact (inner.segmented stable divider).withoutSpace stable "*"

theorem Gives.distinctEntries (gives : action.Gives machine holds) (divider : String) :
    (action.distinctEntries divider).Gives machine holds :=
  ((gives.keep stable _).segmented stable divider).withoutSpace stable "*"

theorem Gives.behind (gives : action.Gives machine holds) {front : String}
    (frontFree : Text.NulFree front) : (action.behind front).Gives machine holds := by
  intro context free
  unfold Action.behind
  dsimp only
  split
  · exact stable.empty
  · rename_i value typed
    have valueFree : Text.NulFree value := by
      split at typed
      · rename_i rest cut
        have whole := free.value
        rw [Text.eq_of_stripFront? cut, Text.nulFree_append] at whole
        exact Option.some.inj typed ▸ whole.2
      · split at typed
        · exact Option.some.inj typed ▸ by decide
        · cases typed
    exact stable.prependValues frontFree (gives _ { free with value := valueFree })

theorem Gives.followedBy (gives : action.Gives machine holds) {back : String}
    (backFree : Text.NulFree back) : (action.followedBy back).Gives machine holds :=
  gives.map fun _ _ _ kept => stable.appendValues backFree kept

theorem Gives.restyled (gives : action.Gives machine holds) {change : Suggestion → Suggestion}
    (same : ∀ suggestion, (change suggestion).value = suggestion.value) :
    (action.map fun _ completion => completion.mapSuggestions change).Gives machine holds :=
  gives.map fun _ _ _ kept => stable.restyle same kept

theorem Gives.suppress (gives : action.Gives machine holds) (pattern : String) :
    (Action.suppress pattern action).Gives machine holds := by
  unfold Action.suppress
  split
  · exact gives_ofCompletion (stable.ofMessage _)
  · exact gives.map fun _ _ completion kept => stable.beside _ completion.usage kept

theorem Gives.stepwise (gives : action.Gives machine holds) (dividers : List String) :
    (action.stepwise dividers).Gives machine holds :=
  gives.map fun _ _ _ kept => stable.toSegments dividers _ kept

theorem Gives.words (gives : action.Gives machine holds) (lastCommand : Bool) :
    (action.words lastCommand).Gives machine holds := by
  intro context free
  unfold Action.words
  dsimp only
  split
  · exact stable.empty
  · rename_i token last
    have tokens : ∀ token ∈ (if lastCommand then
        WordToken.lastCommand (WordToken.tokens context.value.toList)
        else WordToken.tokens context.value.toList).filter WordToken.isWord,
        token.IsFrom context.value.toList := by
      intro token member
      have listed := (List.mem_filter.mp member).1
      split at listed
      · exact WordToken.isFrom_of_mem_tokens (WordToken.lastCommand_subset _ listed)
      · exact WordToken.isFrom_of_mem_tokens listed
    have text {token : WordToken} (taken : token.IsFrom context.value.toList) :
        Text.NulFree (String.ofList token.text) :=
      free.value.of_subset (by simpa using taken.text)
    have front : Text.NulFree (String.ofList (context.value.toList.take token.start)) :=
      free.value.of_subset (by simpa using List.take_subset _ _)
    have taken := tokens token (List.mem_of_getLast? last)
    refine stable.intoLine front taken (gives _ { free with
      args := ?_, parts := by simp, value := text taken })
    intro arg member
    obtain ⟨word, before, rfl⟩ := List.mem_map.mp member
    exact text (tokens word (List.dropLast_subset _ before))

end

end Action

namespace Modifier

open TabSpec.Action

variable {machine : Machine} {holds : Completion → Prop}

section

variable (stable : Completion.Stable holds) {action : Action} (gives : action.Gives machine holds)

include stable gives

theorem gives_of_changeDirectory {argument : String} {built : Action}
    (free : Text.NulFree argument) (done : changeDirectory argument action = .ok built) :
    built.Gives machine holds := by
  unfold changeDirectory at done
  split at done
  · refine of_bind_eq_ok done fun traversal => gives.inDirectory stable ?_
    intro context contextFree place found
    cases looked : traversal.resolve context with
    | error fault =>
      rw [looked] at found
      cases found
    | ok directory =>
      rw [looked] at found
      obtain rfl := Except.ok.inj found
      exact Traversal.nulFree_of_resolve contextFree looked
  · obtain rfl := Except.ok.inj done
    refine gives.inDirectory stable ?_
    intro context contextFree place found
    obtain rfl := Except.ok.inj found
    exact contextFree.resolve free

/-- No modifier breaks the property, whatever argument without NUL it is given. -/
theorem gives_of_apply {modifier : Modifier} {argument : String} {built : Action}
    (free : Text.NulFree argument) (done : modifier.apply action argument = .ok built) :
    built.Gives machine holds := by
  cases modifier with
  | chdir => exact gives_of_changeDirectory stable gives free done
  | filter => exact of_bind_eq_ok done fun _ => gives.keep stable _
  | filterArgs =>
    obtain rfl := Except.ok.inj done
    exact gives.keep stable _
  | list =>
    obtain rfl := Except.ok.inj done
    exact gives.entries stable argument
  | multiParts => exact of_bind_eq_ok done fun dividers => gives.stepwise stable dividers
  | noSpace =>
    obtain rfl := Except.ok.inj done
    exact gives.withoutSpace stable argument
  | prepend =>
    obtain rfl := Except.ok.inj done
    exact gives.behind stable free
  | retain => exact of_bind_eq_ok done fun _ => gives.keep stable _
  | shift => exact of_bind_eq_ok done fun count => gives.shifted count.toNat
  | split =>
    obtain rfl := Except.ok.inj done
    exact gives.words stable false
  | splitPipeline =>
    obtain rfl := Except.ok.inj done
    exact gives.words stable true
  | append =>
    obtain rfl := Except.ok.inj done
    exact gives.followedBy stable free
  | suppress =>
    obtain rfl := Except.ok.inj done
    exact gives.suppress stable argument
  | style =>
    obtain rfl := Except.ok.inj done
    exact gives.restyled stable fun _ => rfl
  | tag =>
    obtain rfl := Except.ok.inj done
    exact gives.restyled stable fun _ => rfl
  | uniqueList =>
    obtain rfl := Except.ok.inj done
    exact gives.distinctEntries stable argument
  | usage =>
    obtain rfl := Except.ok.inj done
    exact gives.map fun _ _ completion kept => stable.beside completion.messages argument kept

theorem gives_of_resolve {call : String} {context : Context} {built : Action}
    (contextFree : context.NulFree machine) (free : Text.NulFree call)
    (done : resolve action call context = .ok built) : built.Gives machine holds := by
  obtain ⟨filled, fills, done⟩ := bind_eq_ok_iff.mp done
  have filledFree := contextFree.substitute free fills
  split at done
  · cases done
  · obtain ⟨parts, read, applied⟩ := bind_eq_ok_iff.mp done
    exact gives_of_apply stable gives (Call.nulFree_of_parse filledFree read) applied

/-- A call layered on an action does not break the property; one without meaning leaves a message,
which has it. -/
theorem gives_modify {call : String} (free : Text.NulFree call) :
    (modify action call).Gives machine holds := by
  intro context contextFree
  unfold modify
  cases resolved : resolve action.withParts call context.exportParts with
  | error fault => exact stable.ofMessage _
  | ok modified =>
    exact gives_of_resolve stable gives.withParts contextFree.exportParts free resolved context
      contextFree

end

end Modifier

end TabSpec

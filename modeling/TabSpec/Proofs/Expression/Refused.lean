import TabSpec.Proofs.Action.WordTexts
import TabSpec.Proofs.Completion.Normal
import TabSpec.Proofs.Expression.ExportedParts
import TabSpec.Proofs.Outcome
import TabSpec.Proofs.Substitution

/-! Bare modifiers that cannot be applied. Where a call is refused, its fault is the answer in place
of all that lies below the call, so a list with such an element offers nothing, whatever its other
elements would offer. What is said of it passes through the modifiers above. -/
namespace TabSpec

namespace Completion

/-- Nothing is offered, and the messages are of a kind. -/
structure OnlySays (said : List String → Prop) (completion : Completion) : Prop where
  suggestions : completion.suggestions = []
  messages : said completion.messages

namespace OnlySays

variable {said : List String → Prop} {completion : Completion} (only : completion.OnlySays said)

include only

theorem addNospace (chars : String) : (completion.addNospace chars).OnlySays said :=
  ⟨by rw [suggestions_addNospace, only.suggestions],
    by rw [messages_addNospace]; exact only.messages⟩

theorem mapSuggestions (change : Suggestion → Suggestion) :
    (completion.mapSuggestions change).OnlySays said :=
  ⟨by simp [Completion.mapSuggestions, only.suggestions], only.messages⟩

theorem filter (wanted : Suggestion → Bool) :
    OnlySays said { completion with suggestions := completion.suggestions.filter wanted } :=
  ⟨by simp [only.suggestions], only.messages⟩

/-- Where there is no candidate there is no segment of one. -/
theorem toSegments (dividers : List String) (value : String) :
    (Action.toSegments dividers value completion).OnlySays said := by
  refine Action.toSegments_induction (motive := fun result => result.OnlySays said) dividers value
    ⟨rfl, only.messages⟩ (fun _ chars kept => kept.addNospace chars) ?_
  intro _ suggestion member
  rw [only.suggestions] at member
  cases member

end OnlySays

end Completion

namespace Action

/-- In every context, nothing is offered and the messages are of a kind. -/
def OnlySays (said : List String → Prop) (action : Action) : Prop :=
  ∀ context, (action context).value.OnlySays said

namespace OnlySays

variable {said : List String → Prop} {action : Action} (only : action.OnlySays said)

include only

theorem map {change : Context → Completion → Completion}
    (keeps : ∀ context completion, completion.OnlySays said →
      (change context completion).OnlySays said) : (action.map change).OnlySays said :=
  fun context => keeps context _ (only context)

theorem keep (wanted : Context → Suggestion → Bool) : (action.keep wanted).OnlySays said :=
  only.map fun context _ kept => kept.filter (wanted context)

theorem rewritten (change : Suggestion → Suggestion) :
    (action.map fun _ completion => completion.mapSuggestions change).OnlySays said :=
  only.map fun _ _ kept => kept.mapSuggestions change

theorem within (change : Context → Context) : OnlySays said fun context => action (change context) :=
  fun context => only (change context)

theorem withoutSpace (chars : String) : (action.withoutSpace chars).OnlySays said :=
  only.map fun _ _ kept => kept.addNospace _

theorem segmented (divider : String) : (action.segmented divider).OnlySays said := by
  intro context
  have inner := (only { context with
    parts := (Segments.of divider context.value).parts
    value := (Segments.of divider context.value).current }).mapSuggestions fun suggestion =>
      { suggestion with value := (Segments.of divider context.value).front ++ suggestion.value }
  unfold Action.segmented
  cases Text.last? divider with
  | none => exact inner
  | some last => exact inner.addNospace _

theorem entries (divider : String) : (action.entries divider).OnlySays said :=
  ((only.within _).segmented divider).withoutSpace "*"

theorem distinctEntries (divider : String) : (action.distinctEntries divider).OnlySays said :=
  ((only.keep _).segmented divider).withoutSpace "*"

/-- Since there is always a word under the cursor, the action is always asked. -/
theorem words (lastCommand : Bool) : (action.words lastCommand).OnlySays said := by
  intro context
  obtain ⟨earlier, token, cut⟩ := WordToken.exists_filter_isWord context.value.toList lastCommand
  unfold Action.words
  simp only [cut, List.getLast?_concat]
  exact ⟨((only _).mapSuggestions _).suggestions, (only _).messages⟩

section

-- Some modifiers answer by themselves or drop messages, so that anything may be said.
variable (any : ∀ messages, said messages)

include any

theorem inDirectory (directory : Context → Except SpecFault String) :
    (action.inDirectory directory).OnlySays said := by
  intro context
  unfold Action.inDirectory
  split
  · exact ⟨rfl, any _⟩
  · split
    · exact ⟨rfl, any _⟩
    · exact only _
    · exact ⟨rfl, any _⟩

theorem behind (front : String) : (action.behind front).OnlySays said := by
  intro context
  unfold Action.behind
  dsimp only
  split
  · exact ⟨rfl, any _⟩
  · exact (only _).mapSuggestions _

theorem suppress (pattern : String) : (Action.suppress pattern action).OnlySays said := by
  unfold Action.suppress
  split
  · exact fun _ => ⟨rfl, any _⟩
  · exact only.map fun _ _ kept => ⟨kept.suggestions, any _⟩

end

end OnlySays

end Action

namespace Modifier

open TabSpec.Action

/-- A call that cannot be applied in a context, whatever the action is, and why. -/
def Refused (context : Context) (call : String) (fault : SpecFault) : Prop :=
  ∀ action, resolve action call context.exportParts = .error fault

/-- A call that names a modifier is refused when it is malformed or when its argument is. -/
theorem refused_iff {context : Context} {call filled : String} {modifier : Modifier}
    {fault : SpecFault} (fills : context.exportParts.substitute call = .ok filled)
    (named : ofCall? filled = some modifier) :
    Refused context call fault ↔ Call.parse filled = .error fault ∨
      ∃ name argument, Call.parse filled = .ok (name, argument) ∧
        ∀ action, modifier.apply action argument = .error fault := by
  have steps (action : Action) : resolve action call context.exportParts =
      Call.parse filled >>= fun parts => modifier.apply action parts.2 := by
    rw [resolve, fills]
    simp only [bind, Except.bind, named]
  simp only [Refused, steps]
  cases Call.parse filled with
  | error other => simp [bind, Except.bind]
  | ok parts =>
    obtain ⟨name, argument⟩ := parts
    simp only [bind, Except.bind, reduceCtorEq, false_or]
    constructor
    · exact fun undecoded => ⟨name, argument, rfl, undecoded⟩
    · rintro ⟨_, _, same, undecoded⟩
      obtain ⟨rfl, rfl⟩ := Prod.mk.inj (Except.ok.inj same)
      exact undecoded

/-- The fault stands in place of all that lies below. -/
theorem modify_of_refused {context : Context} {call : String} {fault : SpecFault}
    (refused : Refused context call fault) (action : Action) :
    modify action call context = Action.ofMessage fault.message context := by
  simp only [modify, refused action.withParts]
  rfl

/-- Modifiers that always ask the action below them and drop none of its messages. -/
def PassesMessages (modifier : Modifier) : Prop :=
  modifier ≠ .chdir ∧ modifier ≠ .prepend ∧ modifier ≠ .suppress

/-- A call that is applied in every context, as a modifier that passes messages on. -/
def Forwards (call : String) : Prop :=
  ∀ context action, ∃ filled modifier modified, context.substitute call = .ok filled ∧
    ofCall? filled = some modifier ∧ modifier.PassesMessages ∧
    resolve action call context = .ok modified

section

variable {said : List String → Prop} {action : Action} (only : action.OnlySays said)

include only

theorem onlySays_of_changeDirectory (any : ∀ messages, said messages) {argument : String}
    {built : Action} (done : changeDirectory argument action = .ok built) : built.OnlySays said := by
  unfold changeDirectory at done
  split at done
  · exact of_bind_eq_ok done fun _ => only.inDirectory any _
  · obtain rfl := Except.ok.inj done
    exact only.inDirectory any _

/-- No modifier offers anything by itself, and most pass on what is said. -/
theorem onlySays_of_apply {modifier : Modifier}
    (allowed : modifier.PassesMessages ∨ ∀ messages, said messages) {argument : String}
    {built : Action} (done : modifier.apply action argument = .ok built) : built.OnlySays said := by
  cases modifier with
  | chdir =>
    exact onlySays_of_changeDirectory only (allowed.resolve_left fun passes => passes.1 rfl) done
  | filter => exact of_bind_eq_ok done fun _ => only.keep _
  | filterArgs =>
    obtain rfl := Except.ok.inj done
    exact only.keep _
  | list =>
    obtain rfl := Except.ok.inj done
    exact only.entries argument
  | multiParts => exact of_bind_eq_ok done fun dividers => only.map fun _ _ kept => kept.toSegments ..
  | noSpace =>
    obtain rfl := Except.ok.inj done
    exact only.withoutSpace argument
  | prepend =>
    obtain rfl := Except.ok.inj done
    exact only.behind (allowed.resolve_left fun passes => passes.2.1 rfl) argument
  | retain => exact of_bind_eq_ok done fun _ => only.keep _
  | shift => exact of_bind_eq_ok done fun _ => only.within _
  | split =>
    obtain rfl := Except.ok.inj done
    exact only.words false
  | splitPipeline =>
    obtain rfl := Except.ok.inj done
    exact only.words true
  | append =>
    obtain rfl := Except.ok.inj done
    exact only.rewritten _
  | suppress =>
    obtain rfl := Except.ok.inj done
    exact only.suppress (allowed.resolve_left fun passes => passes.2.2 rfl) argument
  | style =>
    obtain rfl := Except.ok.inj done
    exact only.rewritten _
  | tag =>
    obtain rfl := Except.ok.inj done
    exact only.rewritten _
  | uniqueList =>
    obtain rfl := Except.ok.inj done
    exact only.distinctEntries argument
  | usage =>
    obtain rfl := Except.ok.inj done
    exact only.map fun _ _ kept => ⟨kept.suggestions, kept.messages⟩

/-- A call that is refused only says so. -/
theorem onlySays_modify {call : String}
    (allowed : Forwards call ∨ ∀ messages, said messages) : (modify action call).OnlySays said := by
  intro context
  unfold modify
  cases resolved : resolve action.withParts call context.exportParts with
  | error fault =>
    refine ⟨rfl, allowed.resolve_left (fun forwards => ?_) _⟩
    obtain ⟨_, _, _, -, -, -, applied⟩ := forwards context.exportParts action.withParts
    rw [resolved] at applied
    cases applied
  | ok modified =>
    obtain ⟨filled, fills, done⟩ := bind_eq_ok_iff.mp resolved
    split at done
    · cases done
    · rename_i modifier named
      obtain ⟨parts, _, applied⟩ := bind_eq_ok_iff.mp done
      refine onlySays_of_apply (only.within _) (allowed.imp_left fun forwards => ?_) applied context
      obtain ⟨_, _, _, same, other, passes, -⟩ := forwards context.exportParts action.withParts
      obtain rfl := Except.ok.inj (fills.symm.trans same)
      exact Option.some.inj (named.symm.trans other) ▸ passes

end

end Modifier

namespace Expression

open TabSpec.Action Modifier

/-- Nothing is offered through a chain of modifiers where nothing is offered below it. -/
theorem onlySays_withModifiers {said : List String → Prop} {action : Action}
    (only : action.OnlySays said) {calls : List String}
    (allowed : (∀ call ∈ calls, Forwards call) ∨ ∀ messages, said messages) :
    (withModifiers action calls).OnlySays said := by
  induction calls generalizing action with
  | nil => exact only
  | cons call rest ih =>
    rw [List.forall_mem_cons] at allowed
    exact ih (onlySays_modify only (allowed.imp_left And.left)) (allowed.imp_left And.right)

/-- What lies below a call that is refused is never asked. -/
theorem withModifiers_of_refused {context : Context} {call : String} {fault : SpecFault}
    {above : List String} (refused : ∀ inner, Invokes (withModifiers · above) context inner →
      Refused inner call fault) {below : List String} (action : Action) :
    withModifiers action (below ++ call :: above) context =
      withModifiers (.ofMessage fault.message) above context := by
  rw [withModifiers, List.foldl_append, List.foldl_cons]
  refine (layer_withModifiers above context).eq_of_invokes fun inner invoked => ?_
  exact modify_of_refused (refused inner invoked) _

/-- The calls above a call of an element: those behind it and those of the later elements. -/
def callsAbove (context : Context) (later after : List String) : List String :=
  later ++ (after.map (Element.of context)).flatMap Element.calls

/-- A bare modifier that cannot be applied takes the place of its list, wherever it stands: its fault
is what the modifiers above it are layered on. So the list offers nothing, and it says the fault
alone when all of them are applied and pass messages on. -/
theorem evaluate_refused (registry : Registry) (nested : SpecTarget → Action) {context : Context}
    (before after : List String) {earlier later : List String} {text call : String}
    {fault : SpecFault}
    (element : Element.of context.exportArguments text = .wrappers (earlier ++ call :: later))
    (refused : ∀ inner,
      Invokes (withModifiers · (callsAbove context.exportArguments later after))
        context.exportArguments inner → Refused inner call fault) :
    evaluate registry nested (before ++ text :: after) context =
      withModifiers (.ofMessage fault.message) (callsAbove context.exportArguments later after)
        context.exportArguments ∧
    (evaluate registry nested (before ++ text :: after) context).value.suggestions = [] ∧
    ((∀ other ∈ callsAbove context.exportArguments later after, Forwards other) →
      (evaluate registry nested (before ++ text :: after) context).value.messages =
        [fault.message]) := by
  have replaced : evaluate registry nested (before ++ text :: after) context =
      withModifiers (.ofMessage fault.message) (callsAbove context.exportArguments later after)
        context.exportArguments := by
    have calls : ((before ++ text :: after).map (Element.of context.exportArguments)).flatMap
        Element.calls = ((before.map (Element.of context.exportArguments)).flatMap Element.calls ++
          earlier) ++ call :: callsAbove context.exportArguments later after := by
      simp [element, Element.calls, callsAbove]
    rw [evaluate, combine, calls]
    exact withModifiers_of_refused refused _
  have silent (said : List String → Prop) (start : said [fault.message])
      (allowed : (∀ other ∈ callsAbove context.exportArguments later after, Forwards other) ∨
        ∀ messages, said messages) :
      (withModifiers (.ofMessage fault.message) (callsAbove context.exportArguments later after)
        context.exportArguments).value.OnlySays said := by
    have message : Action.OnlySays said (.ofMessage fault.message) := fun _ => ⟨rfl, start⟩
    exact onlySays_withModifiers message allowed _
  rw [replaced]
  exact ⟨rfl, (silent (fun _ => True) trivial (.inr fun _ => trivial)).suggestions,
    fun forwards => (silent (· = [fault.message]) rfl (.inl forwards)).messages⟩

namespace Sample

/-- A number of arguments that is none, between literals and a modifier that is applied. -/
def shiftedByX : List String := ["one", "two"] ++ "$shift(x)" :: ["$nospace(/)"]

end Sample

/-- Below the modifier that is applied, only the fault is left. -/
theorem evaluate_refused_sample :
    Element.of Sample.behindX.exportArguments "$shift(x)" = .wrappers ([] ++ "$shift(x)" :: []) ∧
    (∀ inner, Refused inner "$shift(x)" (.argument "x" "0" .notDecodable)) ∧
    callsAbove Sample.behindX.exportArguments [] ["$nospace(/)"] = ["$nospace(/)"] ∧
    Forwards "$nospace(/)" ∧
    (Sample.evaluated Sample.shiftedByX).suggestions = [] ∧
    (Sample.evaluated Sample.shiftedByX).messages =
      [(SpecFault.argument "x" "0" .notDecodable).message] := by
  have element : Element.of Sample.behindX.exportArguments "$shift(x)" =
      .wrappers ([] ++ "$shift(x)" :: []) := by
    decide +kernel
  have refused (inner : Context) : Refused inner "$shift(x)" (.argument "x" "0" .notDecodable) := by
    have fills : inner.exportParts.substitute "$shift(x)" = .ok "$shift(x)" :=
      Substitution.expand_of_closed _ (by decide)
    have named : ofCall? "$shift(x)" = some .shift := by decide
    exact (refused_iff fills named).mpr (.inr ⟨"shift", "x", rfl, fun _ => rfl⟩)
  have above : callsAbove Sample.behindX.exportArguments [] ["$nospace(/)"] = ["$nospace(/)"] := by
    decide +kernel
  have forwards : Forwards "$nospace(/)" := by
    intro context action
    have fills : context.substitute "$nospace(/)" = .ok "$nospace(/)" :=
      Substitution.expand_of_closed _ (by decide)
    refine ⟨_, .noSpace, action.withoutSpace "/", fills, by decide, ⟨nofun, nofun, nofun⟩, ?_⟩
    rw [Modifier.resolve, fills]
    rfl
  obtain ⟨-, suggestions, messages⟩ := evaluate_refused (.empty "tool") (fun _ => .ofValues [])
    ["one", "two"] ["$nospace(/)"] element fun inner _ => refused inner
  refine ⟨element, refused, above, forwards, suggestions, messages ?_⟩
  rw [above, List.forall_mem_singleton]
  exact forwards

/-- Two literals are offered, and with a bare modifier whose call is malformed none of them. -/
theorem refused_drops_siblings :
    (∀ inner, Refused inner "$filter(a" (.malformedCall "$filter(a")) ∧
    Modifier.ofCall? "$filter(a" = some .filter ∧
    Element.of Sample.behindX.exportArguments "$filter(a" = .wrappers ["$filter(a"] ∧
    (Sample.evaluated ["one", "two"]).values = ["one", "two"] ∧
    Sample.evaluated ["one", "two", "$filter(a"] =
      .ofMessage (SpecFault.malformedCall "$filter(a").message := by
  have named : Modifier.ofCall? "$filter(a" = some .filter := by decide
  refine ⟨fun inner => ?_, named, by decide +kernel, by decide +kernel, by decide +kernel⟩
  have fills : inner.exportParts.substitute "$filter(a" = .ok "$filter(a" :=
    Substitution.expand_of_closed _ (by decide)
  exact (refused_iff fills named).mpr (.inl rfl)

end Expression
end TabSpec

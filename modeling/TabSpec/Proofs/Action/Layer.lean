import TabSpec.Modifier
import TabSpec.Proofs.Completion.Offer
import TabSpec.Proofs.Walk.Exported

/-! Modifiers as layers. Whatever a modifier does, in a given context it either answers by itself or
asks the action below it in one other context with the same variables and changes the answer, and
the change never lets messages influence what is offered. What the action below records, and whether
it was cut off, stays as it is. -/
namespace TabSpec

open Completion

/-- Contexts that see the same variables, those of the machine and their own. -/
structure Context.SameVariables (inner outer : Context) : Prop where
  machine : inner.machine = outer.machine
  bindings : inner.bindings = outer.bindings

theorem Context.SameVariables.trans {first second third : Context}
    (same : first.SameVariables second) (next : second.SameVariables third) :
    first.SameVariables third :=
  ⟨same.machine.trans next.machine, same.bindings.trans next.bindings⟩

/-- What is read off an action in one go: a fixed completion, or the changed answer of the action in
one context within reach. -/
inductive Layer (reached : Context → Prop) (read : Action → Traced Completion) : Prop where
  | answers (answer : Completion) (told : ∀ action, read action = pure answer)
  | asks (inner : Context) (place : reached inner) (change : Completion → Completion)
      (quiet : Quiet change) (told : ∀ action, read action = change <$> action inner)

namespace Layer

variable {reached further : Context → Prop} {read : Action → Traced Completion}

theorem ask {context : Context} (place : reached context) :
    Layer reached fun action => action context :=
  .asks context place id quiet_id fun action => (id_map (action context)).symm

theorem widen (layer : Layer reached read) (wider : ∀ inner, reached inner → further inner) :
    Layer further read := by
  cases layer with
  | answers answer told => exact .answers answer told
  | asks inner place change quiet told => exact .asks inner (wider inner place) change quiet told

/-- A quiet change may be made on top of a layer. -/
theorem changed (layer : Layer reached read) {change : Completion → Completion}
    (quiet : Quiet change) : Layer reached fun action => change <$> read action := by
  cases layer with
  | answers answer told =>
    refine .answers (change answer) fun action => ?_
    rw [told, map_pure]
  | asks inner place first firstQuiet told =>
    refine .asks inner place (change ∘ first) ?_ fun action => ?_
    · intro one other same
      exact quiet _ _ (firstQuiet _ _ same)
    · rw [told, comp_map]

/-- Layers may be put under a layer, in all contexts that it reaches. -/
theorem above (layer : Layer reached read) {under : Action → Action}
    (layers : ∀ context, reached context → Layer further fun action => under action context) :
    Layer further fun action => read (under action) := by
  cases layer with
  | answers answer told => exact .answers answer fun action => told (under action)
  | asks inner place change quiet told =>
    cases (layers inner place).changed quiet with
    | answers answer deeperTold =>
      exact .answers answer fun action => (told (under action)).trans (deeperTold action)
    | asks inner' place' change' quiet' deeperTold =>
      exact .asks inner' place' change' quiet' fun action =>
        (told (under action)).trans (deeperTold action)

/-- Actions that offer the same everywhere offer the same under a layer. -/
theorem sameOffer (layer : Layer reached read) {first second : Action}
    (same : ∀ context, SameOffer (first context).value (second context).value) :
    SameOffer (read first).value (read second).value := by
  cases layer with
  | answers answer told =>
    rw [told first, told second]
    exact .rfl
  | asks inner place change quiet told =>
    rw [told first, told second, Traced.map_eq, Traced.map_eq]
    exact quiet _ _ (same inner)

end Layer

namespace Completion

/-- Reducing candidates to segments looks at nothing but the offer. -/
theorem quiet_toSegments (dividers : List String) (value : String) :
    Quiet (Action.toSegments dividers value) := by
  intro first second same
  unfold Action.toSegments
  rw [same.suggestions]
  refine SameOffer.foldl ?_ ?_ _
  · intro first second segment same
    obtain ⟨suggestion, more⟩ := segment
    cases more with
    | none =>
      exact ⟨congrArg (addSuggestions · [suggestion]) same.suggestions, same.nospace, same.usage⟩
    | some c =>
      have spaced := same.addNospace (String.ofList [c])
      exact ⟨congrArg (addSuggestions · [suggestion]) spaced.suggestions, spaced.nospace,
        spaced.usage⟩
  · exact ⟨rfl, same.nospace, same.usage⟩

/-- Whether a candidate is followed by a space is part of the offer. -/
theorem quiet_intoLine (front : String) (token : WordToken) :
    Quiet (Action.intoLine front token) := by
  intro first second same
  have spaces : first.suppressesSpace = second.suppressesSpace := by
    funext value
    simp only [suppressesSpace, same.nospace]
  unfold Action.intoLine
  rw [spaces]
  refine ⟨?_, rfl, same.usage⟩
  simp only [Completion.mapSuggestions, same.suggestions]

end Completion

namespace Action

/-- A function on actions that is a layer in every context and keeps the variables. -/
def IsLayer (layer : Action → Action) : Prop :=
  ∀ context, Layer (·.SameVariables context) fun action => layer action context

theorem IsLayer.comp {outer inner : Action → Action} (above : IsLayer outer)
    (below : IsLayer inner) : IsLayer fun action => outer (inner action) := fun context =>
  (above context).above fun middle place =>
    (below middle).widen fun _ same => same.trans place

theorem isLayer_const (answer : Completion) : IsLayer fun _ => ofCompletion answer :=
  fun _ => .answers answer fun _ => rfl

theorem isLayer_map {change : Context → Completion → Completion}
    (quiet : ∀ context, Quiet (change context)) : IsLayer (map change) :=
  fun context => (Layer.ask ⟨rfl, rfl⟩).changed (quiet context)

theorem isLayer_keep (wanted : Context → Suggestion → Bool) : IsLayer (keep wanted) :=
  isLayer_map fun context => quiet_filter (wanted context)

/-- Asking in a changed context is a layer. -/
theorem isLayer_within {change : Context → Context}
    (place : ∀ context, (change context).SameVariables context) :
    IsLayer fun action context => action (change context) :=
  fun context => .ask (place context)

theorem isLayer_inDirectory (directory : Context → Except SpecFault String) :
    IsLayer (inDirectory directory) := by
  intro context
  unfold inDirectory
  cases directory context with
  | error fault => exact .answers _ fun _ => rfl
  | ok directory =>
    dsimp only
    split
    · exact .answers _ fun _ => rfl
    · exact .ask ⟨rfl, rfl⟩
    · exact .answers _ fun _ => rfl

theorem isLayer_withoutSpace (chars : String) : IsLayer (withoutSpace chars) :=
  isLayer_map fun _ => quiet_addNospace _

theorem isLayer_segmented (divider : String) : IsLayer (segmented divider) := by
  intro context
  have inner : Layer (·.SameVariables context) fun action => action { context with
      parts := (Segments.of divider context.value).parts
      value := (Segments.of divider context.value).current } :=
    .ask ⟨rfl, rfl⟩
  have front := quiet_prependValues (Segments.of divider context.value).front
  cases ends : Text.last? divider with
  | none =>
    simp only [segmented, ends]
    exact inner.changed front
  | some last =>
    simp only [segmented, ends]
    exact inner.changed fun first second same =>
      quiet_addNospace (String.ofList [last]) _ _ (front first second same)

theorem isLayer_entries (divider : String) : IsLayer (entries divider) :=
  (isLayer_withoutSpace "*").comp
    ((isLayer_segmented divider).comp (isLayer_within fun _ => ⟨rfl, rfl⟩))

theorem isLayer_distinctEntries (divider : String) : IsLayer (distinctEntries divider) :=
  (isLayer_withoutSpace "*").comp ((isLayer_segmented divider).comp (isLayer_keep _))

theorem isLayer_behind (front : String) : IsLayer (behind front) := by
  intro context
  unfold behind
  dsimp only
  split
  · exact .answers _ fun _ => rfl
  · rename_i value _
    exact (Layer.ask ⟨rfl, rfl⟩).changed (quiet_prependValues front)

theorem isLayer_suppress (pattern : String) : IsLayer (suppress pattern) := by
  cases read : Regex.ofText? pattern with
  | none =>
    have fixed : suppress pattern = fun _ => ofMessage malformedPattern := by
      funext action
      simp only [suppress, read]
    rw [fixed]
    exact isLayer_const _
  | some regex =>
    have filters : suppress pattern = map fun _ completion =>
        { completion with
          messages := completion.messages.filter fun message => !regex.isMatch message } := by
      funext action
      simp only [suppress, read]
    rw [filters]
    exact isLayer_map fun _ => quiet_filterMessages _

theorem isLayer_words (lastCommand : Bool) : IsLayer (words lastCommand) := by
  intro context
  unfold words
  dsimp only
  split
  · exact .answers _ fun _ => rfl
  · rename_i token _
    have asks (args : List String) (front : String) :
        Layer (·.SameVariables context) fun action => intoLine front token <$>
          action { context with args, parts := [], value := String.ofList token.text } :=
      (Layer.ask ⟨rfl, rfl⟩).changed (quiet_intoLine front token)
    exact asks _ _

end Action

namespace Modifier

open TabSpec.Action

/-- What is refused for every action alike, or else is a layer. -/
def IsFallibleLayer (build : Action → Except SpecFault Action) : Prop :=
  (∃ fault, ∀ action, build action = .error fault) ∨
    ∃ layer, IsLayer layer ∧ ∀ action, build action = .ok (layer action)

theorem isFallibleLayer_ok {layer : Action → Action} (isLayer : IsLayer layer) :
    IsFallibleLayer fun action => .ok (layer action) := .inr ⟨layer, isLayer, fun _ => rfl⟩

theorem isFallibleLayer_error (fault : SpecFault) : IsFallibleLayer fun _ => .error fault :=
  .inl ⟨fault, fun _ => rfl⟩

/-- Reading an argument first does not depend on the action. -/
theorem isFallibleLayer_bind {Value : Type} (read : Except SpecFault Value)
    {build : Value → Action → Except SpecFault Action}
    (builds : ∀ value, IsFallibleLayer (build value)) :
    IsFallibleLayer fun action => read >>= fun value => build value action := by
  cases read with
  | error fault => exact isFallibleLayer_error fault
  | ok value => exact builds value

theorem isFallibleLayer_changeDirectory (argument : String) :
    IsFallibleLayer (changeDirectory argument) := by
  unfold changeDirectory
  cases Text.startsWith "$" argument with
  | true => exact isFallibleLayer_bind _ fun _ => isFallibleLayer_ok (isLayer_inDirectory _)
  | false => exact isFallibleLayer_ok (isLayer_inDirectory _)

/-- Every modifier is a layer, whatever its argument. -/
theorem isFallibleLayer_apply (modifier : Modifier) (argument : String) :
    IsFallibleLayer fun action => modifier.apply action argument := by
  cases modifier with
  | chdir => exact isFallibleLayer_changeDirectory argument
  | filter => exact isFallibleLayer_bind _ fun _ => isFallibleLayer_ok (isLayer_keep _)
  | filterArgs => exact isFallibleLayer_ok (isLayer_keep _)
  | list => exact isFallibleLayer_ok (isLayer_entries argument)
  | multiParts =>
    exact isFallibleLayer_bind _ fun dividers =>
      isFallibleLayer_ok (isLayer_map fun context => quiet_toSegments dividers context.value)
  | noSpace => exact isFallibleLayer_ok (isLayer_withoutSpace argument)
  | prepend => exact isFallibleLayer_ok (isLayer_behind argument)
  | retain => exact isFallibleLayer_bind _ fun _ => isFallibleLayer_ok (isLayer_keep _)
  | shift =>
    exact isFallibleLayer_bind (MacroArgument.decode argument : Except SpecFault UInt64)
      fun _ => isFallibleLayer_ok (isLayer_within fun _ => ⟨rfl, rfl⟩)
  | split => exact isFallibleLayer_ok (isLayer_words false)
  | splitPipeline => exact isFallibleLayer_ok (isLayer_words true)
  | append => exact isFallibleLayer_ok (isLayer_map fun _ => quiet_mapSuggestions _)
  | suppress => exact isFallibleLayer_ok (isLayer_suppress argument)
  | style => exact isFallibleLayer_ok (isLayer_map fun _ => quiet_mapSuggestions _)
  | tag => exact isFallibleLayer_ok (isLayer_map fun _ => quiet_mapSuggestions _)
  | uniqueList => exact isFallibleLayer_ok (isLayer_distinctEntries argument)
  | usage => exact isFallibleLayer_ok (isLayer_map fun _ => quiet_withUsage _)

theorem isFallibleLayer_resolve (call : String) (context : Context) :
    IsFallibleLayer fun action => resolve action call context := by
  refine isFallibleLayer_bind _ fun filled => ?_
  cases ofCall? filled with
  | none => exact isFallibleLayer_error _
  | some modifier =>
    exact isFallibleLayer_bind _ fun parts => isFallibleLayer_apply modifier parts.2

theorem machine_exportParts (context : Context) :
    context.exportParts.machine = context.machine := by
  unfold Context.exportParts Context.setNumbered
  rw [Context.foldl_set (fun entry : String × Nat => "C_PART" ++ toString entry.2) Prod.fst]
  rfl

/-- A call layered on actions is a layer, also when it has no meaning. Below it, the parts and the
value are variables. -/
theorem layer_modify (call : String) (context : Context) :
    Layer (fun inner => ∃ asked : Context, asked.SameVariables context ∧ inner = asked.exportParts)
      fun action => modify action call context := by
  rcases isFallibleLayer_resolve call context.exportParts with
    ⟨fault, refused⟩ | ⟨layer, isLayer, built⟩
  · simp only [modify, refused]
    exact .answers _ fun _ => rfl
  · simp only [modify, built]
    exact (isLayer context).above fun asked same => .ask ⟨asked, same, rfl⟩

end Modifier

end TabSpec

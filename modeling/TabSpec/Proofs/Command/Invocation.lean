import TabSpec.CoreMacros
import TabSpec.Proofs.Command.Slot
import TabSpec.Proofs.Expression.Siblings
import TabSpec.Proofs.Outcome

/-! Which nested specifications a completion asks for. They are settled before any of them answers: no
answer decides what else is asked. So a completion depends on the answers to a fixed list of
invocations, and it is cut off exactly when one of these is. Each of them is named by a call in the
slot that is completed. -/
namespace TabSpec

/-- A nested specification that is asked for candidates in a context. -/
abbrev Invocation := SpecTarget × Context

/-- The answer to an invocation. -/
def Invocation.answer (nested : SpecTarget → Action) (invocation : Invocation) : Traced Completion :=
  nested invocation.1 invocation.2

/-- An invocation on a machine of a specification that is named. -/
structure Invocation.IsOn (machine : Machine) (names : SpecTarget → Prop) (invocation : Invocation) :
    Prop where
  place : invocation.2.machine = machine
  named : names invocation.1

/-- What is read asks for these invocations, all of them allowed. -/
structure ConsultsAt {Value : Type} (allowed : Invocation → Prop) (asked : List Invocation)
    (read : (SpecTarget → Action) → Traced Value) : Prop where
  allows : ∀ invocation ∈ asked, allowed invocation
  cutOff : ∀ nested, (read nested).cutOff = asked.any fun invocation => (invocation.answer nested).cutOff
  congr : ∀ first second, (∀ invocation ∈ asked, invocation.answer first = invocation.answer second) →
    read first = read second

/-- What is read asks for a fixed list of invocations, all of them allowed. -/
def Consults {Value : Type} (allowed : Invocation → Prop)
    (read : (SpecTarget → Action) → Traced Value) : Prop :=
  ∃ asked, ConsultsAt allowed asked read

namespace Consults

section

variable {Value Result Other : Type} {allowed : Invocation → Prop}
  {read : (SpecTarget → Action) → Traced Value}

/-- What asks for nothing is never cut off. -/
theorem fixed {answer : Traced Value} (whole : answer.cutOff = false) :
    Consults allowed fun _ => answer :=
  ⟨[], by simp, fun _ => whole, fun _ _ _ => rfl⟩

theorem ask {target : SpecTarget} {context : Context} (allows : allowed (target, context)) :
    Consults allowed fun nested => nested target context :=
  ⟨[(target, context)], by simpa using allows, fun nested => by simp [Invocation.answer],
    fun first second same => same _ (List.mem_singleton_self _)⟩

theorem mono (consults : Consults allowed read) {wider : Invocation → Prop}
    (wide : ∀ invocation, allowed invocation → wider invocation) : Consults wider read := by
  obtain ⟨asked, here⟩ := consults
  exact ⟨asked, fun invocation member => wide invocation (here.allows invocation member),
    here.cutOff, here.congr⟩

theorem map (consults : Consults allowed read) (change : Value → Result) :
    Consults allowed fun nested => change <$> read nested := by
  obtain ⟨asked, here⟩ := consults
  refine ⟨asked, here.allows, fun nested => ?_, fun first second same => ?_⟩
  · rw [Traced.map_eq, here.cutOff]
  · rw [here.congr first second same]

theorem widen {machine : Machine} {names : SpecTarget → Prop}
    (consults : Consults (Invocation.IsOn machine names) read) {wider : SpecTarget → Prop}
    (wide : ∀ target, names target → wider target) : Consults (Invocation.IsOn machine wider) read :=
  consults.mono fun invocation allowed => ⟨allowed.place, wide invocation.1 allowed.named⟩

/-- What comes first and asks for nothing is not in the way. -/
theorem after {first : Traced Other} (whole : first.cutOff = false)
    {next : (SpecTarget → Action) → Other → Traced Value}
    (consults : Consults allowed fun nested => next nested first.value) :
    Consults allowed fun nested => first >>= next nested := by
  obtain ⟨asked, here⟩ := consults
  refine ⟨asked, here.allows, fun nested => ?_, fun one other same => ?_⟩
  · rw [Traced.bind_eq, ← here.cutOff, whole, Bool.false_or]
  · rw [Traced.bind_eq, Traced.bind_eq, here.congr one other same]

/-- One after the other asks for what either does. -/
theorem both {behind : (SpecTarget → Action) → Traced Other} (consults : Consults allowed read)
    (more : Consults allowed behind) (join : Value → Other → Result) :
    Consults allowed fun nested => do
      let value ← read nested
      let other ← behind nested
      return join value other := by
  obtain ⟨asked, here⟩ := consults
  obtain ⟨others, there⟩ := more
  refine ⟨asked ++ others, ?_, fun nested => ?_, fun first second same => ?_⟩
  · intro invocation member
    exact (List.mem_append.mp member).elim (here.allows _) (there.allows _)
  · simp only [Traced.bind_eq, Traced.pure_eq, Bool.or_false, here.cutOff, there.cutOff,
      List.any_append]
  · rw [here.congr first second fun invocation member => same _ (List.mem_append_left _ member),
      there.congr first second fun invocation member => same _ (List.mem_append_right _ member)]

end

/-- A layer asks for what the action below it does. -/
theorem layered {allowed : Invocation → Prop} {machine : Machine}
    {read : Action → Traced Completion} (layer : Layer (·.machine = machine) read)
    {action : (SpecTarget → Action) → Action}
    (consults : ∀ context, context.machine = machine →
      Consults allowed fun nested => action nested context) :
    Consults allowed fun nested => read (action nested) := by
  cases layer with
  | answers answer told =>
    simp only [told]
    exact fixed rfl
  | asks inner place change quiet told =>
    simp only [told]
    exact (consults inner place).map change

end Consults

/-! ### Calls -/

/-- The actions of a macro are whole: none of them is cut off by itself. -/
def Macro.AnswersWhole (entry : Macro) : Prop :=
  ∀ build, entry.body = .action build → ∀ argument action, build argument = .ok action →
    ∀ context, (action context).cutOff = false

/-- The actions of all macros are whole. -/
def Registry.AnswersWhole (registry : Registry) : Prop :=
  ∀ name entry, registry.get? name = some entry → entry.AnswersWhole

namespace Macro

theorem answersWhole_ofAction {action : Action}
    (whole : ∀ context, (action context).cutOff = false) : (ofAction action).AnswersWhole := by
  rintro build kind argument answer built
  cases kind
  cases built
  exact whole

theorem answersWhole_ofDecoded {Value : Type} {shape : ArgumentShape} {signature description : String}
    {raw : Bool} (decode : String → Except SpecFault Value) {action : Value → Action}
    (whole : ∀ value context, (action value context).cutOff = false) :
    (Macro.mk shape signature description raw
      (.action fun text => (decode text).map action)).AnswersWhole := by
  rintro build kind argument answer built
  cases kind
  obtain ⟨value, _, rfl⟩ := map_eq_ok_iff.mp built
  exact whole value

end Macro

namespace Registry

/-- Further macros that are whole, such as the program's own, leave a registry whole. -/
theorem AnswersWhole.addCore {registry : Registry} (whole : registry.AnswersWhole) (name : String)
    {entry : Macro} (added : entry.AnswersWhole) : (registry.addCore name entry).AnswersWhole := by
  intro other found known
  have told : (registry.macros.insert name entry).get? other = some found := known
  rw [OrderedMap.get?_insert] at told
  split at told
  · cases told
    exact added
  · exact whole other found told

theorem coreMacros_answersWhole : ∀ entry ∈ coreMacros, entry.2.AnswersWhole := by
  have listing (suffixes : Option (List String)) (context : Context) :
      (Action.listing suffixes context).cutOff = false := by
    unfold Action.listing
    dsimp only
    split <;> rfl
  simp only [coreMacros, List.mem_append, List.mem_map, List.mem_cons, List.not_mem_nil, or_false]
  rintro entry ((⟨name, -, rfl⟩ | rfl | rfl | rfl | rfl | rfl | rfl) | ⟨shell, -, rfl⟩)
  · exact Macro.answersWhole_ofDecoded _ fun _ _ => rfl
  · exact Macro.answersWhole_ofAction (listing none)
  · exact Macro.answersWhole_ofDecoded _ fun suffixes => listing (some suffixes)
  · exact Macro.answersWhole_ofDecoded _ fun _ _ => rfl
  · exact Macro.answersWhole_ofDecoded _ fun _ _ => rfl
  · intro build kind
    cases kind
  · exact Macro.answersWhole_ofDecoded _ fun _ _ => rfl
  · exact Macro.answersWhole_ofDecoded _ fun _ _ => rfl

theorem answersWhole_withCore (program : String) : (withCore program).AnswersWhole := by
  intro name entry found
  rw [withCore_eq] at found
  exact coreMacros_answersWhole (name, entry) (OrderedMap.mem_of_get?_ofList found)

end Registry
namespace Expression

/-- A text calls for a specification: that is what it stands for, whatever specifications answer. -/
def CallsFor (registry : Registry) (text : String) (target : SpecTarget) : Prop :=
  ∀ nested : SpecTarget → Action, resolve registry nested text = .ok (nested target)

/-- One of the elements calls for a specification, perhaps with modifiers layered on the call. -/
def RefersTo (registry : Registry) (elements : List Element) (target : SpecTarget) : Prop :=
  ∃ head modifiers, Element.candidates head modifiers ∈ elements ∧ CallsFor registry head target

theorem RefersTo.mono {registry : Registry} {elements more : List Element} {target : SpecTarget}
    (refers : RefersTo registry elements target) (subset : elements ⊆ more) :
    RefersTo registry more target := by
  obtain ⟨head, modifiers, member, calls⟩ := refers
  exact ⟨head, modifiers, subset member, calls⟩

section

variable {registry : Registry} (whole : registry.AnswersWhole)

include whole

theorem actionOf_cases (call : String) :
    (∃ fault, ∀ nested, registry.actionOf nested call = .error fault) ∨
    (∃ action : Action, (∀ context, (action context).cutOff = false) ∧
      ∀ nested, registry.actionOf nested call = .ok action) ∨
    ∃ target, ∀ nested, registry.actionOf nested call = .ok (nested target) := by
  unfold Registry.actionOf Registry.lookup
  cases Call.parse call with
  | error fault => exact .inl ⟨fault, fun _ => rfl⟩
  | ok parts =>
    simp only [bind, Except.bind]
    cases found : registry.get? parts.1 with
    | none => exact .inl ⟨_, fun _ => rfl⟩
    | some entry =>
      simp only [pure, Except.pure, Macro.action]
      cases kind : entry.body with
      | nested =>
        dsimp only
        cases SpecTarget.decode (if entry.shape = .none then "" else parts.2) with
        | error fault => exact .inl ⟨fault, fun _ => rfl⟩
        | ok target => exact .inr (.inr ⟨target, fun _ => rfl⟩)
      | action build =>
        dsimp only
        cases built : build (if entry.shape = .none then "" else parts.2) with
        | error fault => exact .inl ⟨fault, fun _ => rfl⟩
        | ok action =>
          exact .inr (.inl ⟨action, whole _ entry found build kind _ action built, fun _ => rfl⟩)

/-- What a call stands for, whatever nested specifications answer: nothing, an action that does not
depend on them, or one of them. -/
theorem resolve_cases (text : String) :
    (∃ fault, ∀ nested, resolve registry nested text = .error fault) ∨
    (∃ action : Action, (∀ context, (action context).cutOff = false) ∧
      ∀ nested, resolve registry nested text = .ok action) ∨
    ∃ target, CallsFor registry text target := by
  unfold CallsFor resolve
  cases Call.parse text with
  | error fault => exact .inl ⟨fault, fun _ => rfl⟩
  | ok parts =>
    simp only [bind, Except.bind]
    cases Addressee.of registry text parts.1 with
    | deprecated name replacement => exact .inr (.inl ⟨_, fun _ => rfl, fun _ => rfl⟩)
    | other program rest => exact .inr (.inl ⟨_, fun _ => rfl, fun _ => rfl⟩)
    | registry call => exact actionOf_cases whole call

theorem consults_call (text : String) (context : Context) :
    Consults (Invocation.IsOn context.machine (CallsFor registry text)) fun nested =>
      call registry nested text context := by
  rcases resolve_cases whole text with ⟨fault, failed⟩ | ⟨action, answers, found⟩ | ⟨target, calls⟩
  · simp only [call, failed]
    exact .fixed rfl
  · simp only [call, found]
    exact .fixed (answers context)
  · have found (nested : SpecTarget → Action) : resolve registry nested text = .ok (nested target) :=
      calls nested
    simp only [call, found]
    exact .ask ⟨rfl, calls⟩

/-- Layered modifiers ask for what the action below them does. -/
theorem consults_candidates (head : String) (modifiers : List String) (context : Context) :
    Consults (Invocation.IsOn context.machine (CallsFor registry head)) fun nested =>
      withModifiers (if isCall head then call registry nested head
        else .ofSuggestions [Suggestion.parse head]) modifiers context := by
  refine Consults.layered (layer_withModifiers modifiers context) fun inner place => ?_
  split
  · exact place ▸ consults_call whole head inner
  · exact .fixed rfl

/-- Elements ask one after the other. -/
theorem consults_actions (elements : List Element) (context : Context) :
    Consults (Invocation.IsOn context.machine (RefersTo registry elements)) fun nested =>
      (elements.filterMap (Element.action? registry nested)).mapM fun action => action context := by
  induction elements with
  | nil => exact .fixed rfl
  | cons element rest ih =>
    have later := ih.widen fun _ refers => refers.mono (List.subset_cons_self element rest)
    cases element with
    | literal text => exact later
    | wrappers calls => exact later
    | faulty message =>
      simp only [List.filterMap_cons, Element.action?, List.mapM_cons]
      exact Consults.both (.fixed rfl) later List.cons
    | candidates head modifiers =>
      simp only [List.filterMap_cons, Element.action?, List.mapM_cons]
      refine Consults.both ?_ later List.cons
      exact (consults_candidates whole head modifiers context).widen fun _ calls =>
        ⟨head, modifiers, List.mem_cons_self, calls⟩

theorem consults_evaluate (elements : List String) (context : Context) :
    Consults (Invocation.IsOn context.machine
        (RefersTo registry (elements.map (Element.of context.exportArguments)))) fun nested =>
      evaluate registry nested elements context := by
  rw [← context.samePlace_exportArguments.machine]
  refine Consults.layered (layer_withModifiers _ _) fun inner place => ?_
  simp only [Action.batch, List.mapM_append]
  refine place ▸ (Consults.both (consults_actions whole _ inner) (.fixed ?_) List.append).map Completion.merge
  split <;> rfl

end

end Expression

/-! ### Commands and files -/

namespace CommandSpec

theorem cutOff_run_bind {Failure Value Result : Type} {first : ExceptT Failure Traced Value}
    {next : Value → ExceptT Failure Traced Result} (whole : first.run.cutOff = false)
    (later : ∀ value, (next value).run.cutOff = false) : (first >>= next).run.cutOff = false := by
  have opened : (first >>= next).run.cutOff =
      (first.run.cutOff || (ExceptT.bindCont next first.run.value).cutOff) := rfl
  rw [opened, whole, Bool.false_or]
  cases first.run.value with
  | error failure => rfl
  | ok value => exact later value

mutual

theorem cutOff_assemble (registry : Registry) (capabilities : Capabilities) (inherited : Inheritance)
    (spec : CommandSpec) : (assemble registry capabilities inherited spec).run.cutOff = false := by
  obtain ⟨name, aliases, description, group, hidden, parsing, flags, persistentFlags, exclusiveFlags,
    run, completion, commands⟩ := spec
  rw [assemble]
  refine cutOff_run_bind rfl fun command => cutOff_run_bind rfl fun _ => ?_
  exact cutOff_run_bind (cutOff_assembleAll registry capabilities _ commands) fun _ => rfl

theorem cutOff_assembleAll (registry : Registry) (capabilities : Capabilities)
    (inherited : Inheritance) (specs : List CommandSpec) :
    (assembleAll registry capabilities inherited specs).run.cutOff = false := by
  cases specs with
  | nil => rfl
  | cons spec rest =>
    rw [assembleAll]
    refine cutOff_run_bind (cutOff_assemble registry capabilities inherited spec) fun command => ?_
    exact cutOff_run_bind (cutOff_assembleAll registry capabilities inherited rest) fun _ => rfl

end

/-- Assembling a command is never cut off. -/
theorem cutOff_build (registry : Registry) (capabilities : Capabilities) (spec : CommandSpec) :
    (spec.build registry capabilities).cutOff = false :=
  cutOff_assemble registry capabilities noInheritance spec

end CommandSpec

/-- A command refers to an invocation: an element of the slot that completes the last argument calls
for it, on the same machine. -/
structure Command.Refers (registry : Registry) (command : Command) (base : Context)
    (args : List String) (invocation : Invocation) : Prop where
  place : invocation.2.machine = base.machine
  named : ∃ elements, command.completedSlot? args = some (.expressions elements) ∧
    Expression.RefersTo registry (elements.map
      (Expression.Element.of (command.completedContext base args).exportArguments)) invocation.1

/-- The command assembled from the file of one invocation refers to another one. -/
structure Invocation.Refers (registry : Registry) (first next : Invocation) : Prop where
  place : next.2.machine = first.2.machine
  named : ∃ spec command,
    CommandSpec.load first.2.machine.files (first.2.resolve first.1.path)
      (first.2.resolve first.1.path) = .ok spec ∧
    (spec.build registry .extended).value = .ok command ∧
    command.Refers registry first.2 (first.2.args.drop first.1.offset ++ [first.2.value]) next

section

variable {registry : Registry} (whole : registry.AnswersWhole)

include whole

/-- Completing a command asks for invocations that it refers to. -/
theorem Command.consults_complete (command : Command) (base : Context) (args : List String) :
    Consults (command.Refers registry base args) fun nested =>
      command.complete registry nested base args := by
  simp only [complete_eq]
  refine .after rfl (.map ?_ (command.finished args))
  have place : (command.completedContext base args).machine = base.machine :=
    (Walk.samePlace_slotContext ..).machine
  cases slot : command.completedSlot? args with
  | none => exact .fixed rfl
  | some asked =>
    cases asked with
    | notice message => exact .fixed rfl
    | expressions elements =>
      refine (Expression.consults_evaluate whole elements _).mono fun _ allowed => ?_
      exact ⟨allowed.place.trans place, elements, slot, allowed.named⟩

/-- Completing with a file asks for invocations that the command assembled from it refers to. -/
theorem consults_fileCompletion (target : SpecTarget) (context : Context) :
    Consults (Invocation.Refers registry (target, context)) fun nested =>
      fileCompletion registry nested target context := by
  unfold fileCompletion
  refine .after rfl ?_
  dsimp only
  cases loaded : CommandSpec.load context.machine.files (context.resolve target.path)
      (context.resolve target.path) with
  | error fault => exact .fixed rfl
  | ok spec =>
    refine .after (CommandSpec.cutOff_build registry .extended spec) ?_
    cases built : (spec.build registry .extended).value with
    | error fault => exact .fixed rfl
    | ok command =>
      refine (Command.consults_complete whole command context _).mono fun _ refers => ?_
      exact ⟨refers.place, spec, command, loaded, built, refers⟩

end

end TabSpec

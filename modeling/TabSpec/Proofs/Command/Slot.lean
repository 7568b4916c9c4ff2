import TabSpec.Proofs.Command.Nested

/-! Completing a target comes down to asking one slot. Which slot is asked, in which context, and
what becomes of its answer depends on the walk alone. -/
namespace TabSpec

namespace Walk

/-- The slot that completes a target, if there is one. -/
def slot? (walk : Walk) : Target → Option Slot
  | .flagValue flag => walk.command.flagCompletion.get? flag.name
  | .dash earlier => walk.command.dash[earlier.length]?.or walk.command.dashAny
  | .inlineValue flag _ _ => walk.command.flagCompletion.get? flag.name
  | .flagName => none
  | .positional index => walk.command.positional[index]?.or walk.command.positionalAny

/-- The context in which the slot is asked. -/
def slotContext (walk : Walk) (base : Context) (word : String) : Target → Context
  | .dash earlier => { walk.context base with args := earlier, value := word }
  | .inlineValue _ _ value => { walk.context base with value }
  | _ => { walk.context base with value := word }

/-- The flag's description is the usage where none is given. -/
def withFlagUsage (flag : Flag) (completion : Completion) : Completion :=
  if completion.usage = "" then { completion with usage := flag.description } else completion

/-- What becomes of the slot's answer: flags lend it their description, an inline value keeps its
front, and the subcommands stand before the first positional argument. -/
def finish (walk : Walk) (word : String) (completion : Completion) : Target → Completion
  | .flagValue flag => withFlagUsage flag completion
  | .dash _ => completion
  | .inlineValue flag name _ => (withFlagUsage flag completion).prependValues (name ++ "=")
  | .flagName => walk.flagNames word
  | .positional index =>
    if index = 0 then .merge [walk.command.subcommands, completion] else completion

end Walk

namespace Command

variable (registry : Registry) (nested : SpecTarget → Action)

theorem answer_eq (walk : Walk) (base : Context) (word : String) (target : Target) :
    answer registry nested walk { walk.context base with value := word } target =
      (walk.finish word · target) <$>
        askSlot registry nested (walk.slot? target) (walk.slotContext base word target) := by
  cases target with
  | flagName => simp [answer, Walk.finish, Walk.slot?, askSlot]
  | dash earlier => simp [answer, Walk.finish, Walk.slot?, Walk.slotContext]
  | flagValue flag =>
    simp [answer, flagValue, Walk.finish, Walk.slot?, Walk.slotContext, Walk.withFlagUsage]
  | inlineValue flag name value =>
    simp [answer, flagValue, Walk.finish, Walk.slot?, Walk.slotContext, Walk.withFlagUsage]
  | positional index =>
    simp [answer, Walk.finish, Walk.slot?, Walk.slotContext]

/-- The slot that completes the last of the arguments. -/
def completedSlot? (command : Command) (args : List String) : Option Slot :=
  (command.walk args.dropLast).slot? ((command.walk args.dropLast).target (args.getLast?.getD ""))

/-- The context in which that slot is asked. -/
def completedContext (command : Command) (base : Context) (args : List String) : Context :=
  (command.walk args.dropLast).slotContext base (args.getLast?.getD "")
    ((command.walk args.dropLast).target (args.getLast?.getD ""))

/-- What becomes of that slot's answer. -/
def finished (command : Command) (args : List String) (completion : Completion) : Completion :=
  (command.walk args.dropLast).finish (args.getLast?.getD "") completion
    ((command.walk args.dropLast).target (args.getLast?.getD ""))

/-- Completing the last argument asks the slot of what that argument is. -/
theorem complete_eq (command : Command) (base : Context) (args : List String) :
    command.complete registry nested base args =
      (do
        Traced.note .debug "COMPLETE" "walk" (command.walk args.dropLast).summary
        command.finished args <$>
          askSlot registry nested (command.completedSlot? args)
            (command.completedContext base args)) := by
  simp only [complete, answer_eq]
  rfl

end Command

/-! ### The context of a slot -/

namespace Context

theorem SamePlace.trans {first second third : Context} (same : first.SamePlace second)
    (next : second.SamePlace third) : first.SamePlace third :=
  ⟨same.machine.trans next.machine, same.directory.trans next.directory,
    same.ownBindings.trans next.ownBindings⟩

theorem samePlace_foldl_set {Entry : Type} {name : Entry → String}
    (own : ∀ entry, Text.startsWith "C_" (name entry) = true) (value : Entry → String)
    (entries : List Entry) (context : Context) :
    (entries.foldl (fun context entry => context.set (name entry) (value entry)) context).SamePlace
      context := by
  induction entries generalizing context with
  | nil => exact ⟨rfl, rfl, rfl⟩
  | cons entry rest ih =>
    exact (ih (context.set (name entry) (value entry))).trans
      ⟨rfl, rfl, ownBindings_set (own entry) context _⟩

theorem samePlace_set {name : String} (own : Text.startsWith "C_" name = true) (context : Context)
    (value : String) : (context.set name value).SamePlace context :=
  ⟨rfl, rfl, ownBindings_set own context value⟩

/-- Describing the arguments leaves a context where it is. -/
theorem samePlace_exportArguments (context : Context) :
    context.exportArguments.SamePlace context := by
  have own (entry : String × Nat) : Text.startsWith "C_" ("C_ARG" ++ toString entry.2) = true := by
    simp [Text.startsWith, Text.after?]
  have numbered : (context.setNumbered "C_ARG" context.args).SamePlace context :=
    samePlace_foldl_set own _ _ _
  have value : Text.startsWith "C_" "C_VALUE" = true := by decide
  have callback : Text.startsWith "C_" "C_CALLBACK" = true := by decide
  exact (samePlace_set callback _ _).trans ((samePlace_set value _ _).trans numbered)

/-- Describing the arguments changes the variables only. -/
theorem exists_exportArguments_eq (context : Context) :
    ∃ bindings, context.exportArguments = { context with bindings } := by
  unfold exportArguments setNumbered
  rw [foldl_set (fun entry : String × Nat => "C_ARG" ++ toString entry.2) Prod.fst]
  exact ⟨_, rfl⟩

theorem args_exportArguments (context : Context) : context.exportArguments.args = context.args := by
  obtain ⟨bindings, same⟩ := context.exists_exportArguments_eq
  rw [same]

theorem value_exportArguments (context : Context) :
    context.exportArguments.value = context.value := by
  obtain ⟨bindings, same⟩ := context.exists_exportArguments_eq
  rw [same]

theorem samePlace_clearVariables (context : Context) :
    context.clearVariables.SamePlace context := by
  refine ⟨rfl, rfl, ?_⟩
  simp [ownBindings, clearVariables, OrderedMap.filterKeys, List.filter_filter]

end Context

theorem Walk.samePlace_slotContext (walk : Walk) (base : Context) (word : String) (target : Target) :
    (walk.slotContext base word target).SamePlace base := by
  have own (entry : String × List String) : Text.startsWith "C_" (flagVariable entry.1) = true := by
    simp [flagVariable, Text.startsWith, Text.after?]
  have same := (Context.samePlace_foldl_set own (fun entry => String.intercalate "," entry.2)
    walk.flags.entries base.clearVariables).trans base.samePlace_clearVariables
  have place : (walk.context base).SamePlace base := ⟨same.machine, same.directory, same.ownBindings⟩
  cases target <;> exact ⟨place.machine, place.directory, place.ownBindings⟩

end TabSpec

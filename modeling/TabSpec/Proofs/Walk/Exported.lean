import TabSpec.Command.Walk

/-! What a walk hands on. The context for completing or running a command keeps the place and the
machine of the context around it; its arguments and its variables of the form `C_...` are those of the
walk. -/
namespace TabSpec

namespace Context

/-- Setting variables one after the other changes the variables only. -/
theorem foldl_set {Entry : Type} (name value : Entry → String) (entries : List Entry)
    (context : Context) :
    entries.foldl (fun context entry => context.set (name entry) (value entry)) context =
      { context with
        bindings := entries.foldl (fun bindings entry =>
          bindings.insert (name entry) (value entry)) context.bindings } := by
  induction entries generalizing context with
  | nil => rfl
  | cons entry rest ih =>
    rw [List.foldl_cons, List.foldl_cons, ih]
    rfl

/-- The variables that stay when those of an enclosing evaluation are dropped. -/
def ownBindings (context : Context) : OrderedMap String :=
  context.bindings.filterKeys fun name => !Text.startsWith "C_" name

theorem ownBindings_set {name : String} (own : Text.startsWith "C_" name = true) (context : Context)
    (value : String) : (context.set name value).ownBindings = context.ownBindings :=
  OrderedMap.filterKeys_insert (by simp [own]) context.bindings value

end Context

namespace Walk

/-- Variables with those that tell of the flags on top. -/
def exported (walk : Walk) (bindings : OrderedMap String) : OrderedMap String :=
  walk.flags.entries.foldl (fun bindings entry =>
    bindings.insert (flagVariable entry.1) (String.intercalate "," entry.2)) bindings

theorem context_eq (walk : Walk) (base : Context) :
    walk.context base =
      { base with
        args := walk.positional
        parts := []
        bindings := walk.exported base.ownBindings } := by
  have folded := Context.foldl_set (fun entry : String × List String => flagVariable entry.1)
    (fun entry => String.intercalate "," entry.2) walk.flags.entries base.clearVariables
  unfold context
  dsimp only
  rw [folded]
  rfl

end Walk
end TabSpec

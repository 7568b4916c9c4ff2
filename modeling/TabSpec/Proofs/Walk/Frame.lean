import TabSpec.Proofs.Walk.Incremental

/-! What a token of a command line leaves as it is. Reading a flag sets flags and nothing else that
matters to the tokens behind it: the command, the positional arguments and those behind `--` stay. -/
namespace TabSpec

/-- A map that is made of another one by insertions. -/
inductive OrderedMap.Grown {Value : Type} (map : OrderedMap Value) : OrderedMap Value → Prop where
  | self : Grown map map
  | insert {larger : OrderedMap Value} (grown : Grown map larger) (key : String) (value : Value) :
      Grown map (larger.insert key value)

namespace OrderedMap.Grown

variable {Value : Type} {map larger largest : OrderedMap Value}

theorem trans (first : map.Grown larger) (second : larger.Grown largest) : map.Grown largest := by
  induction second with
  | self => exact first
  | insert _ key value ih => exact ih.insert key value

theorem sorted (grown : map.Grown larger) (sorted : map.Sorted) : larger.Sorted := by
  induction grown with
  | self => exact sorted
  | insert _ key value ih => exact ih.insert key value

end OrderedMap.Grown

namespace Walk

/-- A walk that went on without leaving its place: at most flags were set, or one began to wait. -/
structure StaysAt (walk next : Walk) : Prop where
  command : next.command = walk.command
  positional : next.positional = walk.positional
  dash : next.dash = walk.dash
  flags : walk.flags.Grown next.flags

namespace StaysAt

variable {walk next later : Walk}

protected theorem rfl : walk.StaysAt walk := ⟨rfl, rfl, rfl, .self⟩

theorem trans (first : walk.StaysAt next) (second : next.StaysAt later) : walk.StaysAt later where
  command := second.command.trans first.command
  positional := second.positional.trans first.positional
  dash := second.dash.trans first.dash
  flags := first.flags.trans second.flags

theorem flagsActive (stays : walk.StaysAt next) : next.flagsActive = walk.flagsActive := by
  unfold Walk.flagsActive
  rw [stays.command, stays.positional]

end StaysAt

theorem staysAt_set (walk : Walk) (flag : Flag) (values : List String) :
    walk.StaysAt (walk.set flag values) := ⟨rfl, rfl, rfl, .insert .self _ _⟩

theorem staysAt_assign (walk : Walk) (flag : Flag) (inline : Option String)
    (tokens : List String) : walk.StaysAt (walk.assign flag inline tokens).1 := by
  cases inline with
  | some value => exact staysAt_set ..
  | none =>
    cases gathers : flag.gathers with
    | false =>
      rw [assign_bare walk gathers]
      exact staysAt_set ..
    | true =>
      rw [assign_gathers walk gathers]
      cases flag.values? tokens with
      | some taken => exact staysAt_set ..
      | none => exact ⟨rfl, rfl, rfl, .self⟩

theorem staysAt_assignChain (walk : Walk) (tokens : List String) (chars : List Char) :
    walk.StaysAt (walk.assignChain tokens chars).1 := by
  induction chars generalizing walk with
  | nil => exact .rfl
  | cons c rest ih =>
    simp only [assignChain]
    split
    · exact ⟨rfl, rfl, rfl, .self⟩
    · split
      · exact (staysAt_set ..).trans (ih _)
      · exact staysAt_assign ..

theorem staysAt_takeFlag (walk : Walk) (token : String) (tokens : List String) :
    walk.StaysAt (walk.takeFlag token tokens).1 := by
  unfold takeFlag
  split
  split
  · exact staysAt_assign ..
  · split
    · exact ⟨rfl, rfl, rfl, .self⟩
    · exact staysAt_assignChain ..

/-- A walk whose next token may be a flag. -/
structure Accepting (walk : Walk) : Prop where
  settled : walk.pending = none
  before : walk.dash = none
  active : walk.flagsActive = true

theorem Accepting.set {walk : Walk} (accepting : walk.Accepting) (flag : Flag)
    (values : List String) : (walk.set flag values).Accepting where
  settled := accepting.settled
  before := accepting.before
  active := (staysAt_set walk flag values).flagsActive.trans accepting.active

/-- A token sets flags at most, whatever else it does. -/
theorem grown_step (walk : Walk) (token : String) (tokens : List String) :
    walk.flags.Grown (walk.step token tokens).1.flags := by
  unfold step
  split
  · exact .self
  · split
    · exact .self
    · split
      · exact .self
      · split
        · exact .self
        · split
          · exact (staysAt_takeFlag ..).flags
          · exact .self

theorem grown_resume (walk : Walk) (tokens : List String) :
    walk.flags.Grown (walk.resume tokens).flags := by
  fun_induction resume walk tokens with
  | case1 walk => exact .self
  | case2 walk token tokens waits => exact grown_step ..
  | case3 walk token tokens noWait ih => exact (grown_step ..).trans ih

end Walk

/-- The flags of a command line are kept in the order of their names. -/
theorem Command.sorted_flags (command : Command) (tokens : List String) :
    (command.walk tokens).flags.Sorted :=
  (Walk.grown_resume (Walk.start command) tokens).sorted OrderedMap.sorted_empty

end TabSpec

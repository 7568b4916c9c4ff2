import TabSpec.Proofs.Walk.Incremental

/-! The commands below a command, and how a walk moves through them. -/
namespace TabSpec

/-- A command below another one, or that one itself. -/
inductive Command.Within (root : Command) : Command → Prop where
  | self : Within root root
  | child {parent child : Command} (above : Within root parent)
      (member : child ∈ parent.commands) : Within root child

theorem Command.mem_of_find? {command child : Command} {word : String}
    (found : command.find? word = some child) :
    child ∈ command.commands ∧ child.answersTo word = true :=
  ⟨List.mem_of_find?_eq_some found, by simpa using List.find?_some found⟩

theorem Command.answersTo_iff {command : Command} {word : String} :
    command.answersTo word = true ↔ word ∈ command.name :: command.aliases := by
  have turned : command.name = word ↔ word = command.name := eq_comm
  simp [answersTo, turned]

namespace Walk

variable {root : Command} {walk : Walk}

/-- A step stays at the command or goes on to one below it. -/
theorem within_step (inside : root.Within walk.command) (token : String) (tokens : List String) :
    root.Within (walk.step token tokens).1.command := by
  cases outcome_step walk token with
  | settled next reads _ command =>
    rw [reads]
    rcases command with same | below
    · rw [same]
      exact inside
    · exact .child inside below
  | gathering flags flag gathers reads =>
    rw [reads, assign_gathers _ gathers]
    cases flag.values? tokens <;> exact inside

/-- A walk ends at a command below the one it began with. -/
theorem within_resume (inside : root.Within walk.command) (tokens : List String) :
    root.Within (walk.resume tokens).command := by
  fun_induction resume walk tokens with
  | case1 walk => exact inside
  | case2 walk token tokens waits => exact within_step inside token tokens
  | case3 walk token tokens noWait ih => exact ih (within_step inside token tokens)

end Walk

theorem Command.within_walk (command : Command) (tokens : List String) :
    command.Within (command.walk tokens).command := by
  have begins : command.Within (Walk.start command).command := .self
  exact Walk.within_resume begins tokens

end TabSpec

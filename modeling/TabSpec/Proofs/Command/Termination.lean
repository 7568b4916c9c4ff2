import Mathlib.Order.WellFounded
import TabSpec.Proofs.Command.Invocation

/-! When a completion ends. Nested specifications are completed to some depth, so a completion ends when
from some depth on nothing is cut off and the answer stays the same. Nothing keeps a specification from
referring to itself, and it is read anew each time: a completion ends exactly when no endless chain of
invocations begins at what it asks for. -/
namespace TabSpec

variable {registry : Registry} {allowed : Invocation → Prop}
  {read : (SpecTarget → Action) → Traced Completion}

/-! ### Asking -/

/-- What is read asks for an invocation: cutting off no other one cuts it off. -/
def Asks (read : (SpecTarget → Action) → Traced Completion) (invocation : Invocation) : Prop :=
  ∃ nested : SpecTarget → Action,
    (∀ target context, (nested target context).cutOff = true → (target, context) = invocation) ∧
      (read nested).cutOff = true

/-- What an invocation asks for nested specifications. -/
def Invocation.reads (registry : Registry) (invocation : Invocation)
    (nested : SpecTarget → Action) : Traced Completion :=
  fileCompletion registry nested invocation.1 invocation.2

/-- The file of an invocation. -/
def Invocation.path (invocation : Invocation) : String := invocation.2.resolve invocation.1.path

theorem ConsultsAt.asks_iff {asked : List Invocation} (consults : ConsultsAt allowed asked read)
    (invocation : Invocation) : Asks read invocation ↔ invocation ∈ asked := by
  constructor
  · rintro ⟨nested, only, cut⟩
    rw [consults.cutOff, List.any_eq_true] at cut
    obtain ⟨other, member, cut⟩ := cut
    exact only other.1 other.2 cut ▸ member
  · intro member
    classical
    refine ⟨fun target context => ⟨.empty, [], decide ((target, context) = invocation)⟩,
      fun target context cut => of_decide_eq_true cut, ?_⟩
    rw [consults.cutOff, List.any_eq_true]
    exact ⟨invocation, member, by simp [Invocation.answer]⟩

/-- What is read is cut off exactly when something is that it asks for. -/
theorem Consults.cutOff_iff (consults : Consults allowed read) (nested : SpecTarget → Action) :
    (read nested).cutOff = true ↔
      ∃ invocation, Asks read invocation ∧ (invocation.answer nested).cutOff = true := by
  obtain ⟨asked, here⟩ := consults
  simp only [here.cutOff, List.any_eq_true, here.asks_iff]

theorem Consults.uncut_iff (consults : Consults allowed read) (nested : SpecTarget → Action) :
    (read nested).cutOff = false ↔
      ∀ invocation, Asks read invocation → (invocation.answer nested).cutOff = false := by
  rw [← Bool.not_eq_true, consults.cutOff_iff]
  simp only [not_exists, not_and, Bool.not_eq_true]

theorem Consults.congr (consults : Consults allowed read) {first second : SpecTarget → Action}
    (same : ∀ invocation, Asks read invocation →
      invocation.answer first = invocation.answer second) : read first = read second := by
  obtain ⟨asked, here⟩ := consults
  exact here.congr first second fun invocation member =>
    same invocation ((here.asks_iff invocation).mpr member)

theorem Consults.allows (consults : Consults allowed read) {invocation : Invocation}
    (asks : Asks read invocation) : allowed invocation := by
  obtain ⟨asked, here⟩ := consults
  exact here.allows invocation ((here.asks_iff invocation).mp asks)

/-! ### Depths that suffice -/

/-- A depth at which nothing is cut off that an invocation refers to. -/
def Suffices (registry : Registry) (depth : Nat) (invocation : Invocation) : Prop :=
  (invocation.answer (nestedCompletion registry depth)).cutOff = false

/-- From some depth on what is read is not cut off and does not depend on the depth. -/
def Settles (registry : Registry) (read : (SpecTarget → Action) → Traced Completion) : Prop :=
  ∃ depth, ∀ further, depth ≤ further →
    (read (nestedCompletion registry further)).cutOff = false ∧
      read (nestedCompletion registry further) = read (nestedCompletion registry depth)

section

variable (whole : registry.AnswersWhole)

include whole

theorem Invocation.consults_reads (invocation : Invocation) :
    Consults (invocation.Refers registry) (invocation.reads registry) :=
  consults_fileCompletion whole invocation.1 invocation.2

/-- One level more suffices for an invocation exactly when the level suffices for all it asks for. -/
theorem suffices_succ_iff (depth : Nat) (invocation : Invocation) :
    Suffices registry (depth + 1) invocation ↔
      ∀ next, Asks (invocation.reads registry) next → Suffices registry depth next :=
  (invocation.consults_reads whole).uncut_iff (nestedCompletion registry depth)

/-- Where a depth suffices, the answer is the same at every further one. -/
theorem answer_eq_of_suffices {depth further : Nat} (deeper : depth ≤ further)
    {invocation : Invocation} (enough : Suffices registry depth invocation) :
    invocation.answer (nestedCompletion registry further) =
      invocation.answer (nestedCompletion registry depth) := by
  induction depth generalizing further invocation with
  | zero => cases enough
  | succ depth ih =>
    obtain ⟨further, rfl⟩ := Nat.exists_eq_add_one.mpr (by omega : 0 < further)
    have below := (suffices_succ_iff whole depth invocation).mp enough
    exact (invocation.consults_reads whole).congr fun next asks =>
      ih (by omega) (below next asks)

theorem suffices_of_le {depth further : Nat} (deeper : depth ≤ further) {invocation : Invocation}
    (enough : Suffices registry depth invocation) : Suffices registry further invocation := by
  rw [Suffices, answer_eq_of_suffices whole deeper enough]
  exact enough

/-- Finitely many invocations have a depth in common. -/
theorem exists_suffices_all (asked : List Invocation)
    (each : ∀ invocation ∈ asked, ∃ depth, Suffices registry depth invocation) :
    ∃ depth, ∀ invocation ∈ asked, Suffices registry depth invocation := by
  induction asked with
  | nil => exact ⟨0, by simp⟩
  | cons first rest ih =>
    obtain ⟨depth, enough⟩ := each first (List.mem_cons_self ..)
    obtain ⟨others, all⟩ := ih fun invocation member => each invocation (List.mem_cons_of_mem _ member)
    refine ⟨max depth others, fun invocation member => ?_⟩
    rcases List.mem_cons.mp member with rfl | member
    · exact suffices_of_le whole (Nat.le_max_left ..) enough
    · exact suffices_of_le whole (Nat.le_max_right ..) (all invocation member)

theorem Consults.exists_suffices (consults : Consults allowed read)
    (each : ∀ invocation, Asks read invocation → ∃ depth, Suffices registry depth invocation) :
    ∃ depth, ∀ invocation, Asks read invocation → Suffices registry depth invocation := by
  obtain ⟨asked, here⟩ := consults
  simp only [here.asks_iff] at each ⊢
  exact exists_suffices_all whole asked each

/-- What is read settles exactly when there is a depth for everything it asks for. -/
theorem Consults.settles_iff (consults : Consults allowed read) :
    Settles registry read ↔
      ∀ invocation, Asks read invocation → ∃ depth, Suffices registry depth invocation := by
  constructor
  · rintro ⟨depth, settled⟩ invocation asks
    obtain ⟨uncut, _⟩ := settled depth (Nat.le_refl depth)
    exact ⟨depth, (consults.uncut_iff _).mp uncut invocation asks⟩
  · intro each
    obtain ⟨depth, all⟩ := consults.exists_suffices whole each
    refine ⟨depth, fun further deeper => ⟨(consults.uncut_iff _).mpr fun invocation asks => ?_, ?_⟩⟩
    · exact suffices_of_le whole deeper (all invocation asks)
    · exact consults.congr fun invocation asks =>
        answer_eq_of_suffices whole deeper (all invocation asks)

end

/-! ### Asking for what looks the same -/

/-- Answers nothing. It is cut off except where it is asked for the invocation, whatever the machine, the
parts and the variables of the evaluations around are. -/
def Invocation.observer (expected : Invocation) : SpecTarget → Action := fun target context =>
  ⟨.empty, [], !decide (target = expected.1 ∧ context.value = expected.2.value ∧
    context.args = expected.2.args ∧ context.directory = expected.2.directory ∧
    context.ownBindings = expected.2.ownBindings)⟩

/-- Invocations of one file that read the same. -/
structure Invocation.Alike (first second : Invocation) : Prop where
  path : first.path = second.path
  reads : ∀ registry, first.reads registry = second.reads registry

theorem Invocation.Alike.asks_iff {first second : Invocation} (alike : first.Alike second)
    (next : Invocation) : Asks (first.reads registry) next ↔ Asks (second.reads registry) next := by
  rw [alike.reads registry]

/-- Where the observer is not cut off, all that is asked for is like the invocation. -/
theorem Consults.alike (consults : Consults allowed read) (expected : Invocation)
    (place : ∀ invocation, allowed invocation → invocation.2.machine = expected.2.machine) (uncut : (read expected.observer).cutOff = false)
    {invocation : Invocation} (asks : Asks read invocation) : invocation.Alike expected := by
  have observed := (consults.uncut_iff _).mp uncut invocation asks
  obtain ⟨target, context⟩ := invocation
  obtain ⟨expectedTarget, around⟩ := expected
  simp only [Invocation.answer, Invocation.observer, Bool.not_eq_false', decide_eq_true_eq] at observed
  obtain ⟨rfl, value, args, directory, ownBindings⟩ := observed
  have same : context.SameBehind target.offset around :=
    { machine := place _ (consults.allows asks), directory, ownBindings, value
      args := congrArg _ args }
  exact ⟨same.resolve target.path, fun registry => funext fun nested =>
    fileCompletion_eq_of_sameBehind registry nested target same⟩

/-- What is read asks for something if it is cut off where every invocation is. -/
theorem Consults.exists_asks_iff (consults : Consults allowed read) :
    (∃ invocation, Asks read invocation) ↔ (read fun _ _ => .tooDeep .empty).cutOff = true := by
  rw [consults.cutOff_iff]
  simp [Invocation.answer, Traced.tooDeep]

/-! ### Chains of invocations -/

/-- An endless chain of invocations begins here, each of which asks for the next one. -/
def Endless (registry : Registry) (invocation : Invocation) : Prop :=
  ∃ chain : Nat → Invocation, chain 0 = invocation ∧
    ∀ index, Asks ((chain index).reads registry) (chain (index + 1))

/-- The invocations that what is read leads to. -/
inductive Reached (registry : Registry) (read : (SpecTarget → Action) → Traced Completion) :
    Invocation → Prop
  | asked {invocation : Invocation} (asks : Asks read invocation) : Reached registry read invocation
  | further {first next : Invocation} (reached : Reached registry read first)
      (asks : Asks (first.reads registry) next) : Reached registry read next

/-- Among the invocations that it leads to, each file refers to files of lower rank only. -/
def RefersDown (registry : Registry) (read : (SpecTarget → Action) → Traced Completion)
    (rank : String → Nat) : Prop :=
  ∀ first next, Reached registry read first → Asks (first.reads registry) next →
    rank next.path < rank first.path

section

variable (whole : registry.AnswersWhole)

include whole

/-- Some depth suffices for an invocation exactly when asking further and further comes to an end. -/
theorem exists_suffices_iff_acc (invocation : Invocation) :
    (∃ depth, Suffices registry depth invocation) ↔
      Acc (fun next first => Asks (first.reads registry) next) invocation := by
  constructor
  · rintro ⟨depth, enough⟩
    induction depth generalizing invocation with
    | zero => cases enough
    | succ depth ih =>
      have below := (suffices_succ_iff whole depth invocation).mp enough
      exact ⟨invocation, fun next asks => ih next (below next asks)⟩
  · intro accessible
    induction accessible with
    | intro invocation _ ih =>
      obtain ⟨depth, all⟩ := (invocation.consults_reads whole).exists_suffices whole ih
      exact ⟨depth + 1, (suffices_succ_iff whole depth invocation).mpr all⟩

/-- Some depth suffices for an invocation exactly when no endless chain begins at it. -/
theorem exists_suffices_iff (invocation : Invocation) :
    (∃ depth, Suffices registry depth invocation) ↔ ¬ Endless registry invocation := by
  rw [exists_suffices_iff_acc whole, ← not_iff_not, not_not]
  exact not_acc_iff_exists_descending_chain

/-- A depth above the rank of its file suffices for an invocation. -/
theorem suffices_of_rank_lt {rank : String → Nat} (down : RefersDown registry read rank) {depth : Nat}
    {invocation : Invocation} (reached : Reached registry read invocation)
    (lower : rank invocation.path < depth) : Suffices registry depth invocation := by
  induction depth generalizing invocation with
  | zero => cases lower
  | succ depth ih =>
    refine (suffices_succ_iff whole depth invocation).mpr fun next asks => ?_
    have decreases := down invocation next reached asks
    exact ih (reached.further asks) (by omega)

/-- What is like an invocation that asks for one like itself is cut off at every depth. -/
theorem Invocation.Alike.not_suffices {first next other : Invocation} (alike : next.Alike first)
    (asks : Asks (first.reads registry) next) (again : other.Alike first) (depth : Nat) :
    ¬ Suffices registry depth other := by
  induction depth generalizing other with
  | zero => exact Bool.noConfusion
  | succ depth ih =>
    intro enough
    have below := (suffices_succ_iff whole depth other).mp enough
    exact ih alike (below next ((again.asks_iff next).mpr asks))

/-- A completion ends exactly when no endless chain begins at the invocations that it asks for. All that
is asked for is called for in the slot that is completed: in the command's, and then in those of the
commands assembled from the files. A completion does end where the files that it leads to refer to each
other without a cycle, each to files of lower rank only. -/
theorem Command.complete_settles_iff (command : Command) (base : Context) (args : List String) :
    let completing := fun nested => command.complete registry nested base args
    (Settles registry completing ↔
      ∀ invocation, Asks completing invocation → ¬ Endless registry invocation) ∧
    (∀ invocation, Asks completing invocation → command.Refers registry base args invocation) ∧
    (∀ first next : Invocation, Asks (first.reads registry) next → first.Refers registry next) ∧
    ∀ rank, RefersDown registry completing rank → Settles registry completing := by
  intro completing
  have consults : Consults (command.Refers registry base args) completing :=
    command.consults_complete whole base args
  rw [consults.settles_iff whole]
  refine ⟨?_, fun _ => consults.allows, fun first _ => (first.consults_reads whole).allows,
    fun rank down invocation asks => ?_⟩
  · simp only [exists_suffices_iff whole]
  · exact ⟨_, suffices_of_rank_lt whole down (.asked asks) (Nat.lt_succ_self _)⟩

end

namespace Sample

/-- A specification that completes all of its arguments with one element. -/
def completedBy (element : String) : CommandSpec :=
  { CommandSpec.empty with
    name := "parent"
    completion := { CompletionSpec.empty with positionalAny := [element] } }

/-- The text of a file with such a specification. -/
def fileCompletedBy (element : String) : String :=
  "name: nested\ncompletion:\n  positionalany: [\"" ++ element ++ "\"]\n"

/-- In the directory of some files, with nothing typed. -/
def beginningWith (files : FileTree) : Context :=
  { args := [], value := "", parts := [], directory := "/work", bindings := .empty
    machine := { (default : Machine) with files } }

/-- Where one specification refers to another one. -/
def beforeChain : Context :=
  beginningWith
    ((FileTree.empty.put ["work", "first.yaml"]
        (.file (fileCompletedBy "$spec(second.yaml)") false)).put ["work", "second.yaml"]
      (.file (fileCompletedBy "b") false))

/-- Where a specification refers to itself. -/
def beforeLoop : Context :=
  beginningWith
    (FileTree.empty.put ["work", "loop.yaml"] (.file (fileCompletedBy "$spec(loop.yaml)") false))

abbrev firstFile : Invocation := (⟨"first.yaml", 0⟩, beforeChain)

abbrev secondFile : Invocation := (⟨"second.yaml", 0⟩, beforeChain)

abbrev loopFile : Invocation := (⟨"loop.yaml", 0⟩, beforeLoop)

/-- The second file stands below all others. -/
def chainRank (path : String) : Nat := if path = "/work/second.yaml" then 0 else 1

theorem alike_secondFile {next : Invocation}
    (asks : Asks (firstFile.reads (.withCore "tool")) next) : next.Alike secondFile := by
  have uncut : (firstFile.reads (.withCore "tool") secondFile.observer).cutOff = false := by
    decide +kernel
  have consults := firstFile.consults_reads (Registry.answersWhole_withCore "tool")
  exact consults.alike secondFile (fun _ refers => refers.place) uncut asks

theorem secondFile_asks_nothing (next : Invocation) :
    ¬ Asks (secondFile.reads (.withCore "tool")) next := by
  have uncut : (secondFile.reads (.withCore "tool") fun _ _ => .tooDeep .empty).cutOff = false := by
    decide +kernel
  have consults := secondFile.consults_reads (Registry.answersWhole_withCore "tool")
  intro asks
  exact Bool.false_ne_true (uncut.symm.trans (consults.exists_asks_iff.mp ⟨next, asks⟩))

end Sample

namespace Command

/-- The specification refers to a file that refers to another one, and that refers to none. -/
theorem complete_settles_iff_sample :
    ∃ command,
      ((Sample.completedBy "$spec(first.yaml)").build (.withCore "tool") .posix).value = .ok command ∧
      Settles (.withCore "tool") fun nested =>
        command.complete (.withCore "tool") nested Sample.beforeChain [""] := by
  have outer : ((Sample.completedBy "$spec(first.yaml)").build (.withCore "tool")
      .posix).value.toOption.any (fun command => (command.complete (.withCore "tool")
        Sample.firstFile.observer Sample.beforeChain [""]).cutOff = false) = true := by
    decide +kernel
  obtain ⟨command, built, uncut⟩ := exists_of_toOption_any outer
  have whole := Registry.answersWhole_withCore "tool"
  have consults := command.consults_complete whole Sample.beforeChain [""]
  -- All that is reached is like one of the two files.
  have files {invocation : Invocation} (reached : Reached (.withCore "tool") (fun nested =>
      command.complete (.withCore "tool") nested Sample.beforeChain [""]) invocation) :
      invocation.Alike Sample.firstFile ∨ invocation.Alike Sample.secondFile := by
    induction reached with
    | asked asks =>
      exact .inl (consults.alike Sample.firstFile (fun _ refers => refers.place)
        (of_decide_eq_true uncut) asks)
    | further _ asks ih =>
      rcases ih with first | second
      · exact .inr (Sample.alike_secondFile ((first.asks_iff _).mp asks))
      · exact absurd ((second.asks_iff _).mp asks) (Sample.secondFile_asks_nothing _)
  have lower : Sample.chainRank Sample.secondFile.path < Sample.chainRank Sample.firstFile.path := by
    decide +kernel
  refine ⟨command, built, (complete_settles_iff whole command Sample.beforeChain [""]).2.2.2
    Sample.chainRank fun before next reached asks => ?_⟩
  rcases files reached with first | second
  · rw [first.path, (Sample.alike_secondFile ((first.asks_iff _).mp asks)).path]
    exact lower
  · exact absurd ((second.asks_iff _).mp asks) (Sample.secondFile_asks_nothing _)

/-- The specification refers to a file that refers to itself. -/
theorem complete_cut_off_in_loop :
    ∃ command,
      ((Sample.completedBy "$spec(loop.yaml)").build (.withCore "tool") .posix).value = .ok command ∧
      ∀ depth, (command.complete (.withCore "tool") (nestedCompletion (.withCore "tool") depth)
        Sample.beforeLoop [""]).cutOff = true := by
  have outer : ((Sample.completedBy "$spec(loop.yaml)").build (.withCore "tool")
      .posix).value.toOption.any (fun command =>
        (command.complete (.withCore "tool") Sample.loopFile.observer Sample.beforeLoop
          [""]).cutOff = false &&
        (command.complete (.withCore "tool") (fun _ _ => .tooDeep .empty) Sample.beforeLoop
          [""]).cutOff = true) = true := by
    decide +kernel
  have uncut : (Sample.loopFile.reads (.withCore "tool") Sample.loopFile.observer).cutOff = false := by
    decide +kernel
  have cut : (Sample.loopFile.reads (.withCore "tool") fun _ _ => .tooDeep .empty).cutOff = true := by
    decide +kernel
  obtain ⟨command, built, facts⟩ := exists_of_toOption_any outer
  simp only [Bool.and_eq_true, decide_eq_true_eq] at facts
  have whole := Registry.answersWhole_withCore "tool"
  have consults := command.consults_complete whole Sample.beforeLoop [""]
  have around := Sample.loopFile.consults_reads whole
  obtain ⟨asked, asks⟩ := consults.exists_asks_iff.mpr facts.2
  obtain ⟨next, further⟩ := around.exists_asks_iff.mpr cut
  have entered : asked.Alike Sample.loopFile :=
    consults.alike Sample.loopFile (fun _ refers => refers.place) facts.1 asks
  have again : next.Alike Sample.loopFile :=
    around.alike Sample.loopFile (fun _ refers => refers.place) uncut further
  refine ⟨command, built, fun depth => (consults.cutOff_iff _).mpr ⟨asked, asks, ?_⟩⟩
  exact Bool.not_eq_false _ ▸ again.not_suffices whole further entered depth

end Command
end TabSpec

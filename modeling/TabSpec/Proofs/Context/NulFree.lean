import TabSpec.Proofs.Substitution
import TabSpec.Traversal

/-! Contexts whose texts hold no NUL, the character that neither an argument of a program nor a
variable can hold. What is read out of such a context holds none either: filled placeholders,
directories that are looked up, and the contexts made from it. -/
namespace TabSpec

namespace Text

/-- A text without NUL. -/
def NulFree (text : String) : Prop := '\x00' ∉ text.toList

instance (text : String) : Decidable (NulFree text) := inferInstanceAs (Decidable (¬ _))

variable {first second text part : String}

theorem nulFree_empty : NulFree "" := by decide

theorem NulFree.of_subset (free : NulFree text) (inside : part.toList ⊆ text.toList) :
    NulFree part := fun member => free (inside member)

@[simp] theorem nulFree_append : NulFree (first ++ second) ↔ NulFree first ∧ NulFree second := by
  simp [NulFree]

@[simp] theorem nulFree_ofList {chars : List Char} :
    NulFree (String.ofList chars) ↔ '\x00' ∉ chars := by
  simp [NulFree]

theorem NulFree.of_mem_split {separator : String} (free : NulFree text)
    (member : part ∈ split separator text) : NulFree part :=
  free.of_subset (subset_of_mem_split member)

end Text

open Text

/-- The argument of a call is taken from the call. -/
theorem Call.nulFree_of_parse {call name argument : String} (free : NulFree call)
    (read : Call.parse call = .ok (name, argument)) : NulFree argument := by
  unfold parse at read
  split at read
  · rename_i parts found
    obtain ⟨_, rfl⟩ := Prod.mk.inj (Except.ok.inj read)
    have taken : parts.argument ⊆ call.toList := by
      unfold ofChars? at found
      split at found
      · rename_i text chars
        dsimp only at found
        rw [chars]
        split at found
        · obtain rfl := Option.some.inj found
          exact List.nil_subset _
        · rename_i c body behind
          split at found
          · obtain rfl := Option.some.inj found
            have inside : c :: body ⊆ text := behind ▸ (List.dropWhile_suffix _).subset
            exact List.Subset.trans (List.dropLast_subset body)
              (List.Subset.trans (List.cons_subset.mp inside).2 (List.subset_cons_self _ _))
          · cases found
      · cases found
    exact free.of_subset (by simpa using taken)
  · cases read

namespace Substitution

/-- A placeholder stands for a value of its variable or for a default that is written in it. -/
theorem Placeholder.nul_not_mem_value {lookup : String → Option String} {placeholder : Placeholder}
    (values : ∀ name, ∀ value ∈ lookup name, NulFree value)
    (free : '\x00' ∉ placeholder.fallback.written) : '\x00' ∉ placeholder.value lookup := by
  unfold value
  cases found : lookup (String.ofList placeholder.name) with
  | none =>
    cases fallback : placeholder.fallback with
    | none => simp
    | unset text => simpa [fallback, Fallback.written] using free
    | unsetOrEmpty text => simpa [fallback, Fallback.written] using free
  | some value =>
    have valueFree : '\x00' ∉ value.toList := values _ value found
    cases fallback : placeholder.fallback with
    | none => exact valueFree
    | unset text => exact valueFree
    | unsetOrEmpty text =>
      cases empty : value.toList.isEmpty with
      | true => simpa [Option.filter, fallback, Fallback.written, empty] using free
      | false => simpa [Option.filter, empty] using valueFree

theorem nul_not_mem_expandChars {lookup : String → Option String} {text filled : List Char}
    (values : ∀ name, ∀ value ∈ lookup name, NulFree value) (free : '\x00' ∉ text)
    (fills : expandChars lookup text = some filled) : '\x00' ∉ filled := by
  fun_induction expandChars lookup text generalizing filled with
  | case1 =>
    obtain rfl := Option.some.inj fills
    exact List.not_mem_nil
  | case2 text found rest read _ ih =>
    obtain ⟨expanded, further, rfl⟩ := Option.map_eq_some_iff.mp fills
    have whole := eq_of_placeholder? read
    have parts : '\x00' ∉ found.fallback.written ∧ '\x00' ∉ rest := by
      rw [whole] at free
      simp only [List.mem_cons, List.mem_append, not_or] at free
      exact ⟨free.2.2.1.2, free.2.2.2.2⟩
    rw [List.mem_append, not_or]
    exact ⟨Placeholder.nul_not_mem_value values parts.1, ih parts.2 further⟩
  | case3 text malformed => cases fills
  | case4 c text _ ih =>
    obtain ⟨expanded, further, rfl⟩ := Option.map_eq_some_iff.mp fills
    rw [List.mem_cons, not_or] at free ⊢
    exact ⟨free.1, ih free.2 further⟩

theorem nulFree_of_expand {lookup : String → Option String} {text filled : String}
    (values : ∀ name, ∀ value ∈ lookup name, NulFree value) (free : NulFree text)
    (fills : expand lookup text = .ok filled) : NulFree filled := by
  unfold expand at fills
  split at fills
  · rename_i chars expanded
    obtain rfl := Except.ok.inj fills
    exact nulFree_ofList.mpr (nul_not_mem_expandChars values free expanded)
  · cases fills

end Substitution

/-! ### Paths -/

theorem Path.nulFree_join {base path : String} (baseFree : NulFree base) (pathFree : NulFree path) :
    NulFree (Path.join base path) := by
  have slash : NulFree "/" := by decide
  unfold join
  split
  · exact pathFree
  · split <;> simp [baseFree, pathFree, slash]

/-- A machine with no NUL in the variables of its process. -/
def Machine.NulFree (machine : Machine) : Prop :=
  ∀ name, ∀ value ∈ machine.environment.get? name, Text.NulFree value

namespace Machine.NulFree

variable {machine : Machine} (free : machine.NulFree)

include free

theorem home? {home : String} (found : machine.home? = some home) : Text.NulFree home :=
  free "HOME" home (Option.filter_eq_some_iff.mp found).1

theorem temporaryDirectory : Text.NulFree machine.temporaryDirectory := by
  unfold Machine.temporaryDirectory
  cases found : machine.environment.get? "TMPDIR" with
  | none => decide
  | some directory => exact free "TMPDIR" directory found

theorem expandTilde {path : String} (pathFree : Text.NulFree path) :
    Text.NulFree (machine.expandTilde path) := by
  unfold Machine.expandTilde
  split
  · rename_i rest home cut found
    split
    · rw [eq_of_stripFront? cut, nulFree_append] at pathFree
      exact nulFree_append.mpr ⟨free.home? found, pathFree.2⟩
    · exact pathFree
  · exact pathFree

theorem userDirectory? {name place directory : String} (placeFree : Text.NulFree place)
    (found : machine.userDirectory? name place = some directory) : Text.NulFree directory := by
  unfold Machine.userDirectory? at found
  split at found
  · rename_i value set
    obtain rfl := Option.some.inj found
    exact free name _ (Option.filter_eq_some_iff.mp set).1
  · obtain ⟨home, below, rfl⟩ := Option.map_eq_some_iff.mp found
    exact Path.nulFree_join (free.home? below) placeFree

end Machine.NulFree

/-! ### Contexts -/

/-- A context on a machine, with no NUL in its texts and in the variables of the process. -/
structure Context.NulFree (machine : Machine) (context : Context) : Prop where
  host : context.machine = machine
  process : machine.NulFree
  args : ∀ arg ∈ context.args, Text.NulFree arg
  value : Text.NulFree context.value
  parts : ∀ part ∈ context.parts, Text.NulFree part
  directory : Text.NulFree context.directory
  bindings : ∀ name, ∀ value ∈ context.bindings.get? name, Text.NulFree value

namespace Context.NulFree

variable {machine : Machine} {context : Context} (free : context.NulFree machine)

include free

theorem get? {name value : String} (found : context.get? name = some value) :
    Text.NulFree value := by
  unfold Context.get? at found
  split at found
  · rename_i kept bound
    obtain rfl := Option.some.inj found
    exact free.bindings name _ bound
  · rw [free.host] at found
    exact free.process name value found

theorem set (name : String) {value : String} (valueFree : Text.NulFree value) :
    (context.set name value).NulFree machine where
  host := free.host
  process := free.process
  args := free.args
  value := free.value
  parts := free.parts
  directory := free.directory
  bindings := by
    intro other kept found
    rw [Context.set, OrderedMap.get?_insert] at found
    split at found
    · obtain rfl := Option.some.inj found
      exact valueFree
    · exact free.bindings other kept found

theorem setNumbered (name : String) {texts : List String}
    (textsFree : ∀ text ∈ texts, Text.NulFree text) :
    (context.setNumbered name texts).NulFree machine := by
  have numbered : ∀ entry ∈ texts.zipIdx, Text.NulFree entry.1 := fun entry member =>
    textsFree _ (List.fst_mem_of_mem_zipIdx member)
  unfold Context.setNumbered
  generalize texts.zipIdx = entries at numbered
  induction entries generalizing context with
  | nil => exact free
  | cons entry rest ih =>
    obtain ⟨first, later⟩ := List.forall_mem_cons.mp numbered
    exact ih (free.set _ first) later

theorem exportParts : context.exportParts.NulFree machine :=
  (free.setNumbered "C_PART" free.parts).set "C_VALUE" free.value

theorem exportArguments : context.exportArguments.NulFree machine :=
  ((free.setNumbered "C_ARG" free.args).set "C_VALUE" free.value).set "C_CALLBACK" free.value

theorem substitute {text filled : String} (textFree : Text.NulFree text)
    (fills : context.substitute text = .ok filled) : Text.NulFree filled :=
  Substitution.nulFree_of_expand (fun _ _ found => free.get? found) textFree fills

theorem resolve {path : String} (pathFree : Text.NulFree path) :
    Text.NulFree (context.resolve path) := by
  unfold Context.resolve
  rw [free.host]
  exact Path.nulFree_join free.directory (free.process.expandTilde pathFree)

end Context.NulFree

/-! ### Directories that are looked up -/

namespace Traversal

variable {machine : Machine} {context : Context}

theorem nulFree_of_holding (free : context.NulFree machine) {names : List String}
    {directory : String} (found : holding context names = .ok directory) :
    Text.NulFree directory := by
  unfold holding at found
  dsimp only at found
  split at found
  · rename_i above holds
    obtain rfl := Except.ok.inj found
    obtain ⟨levels, _, reached⟩ := List.mem_filterMap.mp (List.mem_of_find?_eq_some holds)
    exact free.directory.of_subset (Path.subset_of_ancestor? reached)
  · cases found

theorem nulFree_of_ofVariable (free : context.NulFree machine) {name place directory : String}
    (placeFree : Text.NulFree place) (found : ofVariable context name place = .ok directory) :
    Text.NulFree directory := by
  unfold ofVariable at found
  split at found
  · rename_i set
    obtain rfl := Except.ok.inj found
    exact free.get? (get?_of_valueOf? set)
  · rename_i home _ below
    obtain rfl := Except.ok.inj found
    rw [free.host] at below
    exact Path.nulFree_join (free.process.home? below) placeFree
  · cases found

/-- Wherever a traversal leads, the path is made of texts of the context. -/
theorem nulFree_of_resolve (free : context.NulFree machine) {traversal : Traversal}
    {directory : String} (found : traversal.resolve context = .ok directory) :
    Text.NulFree directory := by
  cases traversal with
  | gitWorkTree => exact nulFree_of_holding free found
  | gitDir =>
    simp only [resolve] at found
    split at found
    · rename_i value set
      obtain rfl := Except.ok.inj found
      exact free.resolve (free.get? (get?_of_valueOf? set))
    · cases holds : holding context [".git"] with
      | error fault =>
        rw [holds] at found
        cases found
      | ok tree =>
        rw [holds] at found
        obtain rfl := Except.ok.inj found
        exact Path.nulFree_join (nulFree_of_holding free holds) (by decide)
  | parent names =>
    simp only [resolve] at found
    split at found
    · have above := known_eq_ok_iff.mp found
      unfold above? at above
      split at above
      · cases above
      · exact free.directory.of_subset (Path.subset_of_ancestor? above)
    · exact nulFree_of_holding free found
  | tempDir =>
    obtain rfl := Except.ok.inj found
    rw [free.host]
    exact free.process.temporaryDirectory
  | userCacheDir =>
    have below := known_eq_ok_iff.mp found
    rw [free.host] at below
    exact free.process.userDirectory? (by decide) below
  | userConfigDir =>
    have below := known_eq_ok_iff.mp found
    rw [free.host] at below
    exact free.process.userDirectory? (by decide) below
  | userHomeDir =>
    have home := known_eq_ok_iff.mp found
    rw [free.host] at home
    exact free.process.home? home
  | xdgCacheHome => exact nulFree_of_ofVariable free (by decide) found
  | xdgConfigHome => exact nulFree_of_ofVariable free (by decide) found

end Traversal

end TabSpec

import TabSpec.Command.Assembly
import TabSpec.Proofs.Outcome

/-! When the flags that a specification describes make up a flag set: their identifiers must be
readable, the set must be able to express them, and no two may have one name. -/
namespace TabSpec

namespace Flag

/-- Whether a text can be read as the identifier of a flag. -/
def IsIdentifier (identifier : String) : Prop := ∃ flag, parse identifier "" = .ok flag

/-- What a flag is called has nothing to do with how it is described. -/
theorem parse_eq_map (identifier description : String) :
    parse identifier description =
      (parse identifier "").map fun flag => { flag with description } := by
  unfold parse
  split
  · rfl
  · rename_i shorthand tail _
    dsimp only
    split
    · rfl
    · by_cases nameless : dropDashes tail.longhand = "" ∧ dropDashes shorthand = ""
      · rw [if_pos nameless, if_pos nameless]
        rfl
      · rw [if_neg nameless, if_neg nameless]
        rfl

end Flag

/-- An entry describes a flag whenever its identifier can be read. -/
theorem FlagEntry.exists_flag_iff {identifier : String} {entry : FlagEntry} :
    (∃ flag, entry.flag identifier = .ok flag) ↔ Flag.IsIdentifier identifier := by
  unfold Flag.IsIdentifier
  cases entry with
  | description text =>
    rw [FlagEntry.flag, Flag.parse_eq_map]
    cases Flag.parse identifier "" <;> simp [Except.map]
  | extended text nargs =>
    rw [FlagEntry.flag, Flag.parse_eq_map]
    cases Flag.parse identifier "" <;> simp [Except.map, bind, Except.bind, pure, Except.pure]

/-- What a flag set with these capabilities can express. -/
structure Capabilities.Allows (capabilities : Capabilities) (flag : Flag) : Prop where
  longShorthand : capabilities.longShorthand = false → flag.shorthand.length ≤ 1
  shorthandOnly : capabilities.shorthandOnly = false → flag.longhand ≠ ""
  nargs : capabilities.nargs = false → flag.nargs = 0

namespace FlagSet

variable {set : FlagSet} {flag : Flag}

theorem lookup_eq_none_iff {name : String} :
    set.lookup name = none ↔ name ∉ set.flags.map Flag.name := by
  simp [lookup]

theorem objection_eq_none_iff : set.objection flag = none ↔
    set.capabilities.Allows flag ∧ flag.name ∉ set.flags.map Flag.name := by
  rw [← lookup_eq_none_iff]
  simp only [objection, ite_some_eq_none_iff]
  constructor
  · rintro ⟨short, long, single, fresh, _⟩
    refine ⟨⟨?_, ?_, ?_⟩, by simpa using fresh⟩
    · intro lacks
      exact Nat.le_of_not_lt fun many => short ⟨many, lacks⟩
    · intro lacks nameless
      exact long ⟨nameless, lacks⟩
    · intro lacks
      exact Decidable.not_not.mp fun several => single ⟨several, lacks⟩
  · rintro ⟨allows, fresh⟩
    refine ⟨?_, ?_, ?_, by simp [fresh], trivial⟩
    · rintro ⟨many, lacks⟩
      exact Nat.not_lt_of_le (allows.longShorthand lacks) many
    · rintro ⟨nameless, lacks⟩
      exact allows.shorthandOnly lacks nameless
    · rintro ⟨several, lacks⟩
      exact several (allows.nargs lacks)

theorem add_eq_ok_iff {larger : FlagSet} : set.add flag = .ok larger ↔
    set.capabilities.Allows flag ∧ flag.name ∉ set.flags.map Flag.name ∧
      larger = { set with flags := set.flags ++ [flag] } := by
  rw [← and_assoc, ← objection_eq_none_iff]
  unfold add
  cases set.objection flag with
  | none => simp [eq_comm]
  | some fault => simp

end FlagSet

namespace CommandSpec

/-- The flags that entries describe, those apart whose identifiers cannot be read. -/
def described (entries : OrderedMap FlagEntry) : List Flag :=
  entries.entries.filterMap fun (identifier, entry) => (entry.flag identifier).toOption

/-- Entries that describe flags of a set with these capabilities, besides other flags with names. -/
structure Binds (capabilities : Capabilities) (others : List Flag) (entries : OrderedMap FlagEntry) :
    Prop where
  identifiers : ∀ identifier ∈ entries.keys, Flag.IsIdentifier identifier
  allowed : ∀ flag ∈ described entries, capabilities.Allows flag
  distinct : ((others ++ described entries).map Flag.name).Nodup

/-- The flags of a set, if there is one. -/
def flagsOf (set : Option FlagSet) : List Flag := (set.map FlagSet.flags).getD []

variable {capabilities : Capabilities} {siblings : Option FlagSet}

theorem lookup_siblings_eq_none_iff {name : String} :
    siblings.bind (·.lookup name) = none ↔ name ∉ (flagsOf siblings).map Flag.name := by
  cases siblings with
  | none => simp [flagsOf]
  | some set => exact FlagSet.lookup_eq_none_iff

theorem nodup_concat_iff {others : List Flag} {flag : Flag} :
    ((others ++ [flag]).map Flag.name).Nodup ↔
      (others.map Flag.name).Nodup ∧ flag.name ∉ others.map Flag.name := by
  rw [((List.perm_append_singleton flag others).map Flag.name).nodup_iff, List.map_cons,
    List.nodup_cons, and_comm]

theorem Binds.others {others : List Flag} {entries : OrderedMap FlagEntry}
    (binds : Binds capabilities others entries) : (others.map Flag.name).Nodup :=
  binds.distinct.sublist ((List.sublist_append_left _ _).map _)

theorem described_cons {identifier : String} {entry : FlagEntry} {flag : Flag}
    (read : entry.flag identifier = .ok flag) (rest : List (String × FlagEntry)) :
    described ⟨(identifier, entry) :: rest⟩ = flag :: described ⟨rest⟩ := by
  simp [described, read, Except.toOption]

theorem binds_nil_iff {others : List Flag} :
    Binds capabilities others ⟨[]⟩ ↔ (others.map Flag.name).Nodup := by
  constructor
  · intro binds
    simpa [described] using binds.distinct
  · intro distinct
    exact ⟨by simp [OrderedMap.keys], by simp [described], by simpa [described] using distinct⟩

/-- The first entry is bound in front of the others. -/
theorem binds_cons_iff {others : List Flag} {identifier : String} {entry : FlagEntry}
    {rest : List (String × FlagEntry)} :
    Binds capabilities others ⟨(identifier, entry) :: rest⟩ ↔
      ∃ flag, entry.flag identifier = .ok flag ∧ capabilities.Allows flag ∧
        Binds capabilities (others ++ [flag]) ⟨rest⟩ := by
  constructor
  · intro binds
    obtain ⟨first, later⟩ := List.forall_mem_cons.mp binds.identifiers
    obtain ⟨flag, read⟩ : ∃ flag, entry.flag identifier = .ok flag :=
      FlagEntry.exists_flag_iff.mpr first
    have whole := described_cons read rest
    obtain ⟨allows, allowed⟩ := List.forall_mem_cons.mp (whole ▸ binds.allowed)
    refine ⟨flag, read, allows, later, allowed, ?_⟩
    simpa [whole] using binds.distinct
  · rintro ⟨flag, read, allows, binds⟩
    have whole := described_cons read rest
    refine ⟨?_, ?_, ?_⟩
    · exact List.forall_mem_cons.mpr
        ⟨FlagEntry.exists_flag_iff.mp ⟨flag, read⟩, binds.identifiers⟩
    · rw [whole]
      exact List.forall_mem_cons.mpr ⟨allows, binds.allowed⟩
    · simpa [whole] using binds.distinct

/-- One step of making up a flag set. -/
def addEntry (siblings : Option FlagSet) (set : FlagSet) (entry : String × FlagEntry) :
    Except SpecFault FlagSet := do
  let flag ← entry.2.flag entry.1
  if (siblings.bind (·.lookup flag.name)).isSome then throw (.binding (.redefined flag.name))
  set.add flag

theorem addEntry_eq_ok_iff {set larger : FlagSet} {identifier : String} {entry : FlagEntry} :
    addEntry siblings set (identifier, entry) = .ok larger ↔
      ∃ flag, entry.flag identifier = .ok flag ∧ set.capabilities.Allows flag ∧
        flag.name ∉ (flagsOf siblings ++ set.flags).map Flag.name ∧
        larger = { set with flags := set.flags ++ [flag] } := by
  unfold addEntry
  rw [bind_eq_ok_iff]
  refine exists_congr fun flag => and_congr_right fun _ => ?_
  have other : siblings.bind (·.lookup flag.name) = none ↔
      flag.name ∉ (flagsOf siblings).map Flag.name := lookup_siblings_eq_none_iff
  cases found : siblings.bind (·.lookup flag.name) with
  | none =>
    have apart := other.mp found
    refine Iff.trans FlagSet.add_eq_ok_iff (and_congr_right fun _ => and_congr_left fun _ => ?_)
    simp [List.map_append, List.mem_append, apart]
  | some taken =>
    have clash : flag.name ∈ (flagsOf siblings).map Flag.name := by
      refine Decidable.not_not.mp fun apart => ?_
      rw [other.mpr apart] at found
      cases found
    refine iff_of_false (fun added => by cases added) ?_
    rintro ⟨_, fresh, _⟩
    rw [List.map_append, List.mem_append, not_or] at fresh
    exact fresh.1 clash

/-- Going on to make up a flag set: the flags that are added must be bound besides those in the set
and the siblings. -/
theorem foldlM_addEntry_eq_ok_iff {entries : List (String × FlagEntry)} {start set : FlagSet}
    (apart : ((flagsOf siblings ++ start.flags).map Flag.name).Nodup) :
    entries.foldlM (addEntry siblings) start = .ok set ↔
      Binds start.capabilities (flagsOf siblings ++ start.flags) ⟨entries⟩ ∧
        set = { start with flags := start.flags ++ described ⟨entries⟩ } := by
  -- A flag that was added counts among those besides which the rest is bound.
  induction entries generalizing start with
  | nil =>
    simp only [List.foldlM_nil, binds_nil_iff, apart, true_and, described, List.filterMap_nil,
      List.append_nil]
    exact ⟨fun done => (Except.ok.inj done).symm, fun same => congrArg Except.ok same.symm⟩
  | cons entry rest ih =>
    obtain ⟨identifier, entry⟩ := entry
    rw [List.foldlM_cons, bind_eq_ok_iff, binds_cons_iff]
    constructor
    · rintro ⟨larger, added, more⟩
      obtain ⟨flag, read, allows, fresh, rfl⟩ := addEntry_eq_ok_iff.mp added
      have distinct := nodup_concat_iff.mpr ⟨apart, fresh⟩
      rw [List.append_assoc] at distinct
      obtain ⟨binds, rfl⟩ := (ih distinct).mp more
      rw [← List.append_assoc] at binds
      exact ⟨⟨flag, read, allows, binds⟩, by simp [described_cons read]⟩
    · rintro ⟨⟨flag, read, allows, binds⟩, rfl⟩
      have distinct := binds.others
      have fresh := (nodup_concat_iff.mp distinct).2
      rw [List.append_assoc] at distinct binds
      refine ⟨_, addEntry_eq_ok_iff.mpr ⟨flag, read, allows, fresh, rfl⟩, ?_⟩
      exact (ih distinct).mpr ⟨binds, by simp [described_cons read]⟩

/-- Entries make up a flag set exactly when they describe flags that can be bound besides the
siblings, and the set is made of those flags in order. -/
theorem flagSet_eq_ok_iff {entries : OrderedMap FlagEntry} {set : FlagSet}
    (distinct : ((flagsOf siblings).map Flag.name).Nodup) :
    flagSet capabilities siblings entries = .ok set ↔
      Binds capabilities (flagsOf siblings) entries ∧ set = ⟨described entries, capabilities⟩ := by
  have apart : ((flagsOf siblings ++ (FlagSet.empty capabilities).flags).map Flag.name).Nodup := by
    simpa [FlagSet.empty] using distinct
  have folded : entries.entries.foldlM (addEntry siblings) (.empty capabilities) = .ok set ↔ _ :=
    foldlM_addEntry_eq_ok_iff apart
  simp only [FlagSet.empty, List.append_nil, List.nil_append] at folded
  exact folded

theorem flagSet_none_eq_ok_iff {entries : OrderedMap FlagEntry} {set : FlagSet} :
    flagSet capabilities none entries = .ok set ↔
      Binds capabilities [] entries ∧ set = ⟨described entries, capabilities⟩ :=
  flagSet_eq_ok_iff List.nodup_nil

theorem flagSet_some_eq_ok_iff {others : FlagSet} {entries : OrderedMap FlagEntry} {set : FlagSet}
    (distinct : (others.flags.map Flag.name).Nodup) :
    flagSet capabilities (some others) entries = .ok set ↔
      Binds capabilities others.flags entries ∧ set = ⟨described entries, capabilities⟩ :=
  flagSet_eq_ok_iff distinct

end CommandSpec

end TabSpec

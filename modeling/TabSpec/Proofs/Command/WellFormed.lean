import TabSpec.Proofs.Command.Assembly
import TabSpec.Proofs.Flag.Binding

/-! Which specifications can be assembled, and how the persistent flags of a command reach the
commands below it. -/
namespace TabSpec

/-! ### Places in a tree -/

/-- The node at a path of child positions, with the nodes above it from the root on. -/
def nodeAt? {Node : Type} (children : Node → List Node) (root : Node) :
    (path : List Nat) → Option (List Node × Node)
  | [] => some ([], root)
  | index :: path =>
    match (children root)[index]? with
    | some child => (nodeAt? children child path).map fun (above, node) => (root :: above, node)
    | none => none

/-- What holds at every place of a tree holds at its root and at every place below its children. -/
theorem forall_nodeAt?_iff {Node : Type} {children : Node → List Node} {root : Node}
    {holds : List Node → Node → Prop} :
    (∀ path above node, nodeAt? children root path = some (above, node) → holds above node) ↔
      holds [] root ∧ ∀ child ∈ children root, ∀ path above node,
        nodeAt? children child path = some (above, node) → holds (root :: above) node := by
  constructor
  · intro everywhere
    refine ⟨everywhere [] [] root rfl, ?_⟩
    intro child member path above node found
    obtain ⟨index, place⟩ := List.getElem?_of_mem member
    exact everywhere (index :: path) (root :: above) node (by simp [nodeAt?, place, found])
  · rintro ⟨here, below⟩ path above node found
    cases path with
    | nil =>
      obtain ⟨rfl, rfl⟩ := Prod.mk.inj (Option.some.inj found)
      exact here
    | cons index path =>
      simp only [nodeAt?] at found
      split at found
      · rename_i child place
        obtain ⟨⟨later, last⟩, further, same⟩ := Option.map_eq_some_iff.mp found
        obtain ⟨rfl, rfl⟩ := Prod.mk.inj same
        exact below child (List.mem_of_getElem? place) path later last further
      · cases found

theorem Command.isNone_lookupFlag_iff {command : Command} {name : String} :
    (command.lookupFlag name).isNone = true ↔ ¬ ∃ flag ∈ command.allFlags, flag.name = name := by
  simp [lookupFlag]

namespace CommandSpec

/-! ### Nodes -/

/-- All flags that a specification describes at its root. -/
def declared (spec : CommandSpec) : List Flag := described spec.flags ++ described spec.persistentFlags

/-- A node of a specification that can be made a command below these inherited flags. -/
structure WellFormed (capabilities : Capabilities) (inherited : List Flag) (spec : CommandSpec) :
    Prop where
  identifiers : ∀ identifier ∈ spec.flags.keys ++ spec.persistentFlags.keys,
    Flag.IsIdentifier identifier
  allowed : ∀ flag ∈ spec.declared, capabilities.Allows flag
  distinct : (spec.declared.map Flag.name).Nodup
  members : ∀ group ∈ spec.exclusiveFlags, ∀ member ∈ group,
    ∃ flag ∈ spec.declared ++ inherited, flag.name = member

variable {registry : Registry} {capabilities : Capabilities} {inherited : Inheritance}
  {spec : CommandSpec} {command : Command}

theorem binds_both_iff :
    Binds capabilities [] spec.flags ∧
      Binds capabilities (described spec.flags) spec.persistentFlags ↔
    (∀ identifier ∈ spec.flags.keys ++ spec.persistentFlags.keys,
      Flag.IsIdentifier identifier) ∧
    (∀ flag ∈ spec.declared, capabilities.Allows flag) ∧ (spec.declared.map Flag.name).Nodup := by
  constructor
  · rintro ⟨own, persistent⟩
    refine ⟨?_, ?_, persistent.distinct⟩
    · exact List.forall_mem_append.mpr ⟨own.identifiers, persistent.identifiers⟩
    · exact List.forall_mem_append.mpr ⟨own.allowed, persistent.allowed⟩
  · rintro ⟨identifiers, allowed, distinct⟩
    obtain ⟨ownRead, persistentRead⟩ := List.forall_mem_append.mp identifiers
    obtain ⟨ownAllowed, persistentAllowed⟩ := List.forall_mem_append.mp allowed
    have ownDistinct := distinct.sublist ((List.sublist_append_left _ _).map _)
    exact ⟨⟨ownRead, ownAllowed, ownDistinct⟩, ⟨persistentRead, persistentAllowed, distinct⟩⟩

/-- What a node takes over from its specification and from above. -/
structure Wires (spec : CommandSpec) (inherited : List Flag) (command : Command) : Prop where
  name : command.name = spec.name
  aliases : command.aliases = spec.aliases
  flags : command.flags.flags = described spec.flags
  persistentFlags : command.persistentFlags.flags = described spec.persistentFlags
  inheritedFlags : command.inheritedFlags = inherited

/-- A node that is made has what it needs, and takes over what it should. -/
theorem of_node_eq_ok (made : node registry capabilities inherited spec = .ok command) :
    spec.WellFormed capabilities inherited.flags ∧ spec.Wires inherited.flags command := by
  unfold node at made
  obtain ⟨flags, own, made⟩ := bind_eq_ok_iff.mp made
  obtain ⟨persistentFlags, persistent, made⟩ := bind_eq_ok_iff.mp made
  obtain ⟨ownBinds, rfl⟩ := flagSet_none_eq_ok_iff.mp own
  obtain ⟨persistentBinds, rfl⟩ := (flagSet_some_eq_ok_iff ownBinds.distinct).mp persistent
  obtain ⟨identifiers, allowed, distinct⟩ := binds_both_iff.mp ⟨ownBinds, persistentBinds⟩
  dsimp only at made
  split at made
  · cases made
  · rename_i known
    obtain rfl := Except.ok.inj made
    refine ⟨⟨identifiers, allowed, distinct, ?_⟩, ⟨rfl, rfl, rfl, rfl, rfl⟩⟩
    intro group listed member inside
    have found := List.find?_eq_none.mp known member (List.mem_flatten.mpr ⟨group, listed, inside⟩)
    exact Decidable.not_not.mp fun missing => found (Command.isNone_lookupFlag_iff.mpr missing)

theorem WellFormed.exists_node (wellFormed : spec.WellFormed capabilities inherited.flags) :
    ∃ command, node registry capabilities inherited spec = .ok command := by
  obtain ⟨own, persistent⟩ :=
    binds_both_iff.mpr ⟨wellFormed.identifiers, wellFormed.allowed, wellFormed.distinct⟩
  unfold node
  rw [flagSet_none_eq_ok_iff.mpr ⟨own, rfl⟩]
  dsimp only [bind, Except.bind]
  rw [(flagSet_some_eq_ok_iff own.distinct).mpr ⟨persistent, rfl⟩]
  dsimp only
  split
  · rename_i unknown found
    have missing := List.find?_some found
    obtain ⟨group, listed, inside⟩ := List.mem_flatten.mp (List.mem_of_find?_eq_some found)
    exact absurd (wellFormed.members group listed unknown inside)
      (Command.isNone_lookupFlag_iff.mp missing)
  · exact ⟨_, rfl⟩

/-! ### Trees -/

/-- A command can be assembled when its node can be made and its subcommands can be assembled from
what the node hands on. -/
theorem exists_assemble_iff :
    (∃ command, (assemble registry capabilities inherited spec).run.value = .ok command) ↔
      ∃ bare, node registry capabilities inherited spec = .ok bare ∧
        ∃ commands, (assembleAll registry capabilities
          (bequest inherited (spec.declaredMode inherited.parsing) bare)
          spec.commands).run.value = .ok commands := by
  constructor
  · rintro ⟨command, assembled⟩
    obtain ⟨bare, isNode, below, _⟩ := assemble_eq_ok assembled
    exact ⟨bare, isNode, command.commands, below⟩
  · rintro ⟨bare, isNode, commands, below⟩
    cases spec
    unfold assemble
    exact ⟨_, Traced.run_bind_eq_ok_iff.mpr ⟨bare, isNode,
      Traced.run_bind_eq_ok_iff.mpr ⟨(), rfl,
        Traced.run_bind_eq_ok_iff.mpr ⟨commands, below, rfl⟩⟩⟩⟩

theorem exists_assembleAll_iff {specs : List CommandSpec} :
    (∃ commands, (assembleAll registry capabilities inherited specs).run.value = .ok commands) ↔
      ∀ spec ∈ specs,
        ∃ command, (assemble registry capabilities inherited spec).run.value = .ok command := by
  induction specs with
  | nil => exact ⟨fun _ => by simp, fun _ => ⟨[], rfl⟩⟩
  | cons spec rest ih =>
    rw [List.forall_mem_cons, ← ih]
    constructor
    · rintro ⟨commands, assembled⟩
      obtain ⟨first, others, _, one, more⟩ := assembleAll_cons_eq_ok assembled
      exact ⟨⟨first, one⟩, others, more⟩
    · rintro ⟨⟨first, one⟩, others, more⟩
      unfold assembleAll
      exact ⟨first :: others, Traced.run_bind_eq_ok_iff.mpr ⟨first, one,
        Traced.run_bind_eq_ok_iff.mpr ⟨others, more, rfl⟩⟩⟩

/-- Whether a tree can be assembled is told by its nodes, each with the flags that come down to it. -/
theorem exists_assemble_iff_wellFormed (registry : Registry) (capabilities : Capabilities)
    (spec : CommandSpec) (inherited : Inheritance) :
    (∃ command, (assemble registry capabilities inherited spec).run.value = .ok command) ↔
      ∀ path above place, nodeAt? commands spec path = some (above, place) →
        place.WellFormed capabilities
          (inherited.flags ++ above.flatMap fun spec => described spec.persistentFlags) := by
  -- More than flags is handed on, but only the flags tell what can be assembled below. So the
  -- recursion is into the children, for every inheritance.
  have below (bare : Command)
      (handsOn : bare.persistentFlags.flags = described spec.persistentFlags) :
      (∃ commands, (assembleAll registry capabilities
        (bequest inherited (spec.declaredMode inherited.parsing) bare)
        spec.commands).run.value = .ok commands) ↔
      ∀ child ∈ spec.commands, ∀ path above place,
        nodeAt? commands child path = some (above, place) →
          place.WellFormed capabilities (inherited.flags ++
            (spec :: above).flatMap fun spec => described spec.persistentFlags) := by
    rw [exists_assembleAll_iff]
    refine forall_congr' fun child => forall_congr' fun member => ?_
    rw [exists_assemble_iff_wellFormed registry capabilities child]
    simp only [bequest, handsOn, List.flatMap_cons, List.append_assoc]
  rw [exists_assemble_iff, forall_nodeAt?_iff]
  simp only [List.flatMap_nil, List.append_nil]
  constructor
  · rintro ⟨bare, isNode, children⟩
    obtain ⟨wellFormed, wires⟩ := of_node_eq_ok isNode
    exact ⟨wellFormed, (below bare wires.persistentFlags).mp children⟩
  · rintro ⟨wellFormed, children⟩
    obtain ⟨bare, isNode⟩ := wellFormed.exists_node
    exact ⟨bare, isNode, (below bare (of_node_eq_ok isNode).2.persistentFlags).mpr children⟩
termination_by sizeOf spec
decreasing_by
  have smaller := List.sizeOf_lt_of_mem member
  cases spec
  simp only [CommandSpec.mk.sizeOf_spec] at *
  omega

/-- The subcommands are assembled one by one, in their order. -/
theorem rel_getElem?_of_assembleAll {specs : List CommandSpec} {commands : List Command}
    (assembled : (assembleAll registry capabilities inherited specs).run.value = .ok commands)
    (index : Nat) :
    Option.Rel (fun spec command =>
      (assemble registry capabilities inherited spec).run.value = .ok command)
      specs[index]? commands[index]? := by
  induction specs generalizing commands index with
  | nil =>
    obtain rfl := Except.ok.inj assembled
    exact .none
  | cons spec rest ih =>
    obtain ⟨first, others, rfl, one, more⟩ := assembleAll_cons_eq_ok assembled
    cases index with
    | zero => exact .some one
    | succ index => exact ih more index

/-- Every place of a specification becomes the same place of the command. What each node has from
what is handed to it, and what a place below a node has from what the node hands on, all places have. -/
theorem rel_nodeAt?_induction
    (related : Inheritance → List CommandSpec × CommandSpec → List Command × Command → Prop)
    (here : ∀ {inherited spec command bare}, node registry capabilities inherited spec = .ok bare →
      command = { bare with groups := command.groups, commands := command.commands } →
      related inherited ([], spec) ([], command))
    (below : ∀ {inherited spec command bare place built},
      node registry capabilities inherited spec = .ok bare →
      command = { bare with groups := command.groups, commands := command.commands } →
      related (bequest inherited (spec.declaredMode inherited.parsing) bare) place built →
      related inherited (spec :: place.1, place.2) (command :: built.1, built.2))
    (path : List Nat)
    (assembled : (assemble registry capabilities inherited spec).run.value = .ok command) :
    Option.Rel (related inherited) (nodeAt? commands spec path)
      (nodeAt? Command.commands command path) := by
  induction path generalizing spec command inherited with
  | nil =>
    obtain ⟨bare, isNode, _, whole⟩ := assemble_eq_ok assembled
    exact .some (here isNode whole)
  | cons index path ih =>
    obtain ⟨bare, isNode, children, whole⟩ := assemble_eq_ok assembled
    have reached := rel_getElem?_of_assembleAll children index
    simp only [nodeAt?]
    generalize spec.commands[index]? = child at reached ⊢
    generalize command.commands[index]? = built at reached ⊢
    cases reached with
    | none => exact .none
    | some assembledChild =>
      rename_i child built
      have further := ih assembledChild
      dsimp only
      generalize nodeAt? commands child path = place at further ⊢
      generalize nodeAt? Command.commands built path = other at further ⊢
      cases further with
      | none => exact .none
      | some relates => exact .some (below isNode whole relates)

/-- Every place of the specification becomes the same place of the command, wired to what it
describes and to the persistent flags of the commands above it. -/
theorem rel_nodeAt?_of_assemble (path : List Nat)
    (assembled : (assemble registry capabilities inherited spec).run.value = .ok command) :
    Option.Rel (fun place built => place.2.Wires
        (inherited.flags ++ built.1.flatMap fun command => command.persistentFlags.flags) built.2)
      (nodeAt? commands spec path) (nodeAt? Command.commands command path) := by
  refine rel_nodeAt?_induction (fun inherited place built => place.2.Wires
    (inherited.flags ++ built.1.flatMap fun command => command.persistentFlags.flags) built.2)
    ?_ ?_ path assembled
  · intro inherited spec command bare isNode whole
    obtain ⟨name, aliases, flags, persistentFlags, inheritedFlags⟩ := (of_node_eq_ok isNode).2
    rw [whole]
    exact ⟨name, aliases, flags, persistentFlags, by simpa using inheritedFlags⟩
  · intro inherited spec command bare place built _ whole wires
    have handsOn : bare.persistentFlags = command.persistentFlags := by rw [whole]
    simpa [bequest, handsOn] using wires

/-- A tree can be assembled exactly when each of its nodes is well-formed below the persistent flags
that are described above it. The command has the same places as the specification, and at each place
the names and flags that are described there; it inherits the persistent flags of the commands above
it, from the root down to its parent. -/
theorem build_eq_ok_iff_wellFormed (registry : Registry) (capabilities : Capabilities)
    (spec : CommandSpec) :
    ((∃ command, (spec.build registry capabilities).value = .ok command) ↔
      ∀ path above place, nodeAt? commands spec path = some (above, place) →
        place.WellFormed capabilities
          (above.flatMap fun spec => described spec.persistentFlags)) ∧
    ∀ command, (spec.build registry capabilities).value = .ok command → ∀ path,
      Option.Rel (fun place built => place.2.Wires
          (built.1.flatMap fun command => command.persistentFlags.flags) built.2)
        (nodeAt? commands spec path) (nodeAt? Command.commands command path) := by
  constructor
  · have tree := exists_assemble_iff_wellFormed registry capabilities spec noInheritance
    simp only [noInheritance, List.nil_append] at tree
    exact tree
  · intro command built path
    have wired := rel_nodeAt?_of_assemble path built
    simpa [noInheritance] using wired

/-- A subcommand that excludes one of its flags and one that it inherits. -/
def Sample.layered : CommandSpec :=
  { empty with
    name := "tool"
    persistentFlags := .ofList [("-v, --verbose", .description "")]
    commands := [{ empty with
      name := "sub"
      flags := .ofList [("--level", .extended "" 2)]
      exclusiveFlags := [["level", "verbose"]] }] }

/-- The layered tree is assembled, so its subcommand is well-formed below the flag that the root
hands on, and this flag is what the assembled subcommand inherits. -/
theorem build_eq_ok_iff_wellFormed_sample :
    ∃ command, (Sample.layered.build (.empty "tool") .extended).value = .ok command ∧
      (∀ place, nodeAt? commands Sample.layered [0] = some ([Sample.layered], place) →
        place.WellFormed .extended (described Sample.layered.persistentFlags)) ∧
      ∃ above sub, nodeAt? Command.commands command [0] = some (above, sub) ∧
        sub.name = "sub" ∧ sub.inheritedFlags =
          above.flatMap fun command => command.persistentFlags.flags := by
  have built : (Sample.layered.build (.empty "tool") .extended).value.toOption.any
      (fun _ => true) = true := by
    decide +kernel
  obtain ⟨command, succeeds, _⟩ := exists_of_toOption_any built
  obtain ⟨wellFormed, wired⟩ :=
    build_eq_ok_iff_wellFormed (.empty "tool") .extended Sample.layered
  refine ⟨command, succeeds, ?_, ?_⟩
  · intro place found
    simpa using wellFormed.mp ⟨command, succeeds⟩ [0] _ place found
  · have sub := wired command succeeds [0]
    have found : nodeAt? commands Sample.layered [0] = some ([Sample.layered], _) := rfl
    rw [found] at sub
    generalize nodeAt? Command.commands command [0] = reached at sub ⊢
    cases sub with
    | some wires => exact ⟨_, _, rfl, wires.name, wires.inheritedFlags⟩

end CommandSpec
end TabSpec

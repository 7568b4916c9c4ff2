import TabSpec.CoreMacros
import TabSpec.Proofs.Call
import TabSpec.Proofs.Outcome
import TabSpec.Proofs.Substitution

/-! Calls of the program's own macros. They carry one of two marks, the program's name with a dot or `_.`.
The name that such a call is read with settles what the registry is asked for, so what is inferred of a
call agrees with what it is resolved to, both marks count the same, and no call depends on a macro of the
program that it does not call. -/
namespace TabSpec

namespace Registry

/-- The name under which the registry is asked for what a call names: the program's name stands for the
mark of its own macros. -/
def knownName (registry : Registry) (name : String) : String :=
  if registry.program = "" then name
  else
    match Text.stripFront? (registry.program ++ ".") name with
    | some rest => customFront ++ rest
    | none => name

variable {registry : Registry}

theorem knownName_own (filled : registry.program ≠ "") (name : String) :
    registry.knownName (registry.program ++ "." ++ name) = customFront ++ name := by
  have stripped : Text.stripFront? (registry.program ++ ".") (registry.program ++ "." ++ name) =
      some name :=
    Text.stripFront?_append ..
  rw [knownName, if_neg filled, stripped]

/-- The registry is asked for the name of a call, unless the program's name stands in front of it. -/
theorem knownName_cases (registry : Registry) (name : String) :
    registry.knownName name = name ∨ registry.program ≠ "" ∧
      ∃ rest, name = registry.program ++ "." ++ rest ∧ registry.knownName name = customFront ++ rest := by
  by_cases nameless : registry.program = ""
  · exact .inl (if_pos nameless)
  rw [knownName, if_neg nameless]
  cases marked : Text.stripFront? (registry.program ++ ".") name with
  | none => exact .inl rfl
  | some rest => exact .inr ⟨nameless, rest, Text.eq_of_stripFront? marked, rfl⟩

theorem parse_own_eq_ok_iff (plain : '(' ∉ registry.program.toList) {rest name argument : String} :
    Call.parse ("$" ++ registry.program ++ "." ++ rest) = .ok (name, argument) ↔
      ∃ given, registry.program ++ "." ++ given = name ∧
        Call.parse ("$" ++ rest) = .ok (given, argument) := by
  have front : '(' ∉ (registry.program ++ ".").toList := by simpa using plain
  have whole : "$" ++ registry.program ++ "." ++ rest = "$" ++ (registry.program ++ ".") ++ rest := by
    simp only [String.append_assoc]
  rw [whole, Call.parse_append_eq_ok_iff front]

/-- A call that is made local has the name that the registry knows, and its argument. -/
theorem parse_localCall_eq_ok_iff (plain : '(' ∉ registry.program.toList)
    {call known argument : String} :
    Call.parse (registry.localCall call) = .ok (known, argument) ↔
      ∃ name, registry.knownName name = known ∧ Call.parse call = .ok (name, argument) := by
  by_cases nameless : registry.program = ""
  · simp [localCall, knownName, nameless]
  rw [localCall, if_neg nameless]
  have custom : '(' ∉ customFront.toList := by decide
  cases own : Text.stripFront? ("$" ++ registry.program ++ ".") call with
  | some rest =>
    obtain rfl := Text.eq_of_stripFront? own
    simp only [parse_own_eq_ok_iff plain, Call.parse_append_eq_ok_iff custom]
    constructor
    · rintro ⟨given, rfl, read⟩
      exact ⟨_, knownName_own nameless given, given, rfl, read⟩
    · rintro ⟨_, rfl, given, rfl, read⟩
      exact ⟨given, (knownName_own nameless given).symm, read⟩
  | none =>
    have same {name : String} (read : Call.parse call = .ok (name, argument)) :
        registry.knownName name = name := by
      refine (registry.knownName_cases name).resolve_right ?_
      rintro ⟨_, behind, rfl, _⟩
      obtain ⟨back, rfl⟩ := Call.exists_eq_append_of_parse read
      have marked : "$" ++ (registry.program ++ "." ++ behind) ++ back =
          "$" ++ registry.program ++ "." ++ (behind ++ back) := by
        simp only [String.append_assoc]
      rw [marked, Text.stripFront?_append] at own
      cases own
    constructor
    · exact fun read => ⟨known, same read, read⟩
    · rintro ⟨name, rfl, read⟩
      rwa [same read]

theorem lookup_localCall_eq_ok_iff (plain : '(' ∉ registry.program.toList) {call : String}
    {entry : Macro} :
    registry.lookup (registry.localCall call) = .ok entry ↔
      ∃ name argument, Call.parse call = .ok (name, argument) ∧
        registry.get? (registry.knownName name) = some entry := by
  have opened : registry.lookup (registry.localCall call) = .ok entry ↔
      ∃ known argument, Call.parse (registry.localCall call) = .ok (known, argument) ∧
        registry.get? known = some entry := by
    rw [lookup, bind_eq_ok_iff, Prod.exists]
    refine exists_congr fun known => exists_congr fun argument => and_congr_right fun _ => ?_
    cases found : registry.get? known with
    | none => simp [found]
    | some other => simp [found, pure, Except.pure]
  rw [opened]
  simp only [parse_localCall_eq_ok_iff plain]
  constructor
  · rintro ⟨_, argument, ⟨name, rfl, read⟩, found⟩
    exact ⟨name, argument, read, found⟩
  · rintro ⟨name, argument, read, found⟩
    exact ⟨_, argument, ⟨name, rfl, read⟩, found⟩

/-- The names of all macros but the program's own hold no dot and begin with no underscore. -/
def PlainCore (registry : Registry) : Prop :=
  ∀ name entry, registry.get? name = some entry → Text.startsWith customFront name = false →
    Text.contains "." name = false ∧ Text.startsWith "_" name = false

theorem PlainCore.addCustom (core : registry.PlainCore) (name : String) (entry : Macro) :
    (registry.addCustom name entry).PlainCore := by
  intro other found known foreign
  have told : (registry.macros.insert (customFront ++ name) entry).get? other = some found := known
  rw [OrderedMap.get?_insert] at told
  split at told
  · rename_i same
    have own : Text.startsWith customFront other = true :=
      Text.startsWith_iff.mpr ⟨name.toList, by simp [← same]⟩
    rw [own] at foreign
    cases foreign
  · exact core other found told foreign

theorem plainCore_withCore (program : String) : (withCore program).PlainCore := by
  intro name entry found _
  rw [withCore_eq] at found
  have names : ∀ name ∈ coreMacros.map (·.1),
      Text.contains "." name = false ∧ Text.startsWith "_" name = false := by
    decide +kernel
  exact names name (List.mem_map.mpr ⟨_, OrderedMap.mem_of_get?_ofList found, rfl⟩)

end Registry

namespace Expression

variable {registry : Registry}

theorem Addressee.eq_localCall {call name known : String}
    (addressed : of registry call name = .registry known) : known = registry.localCall call := by
  unfold of at addressed
  dsimp only at addressed
  split at addressed
  · cases addressed
  · split at addressed
    · split at addressed
      · cases addressed
      · exact (Addressee.registry.inj addressed).symm
    · exact (Addressee.registry.inj addressed).symm

/-- A call is dispatched to a macro: it is for the registry, which knows the macro by the call. -/
def Dispatches (registry : Registry) (head : String) (entry : Macro) : Prop :=
  ∃ name argument known, Call.parse head = .ok (name, argument) ∧
    Addressee.of registry head name = .registry known ∧ registry.lookup known = .ok entry

/-- What a dispatched call stands for is up to the macro. -/
theorem Dispatches.exists_resolve_eq {head : String} {entry : Macro}
    (dispatches : Dispatches registry head entry) :
    ∃ argument, ∀ nested, resolve registry nested head = entry.action nested argument := by
  obtain ⟨name, argument, known, parsed, addressed, found⟩ := dispatches
  obtain ⟨⟨asked, given⟩, read, _⟩ := bind_eq_ok_iff.mp found
  refine ⟨given, fun nested => ?_⟩
  simp only [resolve, parsed, addressed, Registry.actionOf, found, read, bind, Except.bind]

/-- A call is dispatched exactly where the registry knows it once it is made local. -/
theorem dispatches_iff (core : registry.PlainCore)
    (named : Text.startsWith "_" registry.program = false)
    (plain : '(' ∉ registry.program.toList) {head : String} {entry : Macro} :
    Dispatches registry head entry ↔ registry.lookup (registry.localCall head) = .ok entry := by
  constructor
  · rintro ⟨name, argument, known, parsed, addressed, found⟩
    rwa [Addressee.eq_localCall addressed] at found
  · intro found
    obtain ⟨name, argument, parsed, known⟩ := (Registry.lookup_localCall_eq_ok_iff plain).mp found
    refine ⟨name, argument, registry.localCall head, parsed, ?_, found⟩
    rcases registry.knownName_cases name with same | ⟨filled, rest, rfl, _⟩
    · rw [same] at known
      cases custom : Text.startsWith Registry.customFront name with
      | true => simp [Addressee.of, custom]
      | false =>
        obtain ⟨undotted, current⟩ := core name entry known custom
        simp [Addressee.of, custom, undotted, current]
    · obtain ⟨back, rfl⟩ := Call.exists_eq_append_of_parse parsed
      have own : Text.startsWith ("$" ++ registry.program ++ ".")
          ("$" ++ (registry.program ++ "." ++ rest) ++ back) = true :=
        Text.startsWith_iff.mpr ⟨rest.toList ++ back.toList, by simp⟩
      have current : Text.startsWith "_" (registry.program ++ "." ++ rest) = false := by
        rw [String.append_assoc, Text.startsWith_append_of_ne filled rfl]
        exact named
      simp [Addressee.of, own, current, filled]

/-! ### Inference -/

/-- Which element makes a list take arguments as they are. -/
theorem takesRaw_eq_true_iff {elements : List String} :
    takesRaw registry elements = true ↔
      ∃ element ∈ elements, isCall (headAndModifiers element).1 = true ∧
        Modifier.ofCall? (headAndModifiers element).1 = none ∧
        ∃ entry, registry.lookup (registry.localCall (headAndModifiers element).1) = .ok entry ∧
          entry.raw = true := by
  rw [takesRaw, List.any_eq_true]
  refine exists_congr fun element => and_congr_right fun _ => ?_
  dsimp only
  by_cases called : isCall (headAndModifiers element).1 = true ∧
      Modifier.ofCall? (headAndModifiers element).1 = none
  · rw [if_pos (by simpa using called)]
    cases registry.lookup (registry.localCall (headAndModifiers element).1) <;> simp [called]
  · rw [if_neg (by simpa using called)]
    simpa using fun dollar unnamed => absurd ⟨dollar, unnamed⟩ called

/-- An element is a call with candidates when its head is a call, and of no modifier. -/
theorem ofFilled_eq_candidates_iff {text head : String} {modifiers : List String}
    (called : isCall head = true) :
    Element.ofFilled text = .candidates head modifiers ↔
      headAndModifiers text = (head, modifiers) ∧ Modifier.ofCall? head = none := by
  unfold Element.ofFilled
  dsimp only
  constructor
  · intro found
    split at found
    · cases found
    · rename_i candidates
      split at found
      · cases found
        refine ⟨rfl, Option.not_isSome_iff_eq_none.mp fun named => candidates ?_⟩
        rw [called, named]
        rfl
      · cases found
  · rintro ⟨both, unnamed⟩
    simp [both, called, unnamed]

/-- What is inferred of a list before it is evaluated agrees with its evaluation: arguments are taken as
they are exactly when some element is dispatched to a macro that asks for it. The elements hold no
placeholders, so each of them is what it is in every context. -/
theorem takesRaw_iff_dispatches (registry : Registry) (core : registry.PlainCore)
    (named : Text.startsWith "_" registry.program = false) (plain : '(' ∉ registry.program.toList)
    (context : Context) (elements : List String)
    (closed : ∀ element ∈ elements, Text.contains "$\x7b" element = false) :
    takesRaw registry elements = true ↔
      ∃ head modifiers entry, Element.candidates head modifiers ∈ elements.map (Element.of context) ∧
        isCall head = true ∧ Dispatches registry head entry ∧ entry.raw = true := by
  have filled : elements.map (Element.of context) = elements.map Element.ofFilled := by
    refine List.map_congr_left fun element member => ?_
    rw [Element.of, Context.substitute, Substitution.expand_of_closed _ (closed element member)]
  rw [takesRaw_eq_true_iff, filled]
  constructor
  · rintro ⟨element, member, called, unnamed, entry, found, raw⟩
    have candidates := (ofFilled_eq_candidates_iff called).mpr ⟨rfl, unnamed⟩
    exact ⟨_, _, entry, List.mem_map.mpr ⟨element, member, candidates⟩, called,
      (dispatches_iff core named plain).mpr found, raw⟩
  · rintro ⟨head, modifiers, entry, member, called, dispatches, raw⟩
    obtain ⟨element, inside, candidates⟩ := List.mem_map.mp member
    obtain ⟨both, unnamed⟩ := (ofFilled_eq_candidates_iff called).mp candidates
    obtain ⟨rfl, -⟩ := Prod.mk.inj both
    exact ⟨element, inside, called, unnamed, entry,
      (dispatches_iff core named plain).mp dispatches, raw⟩

namespace Sample

/-- A macro whose positions take arguments as they are. -/
def vault : Macro := (Macro.ofAction (.ofValues ["sealed"])).takingRaw

/-- A program with such a macro, and with the core macros. -/
def withVault (program : String) : Registry := (Registry.withCore program).addCustom "vault" vault

theorem plainCore_withVault (program : String) : (withVault program).PlainCore :=
  (Registry.plainCore_withCore program).addCustom _ _

end Sample

/-- The macro is called by the program's name, with a modifier behind the call. -/
theorem takesRaw_iff_dispatches_sample :
    (Sample.withVault "tool").PlainCore ∧
    Text.startsWith "_" (Sample.withVault "tool").program = false ∧
    '(' ∉ (Sample.withVault "tool").program.toList ∧
    (∀ element ∈ ["plain", "$tool.vault ||| $list(,)"], Text.contains "$\x7b" element = false) ∧
    ∃ head modifiers entry, Element.candidates head modifiers ∈
        ["plain", "$tool.vault ||| $list(,)"].map (Element.of default) ∧
      isCall head = true ∧ Dispatches (Sample.withVault "tool") head entry ∧ entry.raw = true := by
  have closed : ∀ element ∈ ["plain", "$tool.vault ||| $list(,)"],
      Text.contains "$\x7b" element = false := by
    decide +kernel
  have core := Sample.plainCore_withVault "tool"
  refine ⟨core, by decide, by decide, closed, ?_⟩
  refine (takesRaw_iff_dispatches _ core (by decide) (by decide) default _ closed).mp ?_
  decide +kernel

/-- Where the program has a parenthesis in its name, a list takes arguments as they are for a call that no
macro is ever asked for: the call is malformed. -/
theorem takesRaw_without_dispatch :
    (Sample.withVault "a(b").PlainCore ∧
    Text.startsWith "_" (Sample.withVault "a(b").program = false ∧
    Text.contains "$\x7b" "$a(b.vault" = false ∧
    takesRaw (Sample.withVault "a(b") ["$a(b.vault"] = true ∧
    ¬ ∃ head modifiers entry, Element.candidates head modifiers ∈
        ["$a(b.vault"].map (Element.of default) ∧
      isCall head = true ∧ Dispatches (Sample.withVault "a(b") head entry ∧ entry.raw = true := by
  refine ⟨Sample.plainCore_withVault _, by decide, by decide +kernel, by decide +kernel, ?_⟩
  rintro ⟨head, modifiers, entry, member, called, ⟨name, argument, known, parsed, -⟩, raw⟩
  have whole : ["$a(b.vault"].map (Element.of default) = [.candidates "$a(b.vault" []] := by
    decide +kernel
  rw [whole, List.mem_singleton] at member
  cases member
  cases parsed

end Expression

/-! ### The two marks -/

namespace Registry

variable {registry : Registry}

end Registry

namespace Expression

variable {registry : Registry}

end Expression

/-! ### Further macros of the program's own -/

namespace Registry

variable {registry : Registry}

/-- A call of one of the program's own macros, by either mark. -/
def CallsOwn (registry : Registry) (name text : String) : Prop :=
  ∃ called argument, Call.parse text = .ok (called, argument) ∧
    (called = customFront ++ name ∨ called = registry.program ++ "." ++ name)

/-- A name that the registry knows as that of an own macro has one of the two marks. -/
theorem eq_of_knownName {called name : String}
    (known : registry.knownName called = customFront ++ name) :
    called = customFront ++ name ∨ called = registry.program ++ "." ++ name := by
  rcases registry.knownName_cases called with same | ⟨_, rest, rfl, own⟩
  · exact .inl (same.symm.trans known)
  · have behind : customFront ++ rest = customFront ++ name := own.symm.trans known
    refine .inr ?_
    rw [(String.append_right_inj _).mp behind]

/-- What a call is looked up as does not depend on a macro that it does not call. -/
theorem lookup_addCustom (plain : '(' ∉ registry.program.toList) {name text : String}
    (avoids : ¬ registry.CallsOwn name text) (entry : Macro) :
    (registry.addCustom name entry).lookup (registry.localCall text) =
      registry.lookup (registry.localCall text) := by
  unfold lookup
  cases read : Call.parse (registry.localCall text) with
  | error fault => rfl
  | ok parts =>
    obtain ⟨known, argument⟩ := parts
    obtain ⟨called, rfl, parsed⟩ := (parse_localCall_eq_ok_iff plain).mp read
    have apart : customFront ++ name ≠ registry.knownName called := fun same =>
      avoids ⟨called, argument, parsed, eq_of_knownName same.symm⟩
    have kept : (registry.addCustom name entry).get? (registry.knownName called) =
        registry.get? (registry.knownName called) :=
      (OrderedMap.get?_insert ..).trans (if_neg apart)
    simp only [bind, Except.bind, kept]

end Registry

namespace Expression

variable {registry : Registry}

/-- As they are written, no element has a call of the macro for its head. -/
def AvoidsAsWritten (registry : Registry) (name : String) (elements : List String) : Prop :=
  ∀ element ∈ elements, ¬ registry.CallsOwn name (headAndModifiers element).1

theorem takesRaw_addCustom (plain : '(' ∉ registry.program.toList) {name : String}
    {elements : List String} (avoids : AvoidsAsWritten registry name elements) (entry : Macro) :
    takesRaw (registry.addCustom name entry) elements = takesRaw registry elements := by
  rw [Bool.eq_iff_iff, takesRaw_eq_true_iff, takesRaw_eq_true_iff]
  refine exists_congr fun element => and_congr_right fun member => ?_
  have same : (registry.addCustom name entry).localCall (headAndModifiers element).1 =
    registry.localCall (headAndModifiers element).1 := rfl
  rw [same, Registry.lookup_addCustom plain (avoids element member)]

end Expression
end TabSpec

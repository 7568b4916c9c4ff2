import TabSpec.Proofs.Command.Assembly
import TabSpec.Proofs.Walk.Frame
import TabSpec.Proofs.Walk.Target

/-! Shorthands that are written in one token. Such a token is walked like the shorthands written one
by one, the last of them with the text behind it; only a lone equals sign counts for nothing there. -/
namespace TabSpec

/-- Shorthands of one token: some for flags without a value, and one for a flag with the text behind it
as its value. -/
structure Chain where
  bare : List Char
  last : Char
  text : String
deriving Repr, DecidableEq

namespace Chain

def shorthand (c : Char) : String := String.ofList ['-', c]

@[simp] theorem toList_shorthand (c : Char) : (shorthand c).toList = ['-', c] :=
  String.toList_ofList

/-- The shorthands in one token. -/
def token (chain : Chain) : String :=
  String.ofList ('-' :: (chain.bare ++ chain.last :: chain.text.toList))

/-- The shorthands in a token for each. -/
def tokens (chain : Chain) : List String :=
  chain.bare.map shorthand ++ [shorthand chain.last ++ chain.text]

/-- Whether the shorthands are those of a command, with this flag for the last one. -/
structure Fits (chain : Chain) (command : Command) (flag : Flag) : Prop where
  nonempty : chain.bare ≠ []
  bare : ∀ c ∈ chain.bare, c ≠ '=' ∧
    ∃ other, command.lookupToken (shorthand c) = some other ∧ other.takesValue = false
  last : chain.last ≠ '='
  known : command.lookupToken (shorthand chain.last) = some flag
  takes : flag.takesValue = true

/-- The chain with nothing in the place of a lone equals sign. -/
def withoutSign (chain : Chain) : Chain :=
  { chain with text := if chain.text = "=" then "" else chain.text }

end Chain

/-- A command with one letter behind every single dash, and without subcommands that begin with a
dash. -/
structure Command.SingleLetters (command : Command) : Prop where
  forms : ∀ flag ∈ command.allFlags, ∀ form ∈ flag.forms,
    Text.startsWith "--" form = true ∨ form.length = 2
  undashed : ∀ child ∈ command.commands, ∀ name ∈ child.name :: child.aliases,
    Walk.isDashed name = false

namespace Command

variable {command : Command}

/-- The separator is no shorthand. -/
theorem ne_dash_of_lookupToken (separator : ∀ flag ∈ command.allFlags, "--" ∉ flag.forms) {c : Char}
    {flag : Flag} (known : command.lookupToken (Chain.shorthand c) = some flag) : c ≠ '-' := by
  rintro rfl
  have answers : flag.answersTo (Chain.shorthand '-') = true := by
    simpa using List.find?_some known
  exact separator flag (List.mem_of_find?_eq_some known) (Flag.mem_forms_iff.mpr answers)

/-- No flag has a form with more than one letter behind a single dash. -/
theorem SingleLetters.lookupToken_eq_none (letters : command.SingleLetters) {token : String}
    {c d : Char} {more : List Char} (chars : token.toList = '-' :: c :: d :: more)
    (single : c ≠ '-') : command.lookupToken token = none := by
  refine List.find?_eq_none.mpr fun flag member answers => ?_
  rcases letters.forms flag member token (Flag.mem_forms_iff.mpr (by simpa using answers))
    with long | short
  · obtain ⟨rest, whole⟩ := Text.startsWith_iff.mp long
    rw [chars] at whole
    exact single (List.cons.inj (List.cons.inj whole).2).1.symm
  · rw [← String.length_toList, chars] at short
    simp at short

end Command

namespace Walk

variable {walk : Walk}

theorem Accepting.step_takeFlag (accepting : walk.Accepting) (letters : walk.command.SingleLetters)
    {token : String} {c : Char} {more : List Char} (chars : token.toList = '-' :: c :: more)
    (single : c ≠ '-') (tokens : List String) :
    walk.step token tokens = walk.takeFlag token tokens := by
  have dashed : isDashed token = true := by simp [isDashed, chars]
  have separate : token ≠ "--" := by
    rintro rfl
    exact single (List.cons.inj (List.cons.inj chars).2).1.symm
  have long : token ≠ "-" := by
    rintro rfl
    simp at chars
  exact step_flag accepting.before accepting.active separate
    (descent?_eq_none letters.undashed dashed) dashed long tokens

/-- A token with two letters behind its dash is read letter by letter. -/
theorem takeFlag_chain (letters : walk.command.SingleLetters) {token : String} {c d : Char}
    {more : List Char} (chars : token.toList = '-' :: c :: d :: more) (single : c ≠ '-')
    (first : c ≠ '=') (second : d ≠ '=') (tokens : List String) :
    walk.takeFlag token tokens = walk.assignChain tokens (c :: d :: more) := by
  have short : Text.startsWith "--" token = false := by
    refine Bool.eq_false_iff.mpr fun long => ?_
    obtain ⟨rest, whole⟩ := Text.startsWith_iff.mp long
    rw [chars] at whole
    exact single (List.cons.inj (List.cons.inj whole).2).1.symm
  have unknown : walk.command.lookupToken token = none := letters.lookupToken_eq_none chars single
  unfold takeFlag
  cases cut : Text.splitOnce? "=" token with
  | none => simp [unknown, short, chars]
  | some parts =>
    obtain ⟨name, value⟩ := parts
    -- The equals sign stands behind the two letters, so they are in front of the cut.
    have begins : ['-', c, d] <+: token.toList := ⟨more, chars.symm⟩
    have absent : '=' ∉ ['-', c, d] := by simp [Ne.symm first, Ne.symm second]
    obtain ⟨rest, front⟩ := Text.prefix_of_splitOnce? rfl cut begins absent
    simp [letters.lookupToken_eq_none front.symm single, short, chars]

/-! ### Reading a token letter by letter -/

/-- The value of a flag in the letters behind its shorthand. -/
def attached? (letters : List Char) : Option String :=
  let value := if letters.head? = some '=' then letters.tail else letters
  if value = [] then none else some (String.ofList value)

theorem assignChain_bare {c : Char} {flag : Flag}
    (known : walk.command.lookupToken (Chain.shorthand c) = some flag)
    (takes : flag.takesValue = false) (tokens : List String) (more : List Char) :
    walk.assignChain tokens (c :: more) = (walk.set flag ["true"]).assignChain tokens more := by
  rw [Chain.shorthand] at known
  simp only [assignChain, known, takes]
  rfl

theorem assignChain_last {c : Char} {flag : Flag}
    (known : walk.command.lookupToken (Chain.shorthand c) = some flag)
    (takes : flag.takesValue = true) (tokens : List String) (more : List Char) :
    walk.assignChain tokens (c :: more) = walk.assign flag (attached? more) tokens := by
  rw [Chain.shorthand] at known
  simp only [assignChain, known, takes, attached?]
  cases more with
  | nil => rfl
  | cons d rest =>
    by_cases sign : d = '='
    · subst sign
      cases rest <;> rfl
    · simp [sign]

/-- The walk behind shorthands of flags without a value. -/
def raise (walk : Walk) (bare : List Char) : Walk :=
  bare.foldl (fun walk c =>
    (walk.command.lookupToken (Chain.shorthand c)).elim walk (walk.set · ["true"])) walk

theorem raise_cons {c : Char} {flag : Flag}
    (known : walk.command.lookupToken (Chain.shorthand c) = some flag) (bare : List Char) :
    walk.raise (c :: bare) = (walk.set flag ["true"]).raise bare := by
  rw [raise, List.foldl_cons, known]
  rfl

theorem assignChain_append {bare : List Char}
    (fits : ∀ c ∈ bare, ∃ flag, walk.command.lookupToken (Chain.shorthand c) = some flag ∧
      flag.takesValue = false)
    (tokens : List String) (more : List Char) :
    walk.assignChain tokens (bare ++ more) = (walk.raise bare).assignChain tokens more := by
  induction bare generalizing walk with
  | nil => rfl
  | cons c bare ih =>
    obtain ⟨flag, known, takes⟩ := fits c (by simp)
    rw [List.cons_append, assignChain_bare known takes, raise_cons known]
    exact ih fun d member => fits d (by simp [member])

theorem staysAt_raise (walk : Walk) (bare : List Char) : walk.StaysAt (walk.raise bare) := by
  induction bare generalizing walk with
  | nil => exact .rfl
  | cons c bare ih =>
    rw [raise, List.foldl_cons]
    cases walk.command.lookupToken (Chain.shorthand c) with
    | none => exact ih walk
    | some flag => exact (staysAt_set ..).trans (ih _)

theorem pending_raise (walk : Walk) (bare : List Char) :
    (walk.raise bare).pending = walk.pending := by
  induction bare generalizing walk with
  | nil => rfl
  | cons c bare ih =>
    rw [raise, List.foldl_cons]
    cases walk.command.lookupToken (Chain.shorthand c) with
    | none => exact ih walk
    | some flag => exact ih _

theorem Accepting.raise (accepting : walk.Accepting) (bare : List Char) :
    (walk.raise bare).Accepting where
  settled := (pending_raise walk bare).trans accepting.settled
  before := (staysAt_raise walk bare).dash.trans accepting.before
  active := (staysAt_raise walk bare).flagsActive.trans accepting.active

/-! ### Reading the same letters apart -/

theorem Accepting.step_shorthand (accepting : walk.Accepting)
    (letters : walk.command.SingleLetters) {c : Char} {flag : Flag} (single : c ≠ '-')
    (plain : c ≠ '=') (known : walk.command.lookupToken (Chain.shorthand c) = some flag)
    (tokens : List String) :
    walk.step (Chain.shorthand c) tokens = walk.assign flag none tokens := by
  rw [accepting.step_takeFlag letters (Chain.toList_shorthand c) single,
    takeFlag_form known (by simp [Ne.symm plain])]

/-- Behind an equals sign the value is cut off from the token. -/
theorem Accepting.step_equals (accepting : walk.Accepting) (letters : walk.command.SingleLetters)
    {c : Char} {flag : Flag} (single : c ≠ '-') (plain : c ≠ '=')
    (known : walk.command.lookupToken (Chain.shorthand c) = some flag) (value : String)
    (tokens : List String) :
    walk.step (Chain.shorthand c ++ "=" ++ value) tokens = (walk.set flag [value], tokens) := by
  have absent : '=' ∉ (Chain.shorthand c).toList := by simp [Ne.symm plain]
  have token : (Chain.shorthand c ++ "=" ++ value).toList = '-' :: c :: '=' :: value.toList := by
    simp
  rw [accepting.step_takeFlag letters token single,
    takeFlag_inline (Text.splitOnce?_append rfl absent value) known]

/-- Shorthands of flags without a value set their flags, one token for each. -/
theorem Accepting.resume_shorthands (accepting : walk.Accepting)
    (letters : walk.command.SingleLetters)
    (separator : ∀ flag ∈ walk.command.allFlags, "--" ∉ flag.forms) {bare : List Char}
    (fits : ∀ c ∈ bare, c ≠ '=' ∧
      ∃ flag, walk.command.lookupToken (Chain.shorthand c) = some flag ∧ flag.takesValue = false)
    (tokens : List String) :
    walk.resume (bare.map Chain.shorthand ++ tokens) = (walk.raise bare).resume tokens := by
  induction bare generalizing walk with
  | nil => rfl
  | cons c bare ih =>
    obtain ⟨plain, flag, known, takes⟩ := fits c (by simp)
    have single := Command.ne_dash_of_lookupToken separator known
    have reads := accepting.step_shorthand letters single plain known
      (bare.map Chain.shorthand ++ tokens)
    rw [assign_bare walk (by simp [Flag.gathers, takes]), takes] at reads
    rw [raise_cons known, List.map_cons, List.cons_append, resume_of_step reads accepting.settled]
    exact ih (accepting.set flag _) letters separator fun d member => fits d (by simp [member])

/-- A flag with a value is read alike by itself and at the end of a chain, up to a lone equals
sign. -/
theorem Accepting.step_last (accepting : walk.Accepting) (letters : walk.command.SingleLetters)
    {c : Char} {flag : Flag} (single : c ≠ '-') (plain : c ≠ '=')
    (known : walk.command.lookupToken (Chain.shorthand c) = some flag)
    (takes : flag.takesValue = true) (text : String) (tokens : List String) :
    walk.step (Chain.shorthand c ++ (if text = "=" then "" else text)) tokens =
      walk.assignChain tokens (c :: text.toList) := by
  have alone := accepting.step_shorthand letters single plain known tokens
  rw [assignChain_last known takes]
  by_cases sign : text = "="
  · subst sign
    rw [if_pos rfl, String.append_empty]
    exact alone
  · rw [if_neg sign]
    cases chars : text.toList with
    | nil =>
      obtain rfl : text = "" := String.toList_inj.mp chars
      rw [String.append_empty]
      exact alone
    | cons d more =>
      by_cases inline : d = '='
      · subst inline
        have filled : more ≠ [] := by
          rintro rfl
          exact sign (String.toList_inj.mp chars)
        obtain rfl : text = "=" ++ String.ofList more := by
          apply String.toList_inj.mp
          simp [chars]
        rw [← String.append_assoc, accepting.step_equals letters single plain known]
        simp [attached?, filled, assign_inline]
      · have token : (Chain.shorthand c ++ text).toList = '-' :: c :: d :: more := by simp [chars]
        rw [accepting.step_takeFlag letters token single,
          takeFlag_chain letters token single plain inline, assignChain_last known takes]

/-- A flag whose value is optional takes a lone equals sign for no value. -/
theorem Accepting.step_sign (accepting : walk.Accepting) (letters : walk.command.SingleLetters)
    {c : Char} {flag : Flag} (single : c ≠ '-') (plain : c ≠ '=')
    (known : walk.command.lookupToken (Chain.shorthand c) = some flag)
    (takes : flag.takesValue = true) (optional : flag.optionalArg = true) (tokens : List String) :
    walk.step (Chain.shorthand c ++ "=") tokens = walk.step (Chain.shorthand c ++ "") tokens := by
  have signed := accepting.step_equals letters single plain known "" tokens
  rw [String.append_empty] at signed
  rw [signed, String.append_empty, accepting.step_shorthand letters single plain known,
    assign_bare walk (by simp [Flag.gathers, optional]), takes]
  rfl

/-- The token of a chain is read letter by letter. -/
theorem Accepting.step_token (accepting : walk.Accepting) (letters : walk.command.SingleLetters)
    (separator : ∀ flag ∈ walk.command.allFlags, "--" ∉ flag.forms) {chain : Chain} {flag : Flag}
    (fits : chain.Fits walk.command flag) (tokens : List String) :
    walk.step chain.token tokens =
      walk.assignChain tokens (chain.bare ++ chain.last :: chain.text.toList) := by
  obtain ⟨c, others, shape⟩ := List.exists_cons_of_ne_nil fits.nonempty
  obtain ⟨first, _, known, _⟩ := fits.bare c (by simp [shape])
  have single := Command.ne_dash_of_lookupToken separator known
  obtain ⟨d, more, behind, second⟩ :
      ∃ d more, others ++ chain.last :: chain.text.toList = d :: more ∧ d ≠ '=' := by
    cases others with
    | nil => exact ⟨_, _, rfl, fits.last⟩
    | cons d others => exact ⟨d, _, rfl, (fits.bare d (by simp [shape])).1⟩
  have chars : chain.token.toList = '-' :: c :: d :: more := by
    rw [Chain.token, String.toList_ofList, shape, List.cons_append, behind]
  rw [accepting.step_takeFlag letters chars single,
    takeFlag_chain letters chars single first second, shape, List.cons_append, behind]

theorem resume_congr {other : Walk} {token word : String} {tokens words : List String}
    (same : walk.step token tokens = other.step word words) :
    walk.resume (token :: tokens) = other.resume (word :: words) := by
  rw [resume, same, resume]

/-- Shorthands in one token are walked like shorthands in a token for each, whatever text stands behind
the last one: its value, or the beginning of the values that follow. Only a lone equals sign is no
value in a chain and an empty one behind a shorthand by itself, unless the value is optional. -/
theorem resume_chain {spec : CommandSpec} {registry : Registry} {capabilities : Capabilities}
    {root : Command} (built : (spec.build registry capabilities).value = .ok root)
    (inside : root.Within walk.command) (letters : walk.command.SingleLetters)
    (accepting : walk.Accepting) {chain : Chain} {flag : Flag}
    (fits : chain.Fits walk.command flag) (rest : List String) :
    walk.resume (chain.token :: rest) = walk.resume (chain.withoutSign.tokens ++ rest) ∧
    (chain.text ≠ "=" ∨ flag.optionalArg = true →
      walk.resume (chain.token :: rest) = walk.resume (chain.tokens ++ rest)) := by
  have separator := CommandSpec.separator_not_mem_forms built inside
  have single := Command.ne_dash_of_lookupToken separator fits.known
  have raised := accepting.raise chain.bare
  have same := (staysAt_raise walk chain.bare).command
  have reads := accepting.step_token letters separator fits rest
  rw [assignChain_append fun c member => (fits.bare c member).2] at reads
  have apart (text : String) :
      walk.resume ((⟨chain.bare, chain.last, text⟩ : Chain).tokens ++ rest) =
        (walk.raise chain.bare).resume ((Chain.shorthand chain.last ++ text) :: rest) := by
    rw [Chain.tokens, List.append_assoc, accepting.resume_shorthands letters separator fits.bare]
    rfl
  have whole : walk.resume (chain.token :: rest) =
      walk.resume (chain.withoutSign.tokens ++ rest) := by
    rw [Chain.withoutSign, apart]
    refine resume_congr (reads.trans ?_)
    exact (raised.step_last (same ▸ letters) single fits.last (same ▸ fits.known) fits.takes
      chain.text rest).symm
  refine ⟨whole, fun kept => whole.trans ?_⟩
  rw [Chain.withoutSign, apart, apart chain.text]
  by_cases sign : chain.text = "="
  · rw [if_pos sign, sign]
    have optional := kept.resolve_left (not_not_intro sign)
    exact resume_congr (raised.step_sign (same ▸ letters) single fits.last (same ▸ fits.known)
      fits.takes optional rest).symm
  · rw [if_neg sign]

end Walk

namespace Sample

/-- A command with a flag for each place in a chain. -/
def clustered : CommandSpec :=
  { CommandSpec.empty with
    name := "tool"
    flags := .ofList
      [("-v, --verbose", .description "more output"), ("-o, --output=", .description "output file")] }

def moreOutput : Flag := ⟨"v", "verbose", "more output", false, false, false, false, false, false, 0⟩

def outputFile : Flag := ⟨"o", "output", "output file", false, false, false, true, false, false, 0⟩

/-- The command is built, and its first token may be a chain. -/
theorem exists_build_clustered :
    ∃ root, (clustered.build (.empty "tool") .extended).value = .ok root ∧ root.SingleLetters ∧
      (Walk.start root).Accepting ∧ root.allFlags = [outputFile, moreOutput] ∧
      (root.walk ["-vo=", "x"]).flags.get? "output" = some ["x"] ∧
      (root.walk ["-v", "-o=", "x"]).flags.get? "output" = some [""] := by
  have built : (clustered.build (.empty "tool") .extended).value.toOption.any (fun root =>
      decide (root.commands.isEmpty = true ∧ (Walk.start root).flagsActive = true ∧
        root.allFlags = [outputFile, moreOutput] ∧
        (root.walk ["-vo=", "x"]).flags.get? "output" = some ["x"] ∧
        (root.walk ["-v", "-o=", "x"]).flags.get? "output" = some [""])) = true := by
    decide +kernel
  obtain ⟨root, succeeds, facts⟩ := exists_of_toOption_any built
  obtain ⟨childless, active, flags, facts⟩ := of_decide_eq_true facts
  have letters : root.SingleLetters := by
    constructor
    · rw [flags]
      decide +kernel
    · simp [List.isEmpty_iff.mp childless]
  exact ⟨root, succeeds, letters, ⟨rfl, rfl, active⟩, flags, facts⟩

theorem fits_clustered {root : Command} (flags : root.allFlags = [outputFile, moreOutput])
    (text : String) : (⟨['v'], 'o', text⟩ : Chain).Fits root outputFile := by
  have bare : root.lookupToken (Chain.shorthand 'v') = some moreOutput := by
    rw [Command.lookupToken, flags]
    decide +kernel
  have last : root.lookupToken (Chain.shorthand 'o') = some outputFile := by
    rw [Command.lookupToken, flags]
    decide +kernel
  exact ⟨by simp, by simpa using ⟨moreOutput, bare, rfl⟩, by simp, last, rfl⟩

end Sample

/-- The value of `-o` holds an equals sign, and so it does in a chain. -/
theorem Walk.resume_chain_sample :
    ∃ root, (Sample.clustered.build (.empty "tool") .extended).value = .ok root ∧
      (Walk.start root).Accepting ∧ (Walk.start root).command.SingleLetters ∧
      (⟨['v'], 'o', "=a=b"⟩ : Chain).Fits (Walk.start root).command Sample.outputFile ∧
      (Walk.start root).resume ["-vo=a=b", "x"] = (Walk.start root).resume ["-v", "-o=a=b", "x"] := by
  obtain ⟨root, built, letters, accepting, flags, _⟩ := Sample.exists_build_clustered
  have fits := Sample.fits_clustered flags "=a=b"
  have inside : root.Within (Walk.start root).command := .self
  have same := (Walk.resume_chain built inside letters accepting fits ["x"]).2 (.inl (by decide))
  have token : (⟨['v'], 'o', "=a=b"⟩ : Chain).token = "-vo=a=b" := by decide +kernel
  have tokens : (⟨['v'], 'o', "=a=b"⟩ : Chain).tokens = ["-v", "-o=a=b"] := by decide +kernel
  rw [token, tokens] at same
  exact ⟨root, built, accepting, letters, fits, same⟩

/-- In a chain a lone equals sign is no value, so the next token is taken for it. -/
theorem Walk.chain_loses_empty_value :
    ∃ root, (Sample.clustered.build (.empty "tool") .extended).value = .ok root ∧
      (Walk.start root).Accepting ∧ (Walk.start root).command.SingleLetters ∧
      (⟨['v'], 'o', "="⟩ : Chain).Fits (Walk.start root).command Sample.outputFile ∧
      (⟨['v'], 'o', "="⟩ : Chain).token = "-vo=" ∧
      (⟨['v'], 'o', "="⟩ : Chain).tokens = ["-v", "-o="] ∧
      (Walk.start root).resume ["-vo=", "x"] ≠ (Walk.start root).resume ["-v", "-o=", "x"] := by
  obtain ⟨root, built, letters, accepting, flags, chained, apart⟩ := Sample.exists_build_clustered
  refine ⟨root, built, accepting, letters, Sample.fits_clustered flags "=", by decide +kernel,
    by decide +kernel, fun same => ?_⟩
  rw [Command.walk] at chained apart
  rw [same, apart] at chained
  simp at chained

end TabSpec

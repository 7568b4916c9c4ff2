import TabSpec.CoreMacros
import TabSpec.Proofs.Command.Slot
import TabSpec.Proofs.Context.Parts
import TabSpec.Proofs.Expression.Siblings
import TabSpec.Proofs.Run.Source
import TabSpec.Proofs.Substitution

/-! The directory in which a script runs that has changes of the directory behind it. A run enters them in
order. A completion layers them as modifiers, and the outermost layer is the first to change the
directory: it enters the last one first, and so need not arrive where a run does. -/
namespace TabSpec

open Expression (separator)

/-! ### Entering directories -/

/-- The directory reached from the context's by entering paths one after the other. -/
def Context.entered (context : Context) (paths : List String) : String :=
  paths.foldl (fun directory path => { context with directory }.resolve path) context.directory

theorem Context.entered_concat (context : Context) (paths : List String) (path : String) :
    context.entered (paths ++ [path]) =
      ({ context with directory := context.entered paths } : Context).resolve path := by
  rw [entered, List.foldl_append]
  rfl

/-- With a single path there is only one order. -/
theorem Context.entered_reverse (context : Context) {paths : List String} (single : paths.length ≤ 1) :
    context.entered paths.reverse = context.entered paths := by
  cases paths with
  | nil => rfl
  | cons path paths =>
    obtain rfl := List.eq_nil_of_length_eq_zero (Nat.le_zero.mp (Nat.le_of_succ_le_succ single))
    rfl

/-- A path on one line that is no call, and holds neither a placeholder nor a separator. -/
structure IsLiteralPath (path : String) : Prop where
  named : Text.startsWith "$" path = false
  closed : Text.contains "$\x7b" path = false
  uncut : Text.contains separator path = false
  line : '\n' ∉ path.toList

/-- What holds no parenthesis occurs in a change of the directory only if it does in the path. -/
theorem not_infix_chdir {part : List Char} {path : String} (some : part ≠ [])
    (opening : '(' ∉ part) (closing : ')' ∉ part) (name : ¬ part <:+: "$chdir".toList)
    (absent : ¬ part <:+: path.toList) : ¬ part <:+: (Call.written "chdir" path).toList := by
  have whole : (Call.written "chdir" path).toList =
      "$chdir".toList ++ '(' :: (path.toList ++ ')' :: []) := Call.toList_written ..
  rw [whole]
  intro inside
  rcases Text.infix_or_infix_of_not_mem some opening inside with front | inside
  · exact name front
  · rcases Text.infix_or_infix_of_not_mem some closing inside with path | none
    · exact absent path
    · exact some (List.infix_nil.mp none)

namespace IsLiteralPath

variable {path : String} (literal : IsLiteralPath path)

include literal

theorem not_infix_separator : ¬ separator.toList <:+: (Call.written "chdir" path).toList :=
  not_infix_chdir (by decide) (by decide) (by decide) (by decide)
    (Text.contains_eq_false_iff.mp literal.uncut)

theorem expand_chdir (lookup : String → Option String) :
    Substitution.expand lookup (Call.written "chdir" path) = .ok (Call.written "chdir" path) := by
  refine Substitution.expand_of_closed lookup (Text.contains_eq_false_iff.mpr ?_)
  exact not_infix_chdir (by decide) (by decide) (by decide) (by decide)
    (Text.contains_eq_false_iff.mp literal.closed)

theorem directoryOf (context : Context) :
    Traversal.directoryOf context path = .ok (context.resolve path) := by
  simp [Traversal.directoryOf, literal.named]

end IsLiteralPath

/-! ### Running -/

/-- A call that runs a script in a shell, in the default one where it names none. -/
structure IsShellCall (shell : Option Shell) (call script : String) : Prop where
  parsed : Call.parse call = .ok ((shell.map Shell.name).getD "", script)
  uncut : Text.contains separator call = false

/-- Changes of the directory, each behind a separator. -/
def directoryChanges (paths : List String) : String :=
  String.join ((paths.map (Call.written "chdir")).map (separator ++ ·))

/-- A call with changes of the directory behind it. -/
def withDirectories (call : String) (paths : List String) : String := call ++ directoryChanges paths

namespace IsShellCall

variable {shell : Option Shell} {call script : String} {paths : List String}
  (isCall : IsShellCall shell call script) (literal : ∀ path ∈ paths, IsLiteralPath path)

include isCall

theorem exists_cons : ∃ rest, call.toList = '$' :: rest := by
  obtain ⟨-, -, rfl | ⟨rfl, -⟩⟩ := Call.of_parse isCall.parsed
  · exact ⟨_, Call.toList_written ..⟩
  · exact ⟨_, String.toList_append⟩

theorem getLast?_ne : call.toList.getLast? ≠ some '|' := by
  obtain ⟨-, -, rfl | ⟨rfl, -⟩⟩ := Call.of_parse isCall.parsed
  · simp [Call.getLast?_written]
  · cases shell with
    | none => decide
    | some shell => cases shell <;> decide

include literal

theorem split_withDirectories :
    Text.split separator (withDirectories call paths) =
      call :: paths.map (Call.written "chdir") := by
  refine Text.split_pieces (by decide) fun piece member => ?_
  rcases List.mem_cons.mp member with rfl | modifier
  · exact ShellScript.closed_of_getLast? isCall.getLast?_ne
      (Text.contains_eq_false_iff.mp isCall.uncut)
  · obtain ⟨path, listed, rfl⟩ := List.mem_map.mp modifier
    exact ShellScript.closed_of_getLast? (by simp [Call.getLast?_written])
      (literal path listed).not_infix_separator

theorem parse_withDirectories :
    RunField.parse (withDirectories call paths) = .ok (.script ⟨shell, script, paths⟩) := by
  have read : ShellScript.parse (withDirectories call paths) = .ok ⟨shell, script, paths⟩ :=
    (ShellScript.parse_cut_eq_ok_iff (isCall.split_withDirectories literal)).mpr
      ⟨isCall.parsed, ShellScript.mapM_directoryOf_written fun path listed => (literal path listed).line⟩
  obtain ⟨rest, begins⟩ := isCall.exists_cons
  have chars : (withDirectories call paths).toList =
      '$' :: (rest ++ (directoryChanges paths).toList) := by
    rw [withDirectories, String.toList_append, begins, List.cons_append]
  rw [RunField.parse, chars]
  simp only [read]
  rfl

end IsShellCall

theorem RunField.changeTo_of_literal {paths : List String}
    (literal : ∀ path ∈ paths, IsLiteralPath path) (context : Context) :
    changeTo context paths = .ok { context with directory := context.entered paths } := by
  induction paths generalizing context with
  | nil => rfl
  | cons path paths ih =>
    rw [changeTo, (literal path List.mem_cons_self).directoryOf]
    exact ih (fun other listed => literal other (List.mem_cons_of_mem path listed)) _

/-- A script is run in the directory reached by entering its paths in order. -/
theorem RunField.exists_prepare_script {paths : List String}
    (literal : ∀ path ∈ paths, IsLiteralPath path) (shell : Option Shell) (script : String)
    (context : Context) (args : List String) :
    ∃ run, prepare context args (.script ⟨shell, script, paths⟩) = .ok run ∧
      run.launch.directory = context.entered paths := by
  simp only [prepare, changeTo_of_literal literal]
  exact ⟨_, rfl, rfl⟩

/-! ### Completing -/

/-- Exporting the parts changes the variables only. -/
theorem Context.exists_exportParts_eq (context : Context) :
    ∃ bindings, context.exportParts = { context with bindings } := ⟨_, exportParts_eq context⟩

/-- A change of the directory asks the action below it from there. -/
theorem Modifier.exists_modify_chdir {path : String} (literal : IsLiteralPath path)
    (action : Action) {context : Context}
    (entered : context.machine.files.status (context.resolve path) = .ok .directory) :
    ∃ bindings, modify action (Call.written "chdir" path) context =
      action { context with directory := context.resolve path, bindings } := by
  have parsed := Call.parse_written (by decide : '(' ∉ "chdir".toList) literal.line
  have named : ofCall? (Call.written "chdir" path) = some .chdir :=
    (Call.modifier_of_parse parsed).trans (by decide)
  have resolved : resolve action.withParts (Call.written "chdir" path) context.exportParts =
      .ok (action.withParts.inDirectory fun context => .ok (context.resolve path)) := by
    simp [resolve, Context.substitute, literal.expand_chdir, named, apply, changeDirectory,
      parsed, literal.named, bind, Except.bind]
  obtain ⟨bindings, exported⟩ :=
    Context.exists_exportParts_eq { context with directory := context.resolve path }
  refine ⟨bindings, ?_⟩
  simp only [modify, resolved, Action.inDirectory, entered, Action.withParts, exported]

/-- Changes of the directory ask the action below them from where the last path, the one before it and
so on up to the first one lead to. -/
theorem Expression.exists_withModifiers_chdir {paths : List String}
    (literal : ∀ path ∈ paths, IsLiteralPath path) (action : Action) {context : Context}
    (entered : ∀ front, front ≠ [] → front <+: paths.reverse →
      context.machine.files.status (context.entered front) = .ok .directory) :
    ∃ bindings, withModifiers action (paths.map (Call.written "chdir")) context =
      action { context with directory := context.entered paths.reverse, bindings } := by
  induction paths generalizing action with
  | nil => exact ⟨context.bindings, rfl⟩
  | cons path paths ih =>
    rw [List.reverse_cons] at entered ⊢
    obtain ⟨outer, later⟩ := ih (fun other listed => literal other (List.mem_cons_of_mem path listed))
      (Modifier.modify action (Call.written "chdir" path))
      fun front some early => entered front some (early.trans (List.prefix_append _ _))
    have last := entered (paths.reverse ++ [path]) (by simp) List.prefix_rfl
    rw [Context.entered_concat] at last ⊢
    let reached : Context :=
      { context with directory := context.entered paths.reverse, bindings := outer }
    have enters : reached.machine.files.status (reached.resolve path) = .ok .directory := last
    obtain ⟨inner, here⟩ :=
      Modifier.exists_modify_chdir (literal path List.mem_cons_self) action enters
    exact ⟨inner, later.trans here⟩

theorem head?_directoryChanges (paths : List String) :
    (directoryChanges paths).toList.head? ≠ some '\x7b' := by
  cases paths <;> simp [directoryChanges, separator]

/-- Changes of the directory hold no placeholder. -/
theorem expand_directoryChanges (lookup : String → Option String) {paths : List String}
    (literal : ∀ path ∈ paths, IsLiteralPath path) :
    Substitution.expand lookup (directoryChanges paths) = .ok (directoryChanges paths) := by
  rw [Substitution.expand_eq_ok_iff]
  induction paths with
  | nil => simp [directoryChanges, Substitution.expandChars]
  | cons path paths ih =>
    have later := ih fun other listed => literal other (List.mem_cons_of_mem path listed)
    have here := Substitution.expand_eq_ok_iff.mp
      ((literal path List.mem_cons_self).expand_chdir lookup)
    have whole : (directoryChanges (path :: paths)).toList = separator.toList ++
        ((Call.written "chdir" path).toList ++ (directoryChanges paths).toList) := by
      simp [directoryChanges]
    have dollar : '$' ∉ separator.toList := by decide
    rw [whole, Substitution.expandChars_append_of_not_mem _ dollar,
      Substitution.expandChars_append_of_expandChars _ here fun _ => head?_directoryChanges paths,
      later]
    rfl

/-- The placeholders of a call are filled as if no changes of the directory stood behind it. -/
theorem Context.substitute_withDirectories {context : Context} {call filled : String}
    {paths : List String} (literal : ∀ path ∈ paths, IsLiteralPath path)
    (fills : context.substitute call = .ok filled) :
    context.substitute (withDirectories call paths) = .ok (withDirectories filled paths) := by
  have unchanged := Substitution.expand_eq_ok_iff.mp
    (expand_directoryChanges context.get? literal)
  refine Substitution.expand_eq_ok_iff.mpr ?_
  rw [withDirectories, String.toList_append, withDirectories, String.toList_append,
    Substitution.expandChars_append_of_expandChars _ (Substitution.expand_eq_ok_iff.mp fills)
      fun _ => head?_directoryChanges paths, unchanged]
  rfl

namespace Registry

/-- A registry that knows a shell, or the default one, under its name. -/
structure KnowsShell (registry : Registry) (shell : Option Shell) : Prop where
  entry : ∃ entry, registry.get? ((shell.map Shell.name).getD "") = some entry ∧
    ∀ nested script, entry.action nested script = .ok ((shell.getD .default).action script)
  /-- No call of the shell is taken for one of the program's own. -/
  program : '(' ∉ registry.program.toList

theorem knowsShell_withCore {program : String} (plain : '(' ∉ program.toList) (shell : Option Shell) :
    (withCore program).KnowsShell shell := by
  have apart : (coreMacros.map (·.1)).Nodup := by decide +kernel
  have known (name description : String) (action : String → Action)
      (listed : (name, (Macro.ofSingle action).described description) ∈ coreMacros) :
      (withCore program).get? name = some ((Macro.ofSingle action).described description) := by
    rw [withCore_eq]
    exact OrderedMap.get?_ofList_of_mem apart listed
  refine ⟨?_, by rwa [withCore_eq]⟩
  cases shell with
  | none => exact ⟨_, known "" "run a script in the default shell" Shell.default.action
      (by simp [coreMacros]), fun _ _ => rfl⟩
  | some shell =>
    have listed : (shell.name, (Macro.ofSingle shell.action).described
        ("run a script in " ++ shell.name)) ∈ coreMacros :=
      List.mem_append_right _ (List.mem_map.mpr ⟨shell, shell.mem_all, rfl⟩)
    exact ⟨_, known _ _ _ listed, fun _ _ => rfl⟩

end Registry

namespace Expression

/-- A call of a shell is no modifier, and stands for its script in that shell. -/
theorem resolve_of_isShellCall {registry : Registry} {shell : Option Shell}
    (knows : registry.KnowsShell shell) (nested : SpecTarget → Action) {call script : String}
    (isShellCall : IsShellCall shell call script) :
    isCall call = true ∧ Modifier.ofCall? call = none ∧
      resolve registry nested call = .ok ((shell.getD .default).action script) := by
  have named (shell : Option Shell) : '.' ∉ ((shell.map Shell.name).getD "").toList ∧
      Text.startsWith "_" ((shell.map Shell.name).getD "") = false ∧
      Modifier.ofName? ((shell.map Shell.name).getD "") = none := by
    cases shell with
    | none => decide
    | some shell => cases shell <;> decide
  obtain ⟨undotted, current, unnamed⟩ := named shell
  obtain ⟨rest, begins⟩ := isShellCall.exists_cons
  obtain ⟨entry, found, runs⟩ := knows.entry
  refine ⟨?_, ?_, ?_⟩
  · simp [isCall, Text.startsWith, Text.after?, begins]
  · rw [Call.modifier_of_parse isShellCall.parsed, unnamed]
  · rw [resolve_of_parse nested knows.program isShellCall.parsed undotted current found, runs]

/-- A script with changes of the directory behind it is run from where the last of them, the one before
it and so on lead to. -/
theorem exists_evaluate_withDirectories {registry : Registry} {shell : Option Shell}
    (knows : registry.KnowsShell shell) (nested : SpecTarget → Action) {context : Context}
    {call filled script : String} {paths : List String}
    (fills : context.exportArguments.substitute call = .ok filled)
    (isShellCall : IsShellCall shell filled script) (literal : ∀ path ∈ paths, IsLiteralPath path)
    (entered : ∀ front, front ≠ [] → front <+: paths.reverse →
      context.machine.files.status (context.entered front) = .ok .directory) :
    ∃ bindings, evaluate registry nested [withDirectories call paths] context =
      (fun completion => .merge [completion]) <$> (shell.getD .default).action script
        { context with directory := context.entered paths.reverse, bindings } := by
  obtain ⟨exported, arguments⟩ := context.exists_exportArguments_eq
  obtain ⟨isCalled, unnamed, resolved⟩ := resolve_of_isShellCall knows nested isShellCall
  have element : Element.of context.exportArguments (withDirectories call paths) =
      .candidates filled (paths.map (Call.written "chdir")) := by
    simp [Element.of, Context.substitute_withDirectories literal fills, Element.ofFilled,
      headAndModifiers, isShellCall.split_withDirectories literal, isCalled, unnamed]
  have enters : ∀ front, front ≠ [] → front <+: paths.reverse →
      context.exportArguments.machine.files.status (context.exportArguments.entered front) =
        .ok .directory := by
    rw [arguments]
    exact entered
  have called : Expression.call registry nested filled = (shell.getD .default).action script := by
    funext context
    rw [Expression.call, resolved]
  obtain ⟨bindings, layered⟩ :=
    exists_withModifiers_chdir literal ((shell.getD .default).action script) enters
  refine ⟨bindings, ?_⟩
  calc evaluate registry nested [withDirectories call paths] context
    _ = Action.batch [withModifiers ((shell.getD .default).action script)
          (paths.map (Call.written "chdir"))] context.exportArguments := by
      simp only [evaluate, combine, List.map_cons, List.map_nil, element, List.filterMap_cons,
        List.filterMap_nil, Element.literal?, Element.action?, isCalled, if_true, called,
        List.flatMap_cons, List.flatMap_nil, Element.calls]
      rfl
    _ = (fun completion => .merge [completion]) <$> withModifiers
          ((shell.getD .default).action script) (paths.map (Call.written "chdir"))
            context.exportArguments := by
      simp [Action.batch]
    _ = _ := by
      rw [layered, arguments]
      rfl

/-- The directory in which a script is completed and the one in which it is run. Running
`call ||| $chdir(d1) ||| .. ||| $chdir(dn)` enters the directories from the first one on. Completing the
same text enters them from the last one on, so the script runs where running the call with the changes
of the directory in reverse order does. With at most one change this is the same place. -/
theorem evaluate_in_directory_of_reversed_run {registry : Registry} {shell : Option Shell}
    (knows : registry.KnowsShell shell) (nested : SpecTarget → Action) {context : Context}
    {call script filled body : String} {paths : List String}
    (isShellCall : IsShellCall shell call script)
    (fills : context.exportArguments.substitute call = .ok filled)
    (filledCall : IsShellCall shell filled body) (literal : ∀ path ∈ paths, IsLiteralPath path)
    (entered : ∀ front, front ≠ [] → front <+: paths.reverse →
      context.machine.files.status (context.entered front) = .ok .directory) (args : List String) :
    ∃ run reversed bindings,
      RunField.parse (withDirectories call paths) >>= RunField.prepare context args = .ok run ∧
      run.launch.directory = context.entered paths ∧
      RunField.parse (withDirectories call paths.reverse) >>= RunField.prepare context args =
        .ok reversed ∧
      reversed.launch.directory = context.entered paths.reverse ∧
      evaluate registry nested [withDirectories call paths] context =
        (fun completion => .merge [completion]) <$> (shell.getD .default).action body
          { context with directory := reversed.launch.directory, bindings } ∧
      (paths.length ≤ 1 → reversed.launch.directory = run.launch.directory) := by
  have prepares (paths : List String) (literal : ∀ path ∈ paths, IsLiteralPath path) :
      ∃ run, RunField.parse (withDirectories call paths) >>= RunField.prepare context args = .ok run ∧
        run.launch.directory = context.entered paths := by
    rw [isShellCall.parse_withDirectories literal]
    exact RunField.exists_prepare_script literal shell script context args
  obtain ⟨run, prepared, place⟩ := prepares paths literal
  obtain ⟨reversed, preparedReversed, placeReversed⟩ :=
    prepares paths.reverse fun path listed => literal path (List.mem_reverse.mp listed)
  obtain ⟨bindings, evaluated⟩ :=
    exists_evaluate_withDirectories knows nested fills filledCall literal entered
  rw [← placeReversed] at evaluated
  refine ⟨run, reversed, bindings, prepared, place, preparedReversed, placeReversed, evaluated,
    fun single => ?_⟩
  calc reversed.launch.directory
    _ = context.entered paths.reverse := placeReversed
    _ = context.entered paths := context.entered_reverse single
    _ = run.launch.directory := place.symm

namespace Sample

/-- A directory with each of two directories in the other one, on a machine with a shell. -/
def crossed : Context :=
  let files := (FileTree.empty.put ["work", "a", "b"] .directory).put ["work", "b", "a"] .directory
  { (default : Context) with
    directory := "/work"
    machine := { (default : Machine) with
      files := files.put ["bin", "sh"] .utility
      environment := .ofList [("PATH", "/bin")] } }

end Sample

/-- Of two directories the last one is entered first. -/
theorem evaluate_in_directory_of_reversed_run_sample :
    ∃ run reversed bindings,
      RunField.parse "$sh(pwd) ||| $chdir(a) ||| $chdir(b)" >>= RunField.prepare Sample.crossed ["x"] =
        .ok run ∧
      run.launch.directory = "/work/a/b" ∧
      RunField.parse "$sh(pwd) ||| $chdir(b) ||| $chdir(a)" >>= RunField.prepare Sample.crossed ["x"] =
        .ok reversed ∧
      reversed.launch.directory = "/work/b/a" ∧
      evaluate (.withCore "tool") (fun _ => .ofValues [])
          ["$sh(pwd) ||| $chdir(a) ||| $chdir(b)"] Sample.crossed =
        (fun completion => .merge [completion]) <$> Shell.sh.action "pwd"
          { Sample.crossed with directory := reversed.launch.directory, bindings } := by
  have knows : (Registry.withCore "tool").KnowsShell (some .sh) :=
    Registry.knowsShell_withCore (by decide) _
  have isShellCall : IsShellCall (some .sh) "$sh(pwd)" "pwd" :=
    ⟨eq_ok_of_toOption (by decide +kernel), by decide +kernel⟩
  have fills : Sample.crossed.exportArguments.substitute "$sh(pwd)" = .ok "$sh(pwd)" :=
    eq_ok_of_toOption (by decide +kernel)
  have literal : ∀ path ∈ ["a", "b"], IsLiteralPath path := by
    have each (path : String) (plain : (!Text.startsWith "$" path && !Text.contains "$\x7b" path &&
        !Text.contains separator path && !path.toList.contains '\n') = true) :
        IsLiteralPath path := by
      simp only [Bool.and_eq_true, Bool.not_eq_true'] at plain
      exact ⟨plain.1.1.1, plain.1.1.2, plain.1.2, by simpa using plain.2⟩
    exact List.forall_mem_cons.mpr
      ⟨each "a" (by decide +kernel), List.forall_mem_singleton.mpr (each "b" (by decide +kernel))⟩
  have entered : ∀ front, front ≠ [] → front <+: ["a", "b"].reverse →
      Sample.crossed.machine.files.status (Sample.crossed.entered front) = .ok .directory := by
    intro front some inside
    obtain none | ⟨later, rfl, behind⟩ := List.prefix_cons_iff.mp inside
    · exact absurd none some
    · obtain rfl | ⟨rest, rfl, further⟩ := List.prefix_cons_iff.mp behind
      · exact eq_ok_of_toOption (by decide +kernel)
      · obtain rfl := List.prefix_nil.mp further
        exact eq_ok_of_toOption (by decide +kernel)
  obtain ⟨run, reversed, bindings, prepared, place, preparedReversed, placeReversed, evaluated, -⟩ :=
    evaluate_in_directory_of_reversed_run knows (fun _ => .ofValues []) isShellCall fills isShellCall
      literal entered ["x"]
  have written : withDirectories "$sh(pwd)" ["a", "b"] = "$sh(pwd) ||| $chdir(a) ||| $chdir(b)" := by
    decide +kernel
  have writtenReversed : withDirectories "$sh(pwd)" ["a", "b"].reverse =
      "$sh(pwd) ||| $chdir(b) ||| $chdir(a)" := by
    decide +kernel
  rw [written] at prepared evaluated
  rw [writtenReversed] at preparedReversed
  exact ⟨run, reversed, bindings, prepared, place.trans (by decide +kernel), preparedReversed,
    placeReversed.trans (by decide +kernel), evaluated⟩

/-- The directories of a chain all exist, in either order, and completing the script prints another one
than the one that is prepared for running it. -/
theorem evaluate_leaves_directory_of_run :
    (["/work/a", "/work/b", "/work/a/b", "/work/b/a"].all
      Sample.crossed.machine.files.isDirectory) = true ∧
    (RunField.parse "$sh(pwd) ||| $chdir(a) ||| $chdir(b)" >>=
      RunField.prepare Sample.crossed []).toOption.map (·.launch.directory) = some "/work/a/b" ∧
    (evaluate (.withCore "tool") (fun _ => .ofValues [])
      ["$sh(pwd) ||| $chdir(a) ||| $chdir(b)"] Sample.crossed).value.values = ["/work/b/a"] := by
  refine ⟨?_, ?_, ?_⟩ <;> decide +kernel

end Expression

end TabSpec

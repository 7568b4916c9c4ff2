import TabSpec.Proofs.Call
import TabSpec.Proofs.Outcome
import TabSpec.Proofs.Text.Blank
import TabSpec.Proofs.Text.Cut
import TabSpec.Proofs.Text.ShellWords
import TabSpec.RunField

/-! Run fields as they are written. A field that was read is read back from how it is written, as
long as its words can be written: no word of a shell holds a NUL. -/
namespace TabSpec

/-! ### Scripts for a shell -/

theorem Shell.ofName_name (shell : Shell) : ofName shell.name = .ok shell := by
  cases shell <;> rfl

theorem Shell.name_of_ofName {name : String} {shell : Shell} (known : ofName name = .ok shell) :
    shell.name = name := by
  unfold ofName at known
  split at known
  · rename_i found
    obtain rfl := Except.ok.inj known
    simpa using List.find?_some found
  · cases known

namespace ShellScript

open Expression (separator)

/-- What does not end in a bar leaves nothing for a separator to begin with. -/
theorem closed_of_getLast? {piece : List Char} (ends : piece.getLast? ≠ some '|')
    (uncut : ¬ separator.toList <:+: piece) :
    ¬ separator.toList <:+: piece ++ separator.toList.dropLast := by
  rw [List.infix_append_iff_ne_nil, not_or, not_or]
  refine ⟨uncut, by decide, ?_⟩
  rintro ⟨front, back, some, more, whole, behind, before⟩
  -- A separator that is cut in two has a bar before the cut, if its end can be its beginning.
  have bars : ∀ length < separator.toList.length, length ≠ 0 →
      separator.toList.drop length <+: separator.toList.dropLast →
      (separator.toList.take length).getLast? = .some '|' := by
    decide
  have last : front.getLast? = .some '|' := by
    have short : front.length < separator.toList.length := by
      have positive := List.length_pos_iff.mpr more
      rw [whole, List.length_append]
      omega
    have cut := bars front.length short (by simpa using some)
    rw [whole, List.drop_left, List.take_left, ← whole] at cut
    exact cut before
  obtain ⟨rest, rfl⟩ := behind
  exact ends (by rw [List.getLast?_append, last]; rfl)

theorem directoryOf_written {directory : String} (line : '\n' ∉ directory.toList) :
    directoryOf (Call.written "chdir" directory) = .ok directory := by
  have begins : Text.startsWith "$chdir(" (Call.written "chdir" directory) = true := by
    have behind : (Call.written "chdir" directory).toList =
        "$chdir(".toList ++ (directory.toList ++ [')']) := Call.toList_written ..
    rw [Text.startsWith, behind, Text.after?_eq_some_iff.mpr rfl]
    rfl
  rw [directoryOf, if_pos begins, Call.parse_written (by decide) line]
  rfl

theorem of_directoryOf {call directory : String} (read : directoryOf call = .ok directory) :
    call = Call.written "chdir" directory ∧ '\n' ∉ directory.toList := by
  unfold directoryOf at read
  split at read
  · rename_i begins
    obtain ⟨⟨name, argument⟩, parsed, same⟩ := bind_eq_ok_iff.mp read
    obtain rfl := Except.ok.inj same
    obtain ⟨named, line, form⟩ := Call.of_parse parsed
    obtain ⟨rest, found⟩ := Option.isSome_iff_exists.mp begins
    have chars : call.toList = "$chdir(".toList ++ rest := Text.after?_eq_some_iff.mp found
    have closed : '(' ∉ "$chdir".toList := by decide
    have cut : Text.firstCut? ['('] call.toList = some ("$chdir".toList, rest) :=
      chars ▸ Text.firstCut?_append closed rest
    rcases form with rfl | ⟨rfl, _⟩
    · have opened : '(' ∉ '$' :: name.toList := by simpa using named
      rw [Call.toList_written, ← List.cons_append, Text.firstCut?_append opened] at cut
      obtain ⟨same, _⟩ := Prod.mk.inj (Option.some.inj cut)
      have chdir : name = "chdir" := String.toList_inj.mp (List.cons.inj same).2
      exact ⟨by rw [chdir], line⟩
    · have inside : '(' ∈ ("$" ++ name).toList := by simp [chars]
      exact absurd inside (by simpa using named)
  · cases read

/-- Modifiers that were read are calls that change the directory. -/
theorem of_mapM_directoryOf {calls directories : List String}
    (read : calls.mapM directoryOf = .ok directories) :
    calls = directories.map (Call.written "chdir") ∧
      ∀ directory ∈ directories, '\n' ∉ directory.toList := by
  induction calls generalizing directories with
  | nil =>
    obtain rfl := Except.ok.inj read
    exact ⟨rfl, by simp⟩
  | cons call calls ih =>
    rw [List.mapM_cons] at read
    obtain ⟨directory, first, more⟩ := bind_eq_ok_iff.mp read
    obtain ⟨others, later, same⟩ := bind_eq_ok_iff.mp more
    obtain rfl := Except.ok.inj same
    obtain ⟨rfl, line⟩ := of_directoryOf first
    obtain ⟨rfl, lines⟩ := ih later
    refine ⟨rfl, ?_⟩
    intro other member
    rcases List.mem_cons.mp member with rfl | inside
    · exact line
    · exact lines other inside

theorem mapM_directoryOf_written {directories : List String}
    (lines : ∀ directory ∈ directories, '\n' ∉ directory.toList) :
    (directories.map (Call.written "chdir")).mapM directoryOf = .ok directories := by
  induction directories with
  | nil => rfl
  | cons directory directories ih =>
    rw [List.map_cons, List.mapM_cons, directoryOf_written (lines _ List.mem_cons_self),
      ih fun other member => lines other (List.mem_cons_of_mem _ member)]
    rfl

/-- The name in the call of a script. -/
def name (script : ShellScript) : String := (script.shell.map Shell.name).getD ""

/-- The call of a script and its modifiers. -/
def pieces (script : ShellScript) : List String :=
  Call.written script.name script.body :: script.chdir.map (Call.written "chdir")

/-- What a script keeps from the text it was read from: its calls are lines without separators. -/
structure Legible (script : ShellScript) : Prop where
  body : '\n' ∉ script.body.toList
  chdir : ∀ directory ∈ script.chdir, '\n' ∉ directory.toList
  uncut : ∀ piece ∈ script.pieces, ¬ separator.toList <:+: piece.toList

theorem source_eq (script : ShellScript) :
    script.source = Call.written script.name script.body ++
      String.join ((script.chdir.map (Call.written "chdir")).map (separator ++ ·)) := by
  have suffixes : script.chdir.map (fun directory => separator ++ "$chdir(" ++ directory ++ ")") =
      (script.chdir.map (Call.written "chdir")).map (separator ++ ·) := by
    rw [List.map_map]
    refine List.map_congr_left fun directory _ => ?_
    apply String.toList_inj.mp
    simp [Call.written]
  rw [source, suffixes]
  rfl

theorem parse_cut_eq_ok_iff {text head : String} {modifiers : List String} {script : ShellScript}
    (cut : Text.split separator text = head :: modifiers) :
    parse text = .ok script ↔
      Call.parse head = .ok (script.name, script.body) ∧
        modifiers.mapM directoryOf = .ok script.chdir := by
  simp only [parse, Expression.headAndModifiers, cut]
  constructor
  · intro read
    obtain ⟨⟨name, body⟩, called, read⟩ := bind_eq_ok_iff.mp read
    dsimp only at read
    split at read
    · rename_i empty
      obtain ⟨shell, unnamed, read⟩ := bind_eq_ok_iff.mp read
      obtain ⟨chdir, changed, read⟩ := bind_eq_ok_iff.mp read
      obtain rfl := Except.ok.inj unnamed
      obtain rfl := Except.ok.inj read
      rw [empty] at called
      exact ⟨called, changed⟩
    · obtain ⟨found, known, read⟩ := bind_eq_ok_iff.mp read
      obtain ⟨chdir, changed, read⟩ := bind_eq_ok_iff.mp read
      obtain rfl := Except.ok.inj read
      cases listed : Shell.ofName name with
      | error fault =>
        rw [listed] at known
        cases known
      | ok shell =>
        rw [listed] at known
        obtain rfl := Except.ok.inj known
        rw [← Shell.name_of_ofName listed] at called
        exact ⟨called, changed⟩
  · rintro ⟨called, changed⟩
    obtain ⟨shell, body, chdir⟩ := script
    cases shell with
    | none => simp [called, changed, name, bind, Except.bind, pure, Except.pure]
    | some shell =>
      have named : shell.name ≠ "" := by cases shell <;> decide
      simp [called, changed, name, named, Shell.ofName_name, bind, Except.bind, pure, Except.pure,
        Functor.map, Except.map]

/-- A name opens no argument, and no separator. -/
theorem plain_name (script : ShellScript) :
    '(' ∉ script.name.toList ∧
      ¬ separator.toList <:+: (Call.written script.name "").toList := by
  have known (shell : Option Shell) : '(' ∉ ((shell.map Shell.name).getD "").toList ∧
      Text.contains separator (Call.written ((shell.map Shell.name).getD "") "") = false := by
    cases shell with
    | none => decide
    | some shell => cases shell <;> decide
  exact (known script.shell).imp_right Text.contains_eq_false_iff.mp

theorem legible_of_parse {text : String} {script : ShellScript} (read : parse text = .ok script) :
    script.Legible := by
  have parts (piece : String) (member : piece ∈ Text.split separator text) :
      ¬ separator.toList <:+: piece.toList := by
    obtain ⟨chars, found, rfl⟩ := List.mem_map.mp member
    rw [String.toList_ofList]
    exact Text.not_infix_of_mem_parts (by decide) found
  cases cut : Text.split separator text with
  | nil => exact absurd (List.map_eq_nil_iff.mp cut) (Text.parts_ne_nil _ _)
  | cons head modifiers =>
    rw [cut] at parts
    obtain ⟨called, changed⟩ := (parse_cut_eq_ok_iff cut).mp read
    obtain ⟨_, line, form⟩ := Call.of_parse called
    obtain ⟨rfl, lines⟩ := of_mapM_directoryOf changed
    refine ⟨line, lines, ?_⟩
    intro piece member
    rcases List.mem_cons.mp member with rfl | modifier
    · rcases form with rfl | ⟨_, empty⟩
      · exact parts _ List.mem_cons_self
      · rw [empty]
        exact script.plain_name.2
    · exact parts piece (List.mem_cons_of_mem head modifier)

/-- A script that was read is read back from how it is written. -/
theorem Legible.parse_source {script : ShellScript} (legible : script.Legible) :
    parse script.source = .ok script := by
  have closed (piece : String) (member : piece ∈ script.pieces) :
      ¬ separator.toList <:+: piece.toList ++ separator.toList.dropLast := by
    refine closed_of_getLast? ?_ (legible.uncut piece member)
    rcases List.mem_cons.mp member with rfl | modifier
    · simp [Call.getLast?_written]
    · obtain ⟨directory, _, rfl⟩ := List.mem_map.mp modifier
      simp [Call.getLast?_written]
  have cut : Text.split separator script.source = script.pieces := by
    rw [source_eq]
    exact Text.split_pieces (by decide) closed
  exact (parse_cut_eq_ok_iff cut).mpr ⟨Call.parse_written script.plain_name.1 legible.body,
    mapM_directoryOf_written legible.chdir⟩

end ShellScript

/-! ### Scripts with their interpreter -/

theorem Text.ShellWords.Closes.isBlank_eq_false {c : Char} (closes : Closes c) :
    isBlank c = false := by
  rcases closes with bare | rfl | rfl
  · rw [Quoting.allows, Bool.or_eq_true] at bare
    rcases bare with alphanumeric | listed
    · have bounds : 0x30 ≤ c.toNat ∧ c.toNat ≤ 0x7a := by
        have kinds : (c.isUpper || c.isLower || c.isDigit) = true := alphanumeric
        simp only [Bool.or_eq_true] at kinds
        rcases kinds with (upper | lower) | digit
        · have range : 65 ≤ c.toNat ∧ c.toNat ≤ 90 := of_decide_eq_true upper
          omega
        · have bounded : (decide (c.val ≥ 97) && decide (c.val ≤ 122)) = true := lower
          have range : 97 ≤ c.toNat ∧ c.toNat ≤ 122 := by
            simpa [UInt32.le_iff_toNat_le] using bounded
          omega
        · have range : 48 ≤ c.toNat ∧ c.toNat ≤ 57 := Char.isDigit_iff_toNat.mp digit
          omega
      simp only [isBlank, Bool.or_eq_false_iff, Bool.and_eq_false_iff, decide_eq_false_iff_not,
        beq_eq_false_iff_ne]
      omega
    · have all : "+-./:@]_".toList.all (!isBlank ·) = true := by decide
      simpa using List.all_eq_true.mp all c (by simpa using listed)
  · decide
  · decide

namespace Shebang

theorem of_header? {line command arguments : List Char}
    (found : header? line = some (command, arguments)) :
    command ≠ [] ∧ ' ' ∉ command ∧ command ⊆ line ∧ arguments ⊆ line := by
  obtain ⟨body, begins, found⟩ := Option.bind_eq_some_iff.mp found
  obtain ⟨_, checked, same⟩ := Option.bind_eq_some_iff.mp found
  obtain ⟨rfl, rfl⟩ := Prod.mk.inj (Option.some.inj same)
  obtain rfl := Text.after?_eq_some_iff.mp begins
  have some : body.takeWhile (· != ' ') ≠ [] := by
    intro empty
    rw [empty] at checked
    cases checked
  have word : ' ' ∉ body.takeWhile (· != ' ') := by
    intro member
    simpa using List.all_eq_true.mp List.all_takeWhile _ member
  exact ⟨some, word, List.subset_append_of_subset_right _ (List.takeWhile_prefix _).subset,
    List.subset_append_of_subset_right _ (List.drop_subset _ _)⟩

/-- A first line is read back when its command is one word and a space follows it, if anything. -/
theorem header?_written {command tail : List Char} (named : command ≠ []) (word : ' ' ∉ command)
    (line : '\n' ∉ command ++ tail) (space : ∀ c ∈ tail.head?, c = ' ') :
    header? ('#' :: '!' :: (command ++ tail)) = some (command, tail.drop 1) := by
  have begins : Text.after? ['#', '!'] ('#' :: '!' :: (command ++ tail)) = some (command ++ tail) :=
    Text.after?_eq_some_iff.mpr rfl
  have taken : (command ++ tail).takeWhile (· != ' ') = command := by
    have plain : ∀ c ∈ command, (c != ' ') = true := by
      intro c member
      simpa using fun same : c = ' ' => word (same ▸ member)
    exact (Text.takeWhile_dropWhile_append plain (by simpa using space)).1
  have left : (command ++ tail).drop (command.length + 1) = tail.drop 1 :=
    List.drop_length_add_append 1
  have kept : (!command.isEmpty && !(command ++ tail).contains '\n') = true := by
    simp [named, line]
  rw [header?, begins]
  dsimp only [Option.bind_eq_bind, Option.bind_some]
  rw [taken, left]
  exact Option.bind_eq_some_iff.mpr ⟨(), if_pos kept, rfl⟩

/-- What a script keeps from the text it was read from: its first line is one, and its command is
one word. -/
structure Legible (shebang : Shebang) : Prop where
  named : shebang.command ≠ ""
  word : ' ' ∉ shebang.command.toList
  line : '\n' ∉ shebang.command.toList
  args : ∀ argument ∈ shebang.args, '\n' ∉ argument.toList

/-- A script whose first line can be written: a shell has a word for each argument, and the command
is not trimmed where nothing follows it. -/
structure Writable (shebang : Shebang) : Prop where
  args : ∀ argument ∈ shebang.args, '\x00' ∉ argument.toList
  command : shebang.args = [] → ∀ c ∈ shebang.command.toList.getLast?, Text.isBlank c = false

theorem legible_of_read {text : String} {shebang : Shebang} (found : read text = .ok shebang) :
    shebang.Legible := by
  unfold read at found
  split at found
  · cases found
  · rename_i line script cut
    have whole : '\n' ∉ line := by
      have uncut := Text.not_infix_of_firstCut? (List.cons_ne_nil _ _) cut
      intro member
      obtain ⟨front, back, rfl⟩ := List.append_of_mem member
      exact uncut ⟨front, back, by simp⟩
    have trimmed : '\n' ∉ Text.trimBack (Text.trimFront line) := fun member =>
      whole (Text.trim_subset line member)
    split at found
    · cases found
    · rename_i command arguments header
      obtain ⟨named, word, inside, behind⟩ := of_header? header
      have line : '\n' ∉ command := fun member => trimmed (inside member)
      split at found
      · obtain rfl := Except.ok.inj found
        exact ⟨by simpa using named, by rwa [String.toList_ofList], by rwa [String.toList_ofList],
          by simp⟩
      · split at found
        · rename_i args cut
          obtain rfl := Except.ok.inj found
          refine ⟨by simpa using named, by rwa [String.toList_ofList], by rwa [String.toList_ofList], ?_⟩
          obtain ⟨words, split, rfl⟩ := Option.map_eq_some_iff.mp cut
          intro argument member newline
          obtain ⟨chars, listed, rfl⟩ := List.mem_map.mp member
          rw [String.toList_ofList] at newline split
          rcases Text.ShellWords.mem_of_read split chars listed _ newline with start | later
          · cases start
          · exact trimmed (behind later)
        · cases found

/-- The first line is found and taken apart as it was written. -/
theorem header_written {command tail : List Char} (named : command ≠ []) (word : ' ' ∉ command)
    (line : '\n' ∉ command ++ tail) (space : ∀ c ∈ tail.head?, c = ' ')
    (ends : ∀ c ∈ (command ++ tail).getLast?, Text.isBlank c = false) (script : List Char) :
    Text.firstCut? ['\n'] ('#' :: '!' :: (command ++ tail) ++ '\n' :: script) =
        some ('#' :: '!' :: (command ++ tail), script) ∧
      header? (Text.trimBack (Text.trimFront ('#' :: '!' :: (command ++ tail)))) =
        some (command, tail.drop 1) := by
  have whole : '\n' ∉ '#' :: '!' :: (command ++ tail) := by simpa using line
  have some : command ++ tail ≠ [] := by simp [named]
  have last : ('#' :: '!' :: (command ++ tail)).getLast? = (command ++ tail).getLast? := by
    rw [List.getLast?_cons_of_ne_nil (List.cons_ne_nil _ _), List.getLast?_cons_of_ne_nil some]
  refine ⟨Text.firstCut?_append whole script, ?_⟩
  rw [Text.trimFront_of_head? (by simp; decide), Text.trimBack_of_getLast? (last ▸ ends)]
  exact header?_written named word line space

/-- A script that was read is read back from how it is written. -/
theorem Legible.read_source {shebang : Shebang} (legible : shebang.Legible)
    (writable : shebang.Writable) : read shebang.source = .ok shebang := by
  have named : shebang.command.toList ≠ [] := by simpa using legible.named
  by_cases none : shebang.args = []
  · have chars : shebang.source.toList =
        '#' :: '!' :: (shebang.command.toList ++ []) ++ '\n' :: shebang.script.toList := by
      simp [source, none]
    have newline : '\n' ∉ shebang.command.toList ++ [] := by simpa using legible.line
    obtain ⟨cut, header⟩ := header_written named legible.word newline (by simp)
      (by simpa using writable.command none) shebang.script.toList
    rw [← chars] at cut
    simp only [read, cut, header]
    simp [← none]
  · obtain ⟨line, written, made⟩ := Text.ShellWords.exists_join? writable.args
    obtain ⟨d, last, closes⟩ := Text.ShellWords.exists_getLast?_join? written none
    have chars : shebang.source.toList =
        '#' :: '!' :: (shebang.command.toList ++ ' ' :: line.toList) ++
          '\n' :: shebang.script.toList := by
      simp [source, none, written]
    have newline : '\n' ∉ shebang.command.toList ++ ' ' :: line.toList := by
      simp only [List.mem_append, List.mem_cons, not_or]
      refine ⟨legible.line, by decide, fun member => ?_⟩
      rcases made _ member with ⟨argument, listed, inside⟩ | added
      · exact legible.args argument listed inside
      · exact absurd added (by decide)
    have ends : ∀ c ∈ (shebang.command.toList ++ ' ' :: line.toList).getLast?,
        Text.isBlank c = false := by
      intro c member
      rw [List.getLast?_append, List.getLast?_cons, last] at member
      obtain rfl : d = c := by simpa using member
      exact closes.isBlank_eq_false
    obtain ⟨cut, header⟩ := header_written named legible.word newline (by simp) ends
      shebang.script.toList
    have some : line.toList ≠ [] := by
      intro empty
      rw [empty] at last
      cases last
    rw [← chars] at cut
    simp only [read, cut, header]
    simp [some, Text.ShellWords.split?_join? written]

end Shebang

namespace RunField

/-- Whether a run field can be written. -/
def Writable : RunField → Prop
  | .alias _ => True
  | .script _ => True
  | .shebang interpreted => interpreted.Writable

theorem ofSource_of_ofList {argv : List String} {field : RunField} (read : ofList argv = .ok field) :
    ofSource field.source = .ok field := by
  have whole := read
  unfold ofList at read
  split at read
  · cases read
  · obtain rfl := Except.ok.inj read
    exact whole

theorem parse_script_source (script : ShellScript) :
    parse script.source = (ShellScript.parse script.source).map .script := by
  have opens : ∃ text, script.source.toList = '$' :: text := by
    rw [ShellScript.source_eq, String.toList_append, Call.toList_written]
    exact ⟨_, rfl⟩
  obtain ⟨text, chars⟩ := opens
  rw [parse, chars]
  rfl

theorem parse_shebang_source (shebang : Shebang) :
    parse shebang.source = (Shebang.parse shebang.source).map .shebang := by
  have opens : ∃ text, shebang.source.toList = '#' :: '!' :: text := by
    simp [Shebang.source, String.toList_append]
  obtain ⟨text, chars⟩ := opens
  rw [parse, chars]
  rfl

/-- A run field that was read is read back from how it is written, if it can be written. -/
theorem ofSource_source {written : RunSource} {field : RunField} (read : ofSource written = .ok field)
    (writable : field.Writable) : ofSource field.source = .ok field := by
  cases written with
  | list argv => exact ofSource_of_ofList read
  | text text =>
    rw [ofSource, parse] at read
    split at read
    · split at read
      · exact ofSource_of_ofList read
      · cases read
    · obtain ⟨script, found, rfl⟩ := map_eq_ok_iff.mp read
      rw [source, ofSource, parse_script_source, (ShellScript.legible_of_parse found).parse_source]
      rfl
    · obtain ⟨interpreted, found, rfl⟩ := map_eq_ok_iff.mp read
      have legible := Shebang.legible_of_read (mapError_eq_ok_iff.mp found)
      rw [source, ofSource, parse_shebang_source, Shebang.parse, legible.read_source writable]
      rfl
    · cases read

/-- A script with a directory, and arguments that need quotes. -/
theorem ofSource_source_sample :
    ofSource (source (.script ⟨some .bash, "echo $1", ["$gitworktree"]⟩)) =
        .ok (.script ⟨some .bash, "echo $1", ["$gitworktree"]⟩) ∧
      ofSource (source (.shebang ⟨"env", ["-S", "a b", ""], "cat\n"⟩)) =
        .ok (.shebang ⟨"env", ["-S", "a b", ""], "cat\n"⟩) := by
  have script : ofSource (.text "$bash(echo $1) ||| $chdir($gitworktree)") =
      .ok (.script ⟨some .bash, "echo $1", ["$gitworktree"]⟩) :=
    eq_ok_of_toOption (by decide +kernel)
  have shebang : ofSource (.text "#!env -S 'a b' \"\"\ncat\n") =
      .ok (.shebang ⟨"env", ["-S", "a b", ""], "cat\n"⟩) :=
    eq_ok_of_toOption (by decide +kernel)
  have writable : Writable (.shebang ⟨"env", ["-S", "a b", ""], "cat\n"⟩) :=
    ⟨by decide, fun none => absurd none (by decide)⟩
  exact ⟨ofSource_source script trivial, ofSource_source shebang writable⟩

/-- No shell has a word with a NUL: it is written without quotes, and read back as two. -/
theorem source_splits_argument :
    ofSource (.text "#!sh 'a\x00 b'\nx") = .ok (.shebang ⟨"sh", ["a\x00 b"], "x"⟩) ∧
      ofSource (source (.shebang ⟨"sh", ["a\x00 b"], "x"⟩)) =
        .ok (.shebang ⟨"sh", ["a\x00", "b"], "x"⟩) :=
  ⟨eq_ok_of_toOption (by decide +kernel), eq_ok_of_toOption (by decide +kernel)⟩

end RunField
end TabSpec

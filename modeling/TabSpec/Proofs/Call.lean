import TabSpec.Expression
import TabSpec.Proofs.Text.Cut

/-! Calls as they are written, and what is read of them: the name up to the first parenthesis, and the
argument up to the last. -/
namespace TabSpec

namespace Call

/-- A call as it is written. -/
def written (name argument : String) : String := "$" ++ name ++ "(" ++ argument ++ ")"

theorem toList_written (name argument : String) :
    (written name argument).toList =
      '$' :: (name.toList ++ '(' :: (argument.toList ++ [')'])) := by
  simp [written]

theorem getLast?_written (name argument : String) :
    (written name argument).toList.getLast? = some ')' := by
  rw [toList_written, ← List.cons_append, ← List.cons_append, ← List.append_assoc]
  exact List.getLast?_concat

/-- A name without a parenthesis is read to its end. -/
theorem bne_of_not_mem {name : List Char} (named : '(' ∉ name) : ∀ c ∈ name, (c != '(') = true := by
  intro c member
  simpa using ne_of_mem_of_not_mem member named

theorem parse_written {name argument : String} (named : '(' ∉ name.toList)
    (line : '\n' ∉ argument.toList) : parse (written name argument) = .ok (name, argument) := by
  have plain := bne_of_not_mem named
  simp only [parse, toList_written, ofChars?, List.takeWhile_append_of_pos plain,
    List.dropWhile_append_of_pos plain]
  simp [line]

theorem of_ofChars? {text : List Char} {call : Call} (read : ofChars? text = some call) :
    '(' ∉ call.name ∧ '\n' ∉ call.argument ∧
      (text = '$' :: (call.name ++ '(' :: (call.argument ++ [')'])) ∨
        text = '$' :: call.name ∧ call.argument = []) := by
  unfold ofChars? at read
  split at read
  · rename_i text
    have whole : text.takeWhile (· != '(') ++ text.dropWhile (· != '(') = text :=
      List.takeWhile_append_dropWhile
    have plain : '(' ∉ text.takeWhile (· != '(') := by
      intro member
      simpa using List.all_eq_true.mp List.all_takeWhile _ member
    dsimp only at read
    split at read
    · rename_i none
      obtain rfl := Option.some.inj read
      rw [none, List.append_nil] at whole
      exact ⟨plain, List.not_mem_nil, .inr ⟨by rw [whole], rfl⟩⟩
    · rename_i c body opened
      split at read
      · rename_i closed
        obtain ⟨last, line⟩ := closed
        obtain rfl := Option.some.inj read
        obtain rfl : c = '(' := by
          have head := List.head?_dropWhile_not (· != '(') text
          rw [opened] at head
          simpa using head
        have ended : body.dropLast ++ [')'] = body := by
          obtain ⟨front, rfl⟩ := List.getLast?_eq_some_iff.mp last
          rw [List.dropLast_concat]
        refine ⟨plain, fun member => line (List.dropLast_subset body member), .inl ?_⟩
        rw [ended, ← opened, whole]
      · cases read
  · cases read

/-- A call that can be read is written with parentheses, or without them and an argument. -/
theorem of_parse {call name argument : String} (read : parse call = .ok (name, argument)) :
    '(' ∉ name.toList ∧ '\n' ∉ argument.toList ∧
      (call = written name argument ∨ call = "$" ++ name ∧ argument = "") := by
  unfold parse at read
  split at read
  · rename_i parts found
    obtain ⟨rfl, rfl⟩ := Prod.mk.inj (Except.ok.inj read)
    obtain ⟨named, line, form⟩ := of_ofChars? found
    refine ⟨by rwa [String.toList_ofList], by rwa [String.toList_ofList], ?_⟩
    rcases form with chars | ⟨chars, empty⟩
    · refine .inl (String.toList_inj.mp ?_)
      rw [chars, toList_written, String.toList_ofList, String.toList_ofList]
    · refine .inr ⟨String.toList_inj.mp ?_, by rw [empty]⟩
      simp [chars]
  · cases read

/-- A call begins with its name, and a parenthesis if anything is behind it. -/
theorem exists_toList_of_form {call name argument : String}
    (form : call = written name argument ∨ call = "$" ++ name ∧ argument = "") :
    ∃ rest, call.toList = '$' :: (name.toList ++ rest) ∧ ∀ c ∈ rest.head?, c = '(' := by
  rcases form with rfl | ⟨rfl, -⟩
  · exact ⟨_, toList_written .., by simp⟩
  · exact ⟨[], by simp, by simp⟩

theorem exists_toList_of_parse {call name argument : String}
    (read : parse call = .ok (name, argument)) :
    ∃ rest, call.toList = '$' :: (name.toList ++ rest) ∧ ∀ c ∈ rest.head?, c = '(' :=
  exists_toList_of_form (of_parse read).2.2

/-- What stands behind a dollar up to the first parenthesis is looked up among the modifiers. -/
theorem modifier_of_toList {text name : String} {rest : List Char} (named : '(' ∉ name.toList)
    (whole : text.toList = '$' :: (name.toList ++ rest)) (opens : ∀ c ∈ rest.head?, c = '(') :
    Modifier.ofCall? text = Modifier.ofName? name := by
  have plain : ∀ c ∈ '$' :: name.toList, (c != '(') = true := bne_of_not_mem (by simpa using named)
  have stops : ∀ c ∈ rest.head?, (c != '(') = false := fun c first => by simp [opens c first]
  rw [Modifier.ofCall?, head, whole, ← List.cons_append,
    (Text.takeWhile_dropWhile_append plain stops).1]
  simp [Text.stripFront?, Text.after?]

/-- A call is a modifier when its name is that of one. -/
theorem modifier_of_parse {call name argument : String} (read : parse call = .ok (name, argument)) :
    Modifier.ofCall? call = Modifier.ofName? name := by
  obtain ⟨rest, whole, opens⟩ := exists_toList_of_parse read
  exact modifier_of_toList (of_parse read).1 whole opens

/-- Whether a text spells a call: a dollar and the name, which holds no parenthesis, and behind them the
argument between parentheses. An empty argument may be left out with its parentheses. -/
def Spells (text name argument : String) : Prop :=
  '(' ∉ name.toList ∧ (text = written name argument ∨ text = "$" ++ name ∧ argument = "")

instance (text name argument : String) : Decidable (Spells text name argument) :=
  inferInstanceAs (Decidable (_ ∧ _))

theorem parse_alone {name : String} (named : '(' ∉ name.toList) :
    parse ("$" ++ name) = .ok (name, "") := by
  have plain := bne_of_not_mem named
  have chars : ("$" ++ name).toList = '$' :: (name.toList ++ []) := by simp
  simp only [parse, chars, ofChars?, List.takeWhile_append_of_pos plain,
    List.dropWhile_append_of_pos plain]
  simp

theorem parse_eq_ok_iff_spells {text name argument : String} :
    parse text = .ok (name, argument) ↔ Spells text name argument ∧ '\n' ∉ argument.toList := by
  constructor
  · intro read
    obtain ⟨named, line, form⟩ := of_parse read
    exact ⟨⟨named, form⟩, line⟩
  · rintro ⟨⟨named, rfl | ⟨rfl, rfl⟩⟩, line⟩
    · exact parse_written named line
    · exact parse_alone named

/-- A front without a parenthesis belongs to the name of a call. -/
theorem ofChars?_append {front : List Char} (plain : '(' ∉ front) (text : List Char) :
    ofChars? ('$' :: (front ++ text)) =
      (ofChars? ('$' :: text)).map fun call => { call with name := front ++ call.name } := by
  have named := bne_of_not_mem plain
  simp only [ofChars?, List.takeWhile_append_of_pos named, List.dropWhile_append_of_pos named]
  split
  · rfl
  · split <;> rfl

theorem parse_append_eq_ok_iff {front : String} (plain : '(' ∉ front.toList)
    {text name argument : String} :
    parse ("$" ++ front ++ text) = .ok (name, argument) ↔
      ∃ rest, front ++ rest = name ∧ parse ("$" ++ text) = .ok (rest, argument) := by
  have whole : ("$" ++ front ++ text).toList = '$' :: (front.toList ++ text.toList) := by simp
  have alone : ("$" ++ text).toList = '$' :: text.toList := by simp
  rw [parse, parse, whole, alone, ofChars?_append plain]
  cases ofChars? ('$' :: text.toList) with
  | none => simp
  | some call =>
    simp only [Option.map_some, String.ofList_append, String.ofList_toList, Except.ok.injEq, Prod.mk.injEq]
    exact ⟨fun ⟨named, given⟩ => ⟨_, named, rfl, given⟩, fun ⟨_, named, same, given⟩ => ⟨same ▸ named, given⟩⟩

theorem exists_eq_append_of_parse {call name argument : String}
    (read : parse call = .ok (name, argument)) : ∃ back, call = "$" ++ name ++ back := by
  obtain ⟨back, whole, _⟩ := exists_toList_of_parse read
  exact ⟨String.ofList back, String.toList_inj.mp (by simp [whole])⟩

/-- A call is read as the name and the argument that it spells, whatever characters the argument holds
but the end of a line. What spells no such call is refused, and a call that was read is one of a
modifier exactly when it has the name of that modifier. -/
theorem parse_reads_spelled (text : String) :
    (∀ name argument, parse text = .ok (name, argument) ↔
      Spells text name argument ∧ '\n' ∉ argument.toList) ∧
    ((∀ name argument, Spells text name argument → '\n' ∈ argument.toList) →
      parse text = .error (.malformedCall text)) ∧
    ∀ name argument, parse text = .ok (name, argument) →
      ∀ modifier, Modifier.ofCall? text = some modifier ↔ name = modifier.name := by
  refine ⟨fun name argument => parse_eq_ok_iff_spells, ?_, ?_⟩
  · intro broken
    cases read : parse text with
    | ok parts =>
      obtain ⟨spelled, line⟩ := parse_eq_ok_iff_spells.mp read
      exact absurd (broken _ _ spelled) line
    | error fault =>
      unfold parse at read
      split at read
      · cases read
      · exact read.symm
  · intro name argument read modifier
    rw [modifier_of_parse read]
    exact Modifier.ofName?_eq_some_iff

/-- The argument of a modifier holds parentheses of its own, and a dollar. -/
theorem parse_reads_spelled_sample :
    Spells "$chdir($(a) (b)" "chdir" "$(a) (b" ∧
    parse "$chdir($(a) (b)" = .ok ("chdir", "$(a) (b") ∧
    Modifier.ofCall? "$chdir($(a) (b)" = some .chdir := by
  have spelled : Spells "$chdir($(a) (b)" "chdir" "$(a) (b" := ⟨by decide, .inl (by decide)⟩
  obtain ⟨reads, _, names⟩ := parse_reads_spelled "$chdir($(a) (b)"
  have read := (reads "chdir" "$(a) (b").mpr ⟨spelled, by decide⟩
  exact ⟨spelled, read, (names _ _ read .chdir).mpr rfl⟩

/-- A script of two lines is no argument, though a modifier of two lines is taken for a modifier. -/
theorem parse_refuses_second_line :
    Spells "$sh(a\nb)" "sh" "a\nb" ∧ parse "$sh(a\nb)" = .error (.malformedCall "$sh(a\nb)") ∧
    Spells "$usage(a\nb)" "usage" "a\nb" ∧ Modifier.ofCall? "$usage(a\nb)" = some .usage ∧
    parse "$usage(a\nb)" = .error (.malformedCall "$usage(a\nb)") := by
  refine ⟨by decide +kernel, ?_, by decide +kernel, by decide +kernel, ?_⟩
  · rfl
  · rfl

end Call

/-- No call is taken for one of the program's own without a dot in its name, unless the program has a
parenthesis in its name. -/
theorem Registry.localCall_of_parse {registry : Registry} (program : '(' ∉ registry.program.toList)
    {call name argument : String} (parsed : Call.parse call = .ok (name, argument))
    (undotted : '.' ∉ name.toList) : registry.localCall call = call := by
  obtain ⟨back, whole, opens⟩ := Call.exists_toList_of_parse parsed
  unfold localCall
  split
  · rfl
  · split
    · rename_i rest found
      have same : name.toList ++ back = registry.program.toList ++ '.' :: rest.toList := by
        have chars := congrArg String.toList (Text.eq_of_stripFront? found)
        rw [whole] at chars
        simpa using chars
      rcases List.append_eq_append_iff.mp same with ⟨between, front, behind⟩ | ⟨between, front, behind⟩
      · cases between with
        | nil => exact absurd (opens '.' (behind ▸ rfl)) (by decide)
        | cons c between =>
          obtain rfl := opens c (behind ▸ rfl)
          exact absurd (front ▸ by simp) program
      · cases between with
        | nil => exact absurd (opens '.' (by rw [← List.nil_append back, ← behind]; rfl)) (by decide)
        | cons c between =>
          obtain ⟨rfl, -⟩ := List.cons.inj behind
          exact absurd (front ▸ by simp) undotted
    · rfl

/-- A call without a dot in its name stands for what the registry knows under the name. -/
theorem Expression.resolve_of_parse {registry : Registry} (nested : SpecTarget → Action)
    (program : '(' ∉ registry.program.toList) {call name argument : String}
    (parsed : Call.parse call = .ok (name, argument)) (undotted : '.' ∉ name.toList)
    (current : Text.startsWith "_" name = false) {entry : Macro}
    (known : registry.get? name = some entry) :
    resolve registry nested call = entry.action nested argument := by
  have unsplit : Text.contains "." name = false := by
    rw [Text.contains_eq_false_iff]
    exact fun inside => undotted (inside.subset (by decide))
  have addressed : Addressee.of registry call name = .registry call := by
    simp [Addressee.of, current, unsplit, Registry.localCall_of_parse program parsed undotted]
  simp [resolve, parsed, addressed, Registry.actionOf, Registry.lookup, known, bind, Except.bind, pure,
    Except.pure]

end TabSpec

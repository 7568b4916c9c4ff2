import TabSpec.Spec.Basic

/-! The tokens that name a flag. -/
namespace TabSpec.Flag

/-- The long form and the short form, if there are such. -/
def forms (flag : Flag) : List String := flag.longForm?.toList ++ flag.shortForm?.toList

theorem mem_forms_iff {flag : Flag} {token : String} :
    token ∈ flag.forms ↔ flag.answersTo token = true := by
  simp [forms, answersTo, Option.mem_toList]

theorem answersTo_iff {flag : Flag} {token : String} :
    flag.answersTo token = true ↔
      flag.longForm? = some token ∨ flag.shortForm? = some token := by
  simp [answersTo]

/-- A form is a dash and a text behind it: the longhand, the longhand behind another dash, or the
shorthand. -/
theorem exists_of_answersTo {flag : Flag} {token : String}
    (answers : flag.answersTo token = true) :
    ∃ body, token = "-" ++ body ∧ body ≠ "" ∧
      (body = flag.longhand ∨ flag.longhand ≠ "" ∧ body = "-" ++ flag.longhand ∨
        body = flag.shorthand) := by
  rcases answersTo_iff.mp answers with long | short
  · unfold longForm? at long
    split at long
    · cases long
    · rename_i named
      cases single : flag.nameAsShorthand with
      | true =>
        simp only [single, if_true, Option.some.injEq] at long
        exact ⟨flag.longhand, long.symm, named, .inl rfl⟩
      | false =>
        simp only [single, Bool.false_eq_true, if_false, Option.some.injEq] at long
        refine ⟨"-" ++ flag.longhand, ?_, ?_, .inr (.inl ⟨named, rfl⟩)⟩
        · rw [← long, ← String.append_assoc]
          rfl
        · intro empty
          simpa using congrArg String.toList empty
  · unfold shortForm? at short
    split at short
    · cases short
    · rename_i named
      exact ⟨flag.shorthand, (Option.some.inj short).symm, named, .inr (.inr rfl)⟩

/-- A form begins with a dash that is not all of it. -/
theorem toList_of_answersTo {flag : Flag} {token : String}
    (answers : flag.answersTo token = true) : ∃ c rest, token.toList = '-' :: c :: rest := by
  obtain ⟨body, rfl, nonempty, _⟩ := exists_of_answersTo answers
  cases chars : body.toList with
  | nil => exact absurd (String.toList_inj.mp chars) nonempty
  | cons c rest => exact ⟨c, rest, by simp [chars]⟩

/-- Whether a flag comes from an identifier in a specification. -/
def IsRead (flag : Flag) : Prop := ∃ identifier entry, FlagEntry.flag identifier entry = .ok flag

private theorem dropDashes_ne_dash (form : List Char) : dropDashes form ≠ "-" := by
  intro same
  have chars : form.dropWhile (· == '-') = ['-'] := by
    simpa [dropDashes] using congrArg String.toList same
  have head := List.head?_dropWhile_not (· == '-') form
  simp [chars] at head

private theorem forms_of_parse {identifier description : String} {flag : Flag}
    (read : parse identifier description = .ok flag) :
    ∃ longhand shorthand, flag.longhand = dropDashes longhand ∧
      flag.shorthand = dropDashes shorthand := by
  unfold parse at read
  split at read
  · cases read
  · rename_i shorthand tail _
    dsimp only at read
    split at read
    · cases read
    · split at read
      · cases read
      · cases read
        exact ⟨tail.longhand, shorthand, rfl, rfl⟩

/-- No flag of a specification has the form that ends the flags of a command line. -/
theorem IsRead.answersTo_separator {flag : Flag} (read : flag.IsRead) :
    flag.answersTo "--" = false := by
  obtain ⟨identifier, entry, entered⟩ := read
  obtain ⟨longhand, shorthand, long, short⟩ : ∃ longhand shorthand,
      flag.longhand = dropDashes longhand ∧ flag.shorthand = dropDashes shorthand := by
    cases entry with
    | description text => exact forms_of_parse entered
    | extended text nargs =>
      simp only [FlagEntry.flag, bind, Except.bind] at entered
      split at entered
      · cases entered
      · rename_i parsed parse
        obtain ⟨longhand, shorthand, long, short⟩ := forms_of_parse parse
        refine ⟨longhand, shorthand, ?_, ?_⟩
        all_goals
          simp only [pure, Except.pure, Except.ok.injEq] at entered
          split at entered <;> subst flag <;> assumption
  apply Bool.eq_false_iff.mpr
  intro answers
  obtain ⟨body, same, nonempty, which⟩ := exists_of_answersTo answers
  have dash : body = "-" := by
    have chars : ("--" : String).toList = ("-" ++ body).toList := congrArg String.toList same
    apply String.toList_inj.mp
    simpa using chars.symm
  rcases which with longSame | ⟨named, doubled⟩ | shortSame
  · exact dropDashes_ne_dash longhand (long ▸ longSame ▸ dash)
  · apply named
    have chars := congrArg String.toList (doubled.symm.trans dash)
    apply String.toList_inj.mp
    simpa using chars
  · exact dropDashes_ne_dash shorthand (short ▸ shortSame ▸ dash)

end TabSpec.Flag

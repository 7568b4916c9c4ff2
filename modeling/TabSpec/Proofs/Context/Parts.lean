import TabSpec.Proofs.Walk.Exported

/-! The variables that describe the parts and the value of a context. Exporting sets one for each
part and one for the value, and leaves all others as they are, among them those of parts that an
earlier context had and this one has not. -/
namespace TabSpec.Context

/-- The variable that holds a part. -/
def partVariable (index : Nat) : String := "C_PART" ++ toString index

theorem partVariable_inj {first second : Nat} :
    partVariable first = partVariable second ↔ first = second := by
  refine ⟨fun same => ?_, congrArg partVariable⟩
  have digits : Nat.toDigits 10 first = Nat.toDigits 10 second := by
    have chars := congrArg String.toList same
    simp only [partVariable, String.toList_append] at chars
    simpa [Nat.toString_eq_ofList_toDigits] using List.append_cancel_left chars
  have numbers := congrArg (fun digits => Nat.ofDigitChars 10 digits 0) digits
  simpa [Nat.ofDigitChars_toDigits] using numbers

theorem partVariable_ne_value (index : Nat) : partVariable index ≠ "C_VALUE" := by
  intro same
  have chars := congrArg String.toList same
  simp [partVariable] at chars

/-- Exporting changes the variables only. -/
theorem exportParts_eq (context : Context) :
    context.exportParts = { context with
      bindings := (context.parts.zipIdx.foldl (fun bindings (entry : String × Nat) =>
        bindings.insert (partVariable entry.2) entry.1) context.bindings).insert "C_VALUE"
          context.value } := by
  have numbered := foldl_set (fun entry : String × Nat => partVariable entry.2) Prod.fst
    context.parts.zipIdx context
  unfold exportParts setNumbered
  exact congrArg (·.set "C_VALUE" context.value) numbered

@[simp] theorem value_exportParts (context : Context) :
    context.exportParts.value = context.value := by
  rw [exportParts_eq]

@[simp] theorem parts_exportParts (context : Context) :
    context.exportParts.parts = context.parts := by
  rw [exportParts_eq]

theorem get?_exportParts_value (context : Context) :
    context.exportParts.bindings.get? "C_VALUE" = some context.value := by
  rw [exportParts_eq, OrderedMap.get?_insert, if_pos rfl]

/-- Numbered from `first` on, texts are found under their numbers. -/
private theorem get?_foldl_part (texts : List String) (first index : Nat)
    (bindings : OrderedMap String) :
    ((texts.zipIdx first).foldl (fun bindings (entry : String × Nat) =>
        bindings.insert (partVariable entry.2) entry.1) bindings).get? (partVariable index) =
      if first ≤ index then texts[index - first]?.or (bindings.get? (partVariable index))
      else bindings.get? (partVariable index) := by
  induction texts generalizing first bindings with
  | nil => simp
  | cons text rest ih =>
    rw [List.zipIdx_cons, List.foldl_cons, ih, OrderedMap.get?_insert]
    simp only [partVariable_inj]
    rcases Nat.lt_trichotomy first index with before | here | behind
    · have apart : first ≠ index := Nat.ne_of_lt before
      have further : index - first = index - (first + 1) + 1 := by omega
      rw [if_pos (Nat.succ_le_of_lt before), if_neg apart, if_pos (Nat.le_of_lt before), further,
        List.getElem?_cons_succ]
    · subst here
      rw [if_neg (Nat.not_succ_le_self first), if_pos rfl, if_pos (Nat.le_refl first)]
      simp
    · have apart : first ≠ index := Nat.ne_of_gt behind
      rw [if_neg (by omega), if_neg apart, if_neg (by omega)]

/-- A part that the context has is exported, and the variable of one that it has not stays. -/
theorem get?_exportParts_part (context : Context) (index : Nat) :
    context.exportParts.bindings.get? (partVariable index) =
      context.parts[index]?.or (context.bindings.get? (partVariable index)) := by
  have numbered := get?_foldl_part context.parts 0 index context.bindings
  rw [if_pos (Nat.zero_le index), Nat.sub_zero] at numbered
  rw [exportParts_eq, OrderedMap.get?_insert, if_neg (partVariable_ne_value index).symm]
  exact numbered

end TabSpec.Context

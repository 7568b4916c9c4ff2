import TabSpec.Completion.Basic

/-! What a completion offers: its candidates, where no space follows them, and the usage. Messages
are said beside the offer, and no operation on completions lets them influence it. -/
namespace TabSpec.Completion

/-- Two completions that differ in their messages at most. -/
structure SameOffer (first second : Completion) : Prop where
  suggestions : first.suggestions = second.suggestions
  nospace : first.nospace = second.nospace
  usage : first.usage = second.usage

namespace SameOffer

variable {first second : Completion}

protected theorem rfl : SameOffer first first := ⟨rfl, rfl, rfl⟩

theorem addNospace (same : SameOffer first second) (chars : String) :
    SameOffer (first.addNospace chars) (second.addNospace chars) := by
  unfold Completion.addNospace
  rw [same.nospace]
  split
  · exact same
  · split
    · exact ⟨same.suggestions, rfl, same.usage⟩
    · exact ⟨same.suggestions, rfl, same.usage⟩

theorem mapSuggestions (same : SameOffer first second) (change : Suggestion → Suggestion) :
    SameOffer (first.mapSuggestions change) (second.mapSuggestions change) :=
  ⟨congrArg (List.map change) same.suggestions, same.nospace, same.usage⟩

theorem append {front back : Completion} (same : SameOffer first second)
    (behind : SameOffer front back) : SameOffer (first.append front) (second.append back) := by
  unfold Completion.append
  rw [same.suggestions, same.nospace, same.usage, behind.suggestions, behind.nospace,
    behind.usage]
  refine addNospace ?_ _
  exact ⟨rfl, rfl, rfl⟩

/-- Folding keeps what every step keeps. -/
theorem foldl {Value : Type} {step : Completion → Value → Completion}
    (keeps : ∀ first second value, SameOffer first second →
      SameOffer (step first value) (step second value))
    (same : SameOffer first second) (values : List Value) :
    SameOffer (values.foldl step first) (values.foldl step second) := by
  induction values generalizing first second with
  | nil => exact same
  | cons value rest ih => exact ih (keeps first second value same)

end SameOffer

/-- A change that does not let messages influence the offer. -/
def Quiet (change : Completion → Completion) : Prop :=
  ∀ first second, SameOffer first second → SameOffer (change first) (change second)

theorem quiet_id : Quiet id := fun _ _ same => same

theorem quiet_addNospace (chars : String) : Quiet (·.addNospace chars) :=
  fun _ _ same => same.addNospace chars

theorem quiet_mapSuggestions (change : Suggestion → Suggestion) :
    Quiet (·.mapSuggestions change) :=
  fun _ _ same => same.mapSuggestions change

theorem quiet_prependValues (front : String) : Quiet (·.prependValues front) :=
  quiet_mapSuggestions _

theorem quiet_filter (wanted : Suggestion → Bool) :
    Quiet fun completion =>
      { completion with suggestions := completion.suggestions.filter wanted } :=
  fun _ _ same => ⟨congrArg (List.filter wanted) same.suggestions, same.nospace, same.usage⟩

theorem quiet_withUsage (usage : String) : Quiet fun completion => { completion with usage } :=
  fun _ _ same => ⟨same.suggestions, same.nospace, rfl⟩

theorem quiet_filterMessages (wanted : String → Bool) :
    Quiet fun completion => { completion with messages := completion.messages.filter wanted } :=
  fun _ _ same => ⟨same.suggestions, same.nospace, same.usage⟩

/-! ### Messages of merged completions -/

/-- A message at the end of a completion changes nothing else. -/
theorem append_ofMessage (completion : Completion) (message : String) :
    completion.append (ofMessage message) =
      { completion with messages := completion.messages ++ [message] } := by
  obtain ⟨suggestions, messages, nospace, usage⟩ := completion
  by_cases all : nospace = "*"
  · simp [append, ofMessage, addSuggestions, addNospace, all]
  · simp [append, ofMessage, addSuggestions, addNospace, addChars, all]

theorem messages_addNospace (completion : Completion) (chars : String) :
    (completion.addNospace chars).messages = completion.messages := by
  unfold addNospace
  split
  · rfl
  · split <;> rfl

theorem messages_append (first second : Completion) :
    (first.append second).messages = first.messages ++ second.messages :=
  messages_addNospace ..

theorem messages_foldl_append (completions : List Completion) (first : Completion) :
    (completions.foldl append first).messages =
      first.messages ++ completions.flatMap (·.messages) := by
  induction completions generalizing first with
  | nil => simp
  | cons completion rest ih => simp [ih, messages_append]

/-- All messages are kept, in order. -/
theorem messages_merge (completions : List Completion) :
    (merge completions).messages = completions.flatMap (·.messages) := by
  rw [merge, messages_foldl_append]
  rfl

/-- A completion that only says something does not change what the others offer. -/
theorem merge_insert_message (before after : List Completion) (message : String) :
    SameOffer (merge (before ++ ofMessage message :: after)) (merge (before ++ after)) := by
  simp only [merge, List.foldl_append, List.foldl_cons, append_ofMessage]
  refine SameOffer.foldl ?_ ?_ after
  · intro _ _ _ same
    exact same.append .rfl
  · exact ⟨rfl, rfl, rfl⟩

end TabSpec.Completion

import TabSpec.Proofs.Substitution

/-! Texts as segments: literal text in which no placeholder is opened, and placeholders. A text that is
written of segments is filled segment by segment, whatever the variables and the defaults hold; every other
text is malformed, whatever the variables are. -/
namespace TabSpec.Substitution

/-- A piece of a text with placeholders. -/
inductive Segment
  | literal (text : String)
  | plain (name : String)
  /-- With a default for an unset variable. -/
  | orUnset (name default : String)
  /-- With a default for a variable that is unset or empty. -/
  | orEmpty (name default : String)
deriving DecidableEq

namespace Segment

def isLiteral : Segment → Bool
  | .literal _ => true
  | _ => false

def written : Segment → String
  | .literal text => text
  | .plain name => "$\x7b" ++ name ++ "\x7d"
  | .orUnset name default => "$\x7b" ++ name ++ "-" ++ default ++ "\x7d"
  | .orEmpty name default => "$\x7b" ++ name ++ ":-" ++ default ++ "\x7d"

/-- What a segment stands for. -/
def meaning (lookup : String → Option String) : Segment → String
  | .literal text => text
  | .plain name => (lookup name).getD ""
  | .orUnset name default => (lookup name).getD default
  | .orEmpty name default =>
    match lookup name with
    | some value => if value = "" then default else value
    | none => default

/-- A literal opens no placeholder, and a default does not close the one that it stands in. -/
def IsWellFormed : Segment → Prop
  | .literal text => Text.contains "$\x7b" text = false
  | .plain name => IsName name
  | .orUnset name default | .orEmpty name default => IsName name ∧ '\x7d' ∉ default.toList

end Segment

/-- Well-formed segments, no two literals one behind the other. -/
inductive Segmented : List Segment → Prop
  | nil : Segmented []
  | cons {segment : Segment} {rest : List Segment} (wellFormed : segment.IsWellFormed)
      (apart : segment.isLiteral = true → ∀ next ∈ rest.head?, next.isLiteral = false)
      (later : Segmented rest) : Segmented (segment :: rest)

/-- The text that is written of segments. -/
def written (segments : List Segment) : String := String.join (segments.map Segment.written)

/-! ### Placeholders as segments -/

/-- A placeholder that is read, as a segment. -/
def Segment.ofPlaceholder (placeholder : Placeholder) : Segment :=
  match placeholder.fallback with
  | .none => .plain (String.ofList placeholder.name)
  | .unset text => .orUnset (String.ofList placeholder.name) (String.ofList text)
  | .unsetOrEmpty text => .orEmpty (String.ofList placeholder.name) (String.ofList text)

namespace Segment

variable (placeholder : Placeholder)

theorem isLiteral_ofPlaceholder : (ofPlaceholder placeholder).isLiteral = false := by
  unfold ofPlaceholder
  cases placeholder.fallback <;> rfl

theorem toList_written_ofPlaceholder :
    (ofPlaceholder placeholder).written.toList =
      '$' :: '\x7b' :: (placeholder.name ++ placeholder.fallback.written ++ ['\x7d']) := by
  unfold ofPlaceholder
  cases placeholder.fallback <;> simp [written, Fallback.written]

theorem toList_meaning_ofPlaceholder (lookup : String → Option String) :
    ((ofPlaceholder placeholder).meaning lookup).toList = placeholder.value lookup := by
  unfold ofPlaceholder Placeholder.value
  cases found : lookup (String.ofList placeholder.name) with
  | none => cases placeholder.fallback <;> simp [meaning, found]
  | some value =>
    cases placeholder.fallback with
    | none => simp [meaning, found]
    | unset text => simp [meaning, found]
    | unsetOrEmpty text =>
      by_cases empty : value = ""
      · simp [meaning, found, empty, Option.filter]
      · simp [meaning, found, empty, Option.filter]

theorem isWellFormed_ofPlaceholder_iff :
    (ofPlaceholder placeholder).IsWellFormed ↔ placeholder.IsWellFormed := by
  obtain ⟨name, fallback⟩ := placeholder
  have isName : IsName (String.ofList name) ↔
      ∃ c rest, name = c :: rest ∧ isNameStart c = true ∧ ∀ d ∈ rest, isNameChar d = true := by
    rw [IsName, String.toList_ofList]
  cases fallback with
  | none =>
    exact isName.trans ⟨fun named => ⟨named, List.not_mem_nil⟩, fun wellFormed => wellFormed.name⟩
  | unset text =>
    have closed : '\x7d' ∉ (String.ofList text).toList ↔ '\x7d' ∉ (Fallback.unset text).written := by
      simp [Fallback.written]
    exact (and_congr isName closed).trans ⟨fun both => ⟨both.1, both.2⟩, fun both => ⟨both.1, both.2⟩⟩
  | unsetOrEmpty text =>
    have closed : '\x7d' ∉ (String.ofList text).toList ↔
        '\x7d' ∉ (Fallback.unsetOrEmpty text).written := by
      simp [Fallback.written]
    exact (and_congr isName closed).trans ⟨fun both => ⟨both.1, both.2⟩, fun both => ⟨both.1, both.2⟩⟩

theorem exists_ofPlaceholder {segment : Segment} (other : segment.isLiteral = false) :
    ∃ placeholder, segment = ofPlaceholder placeholder := by
  cases segment with
  | literal text => cases other
  | plain name => exact ⟨⟨name.toList, .none⟩, by simp [ofPlaceholder]⟩
  | orUnset name default => exact ⟨⟨name.toList, .unset default.toList⟩, by simp [ofPlaceholder]⟩
  | orEmpty name default =>
    exact ⟨⟨name.toList, .unsetOrEmpty default.toList⟩, by simp [ofPlaceholder]⟩

end Segment

theorem toList_written_cons (segment : Segment) (rest : List Segment) :
    (written (segment :: rest)).toList = segment.written.toList ++ (written rest).toList := by
  simp [written]

/-! ### Filling segments -/

variable (lookup : String → Option String)

/-- The text that segments stand for. -/
def meaning (segments : List Segment) : String := String.join (segments.map (Segment.meaning lookup))

theorem toList_meaning_cons (segment : Segment) (rest : List Segment) :
    (meaning lookup (segment :: rest)).toList =
      (segment.meaning lookup).toList ++ (meaning lookup rest).toList := by
  simp [meaning]

/-- Behind a literal stands a dollar or nothing. -/
theorem head?_written {segments : List Segment}
    (apart : ∀ next ∈ segments.head?, next.isLiteral = false) :
    (written segments).toList.head? ≠ some '\x7b' := by
  cases segments with
  | nil => simp [written]
  | cons segment rest =>
    obtain ⟨placeholder, rfl⟩ := Segment.exists_ofPlaceholder (apart segment rfl)
    rw [toList_written_cons, Segment.toList_written_ofPlaceholder]
    simp

/-- Segments are filled one behind the other. -/
theorem expandChars_written {segments : List Segment} (segmented : Segmented segments) :
    expandChars lookup (written segments).toList = some (meaning lookup segments).toList := by
  induction segmented with
  | nil => simp [written, meaning, expandChars]
  | @cons segment rest wellFormed apart later ih =>
    rw [toList_written_cons, toList_meaning_cons]
    cases kind : segment.isLiteral with
    | false =>
      obtain ⟨placeholder, rfl⟩ := Segment.exists_ofPlaceholder kind
      rw [Segment.isWellFormed_ofPlaceholder_iff] at wellFormed
      have read := placeholder?_written wellFormed (written rest).toList
      have whole : (Segment.ofPlaceholder placeholder).written.toList ++ (written rest).toList =
          '$' :: '\x7b' :: (placeholder.name ++ placeholder.fallback.written ++
            '\x7d' :: (written rest).toList) := by
        rw [Segment.toList_written_ofPlaceholder]
        simp
      rw [whole, expandChars_placeholder lookup read, ih, Segment.toList_meaning_ofPlaceholder]
      rfl
    | true =>
      cases segment with
      | literal text =>
        have closed : ¬ ['$', '\x7b'] <:+: text.toList := Text.contains_eq_false_iff.mp wellFormed
        rw [Segment.written, expandChars_append lookup closed (head?_written (apart rfl)), ih]
        rfl
      | plain name => cases kind
      | orUnset name default => cases kind
      | orEmpty name default => cases kind

/-- A character goes in front of segments, unless it opens a placeholder with what stands behind it. -/
theorem exists_segmented_cons {c : Char} {segments : List Segment} (segmented : Segmented segments)
    (closed : ¬ ['$', '\x7b'] <+: c :: (written segments).toList) :
    ∃ more, Segmented more ∧ (written more).toList = c :: (written segments).toList := by
  have alone : Segment.IsWellFormed (.literal (String.ofList [c])) := by
    refine Text.contains_eq_false_iff.mpr fun inside => ?_
    have long := inside.length_le
    simp at long
  have fresh (apart : ∀ next ∈ segments.head?, next.isLiteral = false) :
      ∃ more, Segmented more ∧ (written more).toList = c :: (written segments).toList := by
    refine ⟨.literal (String.ofList [c]) :: segments, .cons alone (fun _ => apart) segmented, ?_⟩
    simp [toList_written_cons, Segment.written]
  cases segmented with
  | nil => exact fresh (by simp)
  | @cons segment rest wellFormed apart later =>
    cases segment with
    | literal text =>
      have longer : Segment.IsWellFormed (.literal (String.ofList (c :: text.toList))) := by
        refine Text.contains_eq_false_iff.mpr fun inside => ?_
        have inside : ['$', '\x7b'] <:+: c :: text.toList := by simpa using inside
        rcases List.infix_cons_iff.mp inside with begins | later
        · refine closed (begins.trans ?_)
          rw [toList_written_cons]
          exact List.prefix_append (c :: text.toList) _
        · exact Text.contains_eq_false_iff.mp wellFormed later
      refine ⟨.literal (String.ofList (c :: text.toList)) :: rest,
        .cons longer (fun _ => apart rfl) later, ?_⟩
      simp [toList_written_cons, Segment.written]
    | plain name => exact fresh (by simp [Segment.isLiteral])
    | orUnset name default => exact fresh (by simp [Segment.isLiteral])
    | orEmpty name default => exact fresh (by simp [Segment.isLiteral])

theorem exists_segmented {text filled : List Char} (fills : expandChars lookup text = some filled) :
    ∃ segments, Segmented segments ∧ (written segments).toList = text := by
  fun_induction expandChars lookup text generalizing filled with
  | case1 => exact ⟨[], .nil, by simp [written]⟩
  | case2 text found behind read shorter ih =>
    obtain ⟨later, expanded, -⟩ := Option.map_eq_some_iff.mp fills
    obtain ⟨segments, segmented, whole⟩ := ih expanded
    obtain ⟨front, wellFormed⟩ := of_placeholder? read
    refine ⟨.ofPlaceholder found :: segments, .cons ?_ ?_ segmented, ?_⟩
    · exact (Segment.isWellFormed_ofPlaceholder_iff found).mpr wellFormed
    · simp [Segment.isLiteral_ofPlaceholder]
    · rw [toList_written_cons, Segment.toList_written_ofPlaceholder, whole, front]
      simp
  | case3 text read => cases fills
  | case4 c text unopened ih =>
    obtain ⟨later, expanded, -⟩ := Option.map_eq_some_iff.mp fills
    obtain ⟨segments, segmented, rfl⟩ := ih expanded
    refine exists_segmented_cons segmented ?_
    rintro ⟨behind, opened⟩
    obtain ⟨rfl, whole⟩ := List.cons.inj opened
    exact unopened behind rfl whole.symm

/-- A text that is written of segments is filled by what each of them stands for: literals stay, and what a
variable or a default holds is not looked at again. Any other text is refused. Neither depends on what the
variables are. -/
theorem expand_segments (text : String) :
    (∀ segments, Segmented segments → text = written segments →
      ∀ lookup, expand lookup text = .ok (meaning lookup segments)) ∧
    ((¬ ∃ segments, Segmented segments ∧ text = written segments) →
      ∀ lookup, expand lookup text = .error (.substitution text)) := by
  constructor
  · rintro segments segmented rfl lookup
    exact expand_eq_ok_iff.mpr (expandChars_written lookup segmented)
  · intro none lookup
    cases fills : expandChars lookup text.toList with
    | none => rw [expand, fills]
    | some filled =>
      obtain ⟨segments, segmented, whole⟩ := exists_segmented lookup fills
      exact absurd ⟨segments, segmented, String.toList_inj.mp whole.symm⟩ none

namespace Sample

/-- A dollar in front of a placeholder, and a default that looks like one. -/
def segments : List Segment := [.literal "a$", .orEmpty "A" "$\x7bB", .plain "B", .orUnset "C" "c"]

/-- A variable that is empty, and one that holds a placeholder. -/
def valueOf (name : String) : Option String :=
  List.lookup name [("A", ""), ("B", "$\x7bA\x7d")]

end Sample

/-- A default and a value that look like placeholders stay as they are; a placeholder that is not closed is
refused. -/
theorem expand_segments_sample :
    Segmented Sample.segments ∧
    written Sample.segments = "a$$\x7bA:-$\x7bB\x7d$\x7bB\x7d$\x7bC-c\x7d" ∧
    meaning Sample.valueOf Sample.segments = "a$$\x7bB$\x7bA\x7dc" ∧
    expand Sample.valueOf "a$$\x7bA:-$\x7bB\x7d$\x7bB\x7d$\x7bC-c\x7d" =
      .ok (meaning Sample.valueOf Sample.segments) ∧
    (¬ ∃ segments, Segmented segments ∧ "a$\x7bA" = written segments) ∧
    expand Sample.valueOf "a$\x7bA" = .error (.substitution "a$\x7bA") := by
  have named : IsName "A" ∧ IsName "B" ∧ IsName "C" := by
    refine ⟨⟨'A', [], ?_⟩, ⟨'B', [], ?_⟩, ⟨'C', [], ?_⟩⟩ <;> exact ⟨by decide, by decide, by simp⟩
  have segmented : Segmented Sample.segments :=
    .cons (by decide +kernel : Text.contains "$\x7b" "a$" = false)
      (fun _ next first => Option.some.inj first ▸ rfl) <|
    .cons ⟨named.1, by decide⟩ (nomatch ·) <|
    .cons named.2.1 (nomatch ·) <|
    .cons ⟨named.2.2, by decide⟩ (nomatch ·) .nil
  have whole : "a$$\x7bA:-$\x7bB\x7d$\x7bB\x7d$\x7bC-c\x7d" = written Sample.segments := by
    decide +kernel
  have stands : meaning Sample.valueOf Sample.segments = "a$$\x7bB$\x7bA\x7dc" := by
    decide +kernel
  have malformed : expandChars Sample.valueOf "a$\x7bA".toList = none := by decide +kernel
  have none : ¬ ∃ segments, Segmented segments ∧ "a$\x7bA" = written segments := by
    rintro ⟨segments, segmented, same⟩
    have fills := expand_eq_ok_iff.mp ((expand_segments _).1 segments segmented same Sample.valueOf)
    rw [malformed] at fills
    cases fills
  exact ⟨segmented, whole.symm, stands,
    (expand_segments _).1 Sample.segments segmented whole Sample.valueOf, none,
    (expand_segments _).2 none Sample.valueOf⟩

end TabSpec.Substitution

import TabSpec.Completion.Basic
import TabSpec.Fault
import TabSpec.Json.Reader
import TabSpec.Json.Writer
import TabSpec.Text.Octets

/-! Completions exchanged between programs, as JSON. Fields without content are left out. -/
namespace TabSpec

private def textField (name value : String) : List (String × Json) :=
  if value = "" then [] else [(name, .string value)]

def Suggestion.toJson (suggestion : Suggestion) : Json :=
  .object ([("value", .string suggestion.value), ("display", .string suggestion.display)] ++
    textField "description" suggestion.description ++ textField "style" suggestion.style ++
    textField "tag" suggestion.tag)

def Completion.toJson (completion : Completion) : Json :=
  .object ([("suggestions", .array (completion.suggestions.map Suggestion.toJson))] ++
    (if completion.messages = [] then []
      else [("messages", Json.ofStrings completion.messages)]) ++
    textField "nospace" completion.nospace ++ textField "usage" completion.usage)

/-- The fields of a record, whether written with their names or as a bare list in order. A name that
is known may stand only once. -/
def Json.record? (names : List String) : Json → Option (List (String × Json))
  | .object fields =>
    let known := fields.filter fun field => names.contains field.1
    if (known.map (·.1)).Nodup then some known else none
  | .array items => if items.length ≤ names.length then some (names.zip items) else none
  | _ => none

private def readText (fields : List (String × Json)) (name : String) : Option String :=
  match fields.lookup name with
  | some json => json.string?
  | none => some ""

def Suggestion.ofJson? (json : Json) : Option Suggestion := do
  let fields ← json.record? ["value", "display", "description", "style", "tag"]
  let value ← fields.lookup "value"
  return {
    value := ← value.string?
    display := ← readText fields "display"
    description := ← readText fields "description"
    style := ← readText fields "style"
    tag := ← readText fields "tag" }

private def readList {Value : Type} (fields : List (String × Json)) (name : String)
    (read : Json → Option Value) : Option (List Value) :=
  match fields.lookup name with
  | some json => json.array?.bind (·.mapM read)
  | none => some []

def Completion.ofJson? (json : Json) : Option Completion := do
  let fields ← json.record? ["suggestions", "messages", "nospace", "usage"]
  return {
    suggestions := ← readList fields "suggestions" Suggestion.ofJson?
    messages := ← readList fields "messages" Json.string?
    nospace := ← readText fields "nospace"
    usage := ← readText fields "usage" }

/-- Write a completion for another program. -/
def Completion.exported (completion : Completion) : String := completion.toJson.render

/-- Read a completion that another program wrote. -/
def Completion.ofExport (text : String) : Except SpecFault Completion :=
  match Json.ofText text with
  | .ok json =>
    match ofJson? json with
    | some completion => .ok completion
    | none =>
      let position := (Json.Fault.mk 0).position text.toList
      .error (.export position.1 position.2)
  | .error fault =>
    let position := fault.position text.toList
    .error (.export position.1 position.2)

/-- Read what another program wrote; a fault becomes a message. -/
def Completion.ofOctets (octets : List Char) : Completion :=
  match Text.ofOctets? octets with
  | none => ofMessage (SpecFault.export 1 0).message
  | some text =>
    match ofExport text with
    | .ok completion => completion
    | .error fault => ofMessage fault.message

/-! ### Records read back -/

/-- A record written with some of its fields, in their order. -/
private theorem Json.record?_object {names : List String} {fields : List (String × Json)}
    (distinct : names.Nodup) (ordered : (fields.map (·.1)).Sublist names) :
    (Json.object fields).record? names = some fields := by
  have kept : fields.filter (fun field => names.contains field.1) = fields :=
    List.filter_eq_self.mpr fun field member => by
      simpa using ordered.subset (List.mem_map_of_mem member)
  rw [record?]
  simp only [kept, if_pos (distinct.sublist ordered)]

section

variable {absent : Prop} [Decidable absent] {name other : String}

private theorem names_optional (name : String) (json : Json) :
    ((if absent then [] else [(name, json)]).map (·.1)).Sublist [name] := by
  split
  · exact List.nil_sublist _
  · exact List.Sublist.refl _

private theorem lookup_optional (apart : other ≠ name) (json : Json) :
    (if absent then [] else [(name, json)]).lookup other = none := by
  split <;> simp [List.lookup_cons, beq_false_of_ne apart]

private theorem lookup_textField (apart : other ≠ name) (value : String) :
    (textField name value).lookup other = none := lookup_optional apart _

end

private theorem string_of_mem_textField {name value : String} {field : String × Json}
    (member : field ∈ textField name value) : ∃ text, field.2 = .string text := by
  unfold textField at member
  split at member
  · cases member
  · exact ⟨value, congrArg Prod.snd (List.mem_singleton.mp member)⟩

/-- A text that is left out when it is empty is read back. -/
private theorem readText_of_lookup {fields : List (String × Json)} {name value : String}
    (same : fields.lookup name = (textField name value).lookup name) :
    readText fields name = some value := by
  rw [readText, same, textField]
  split
  · rename_i json found
    split at found
    · cases found
    · simp only [List.lookup_cons_self, Option.some.injEq] at found
      exact found ▸ rfl
  · rename_i missing
    split at missing
    · rename_i none
      rw [none]
    · simp at missing

/-- A candidate is written as texts only. -/
theorem Suggestion.exists_toJson (suggestion : Suggestion) : ∃ fields,
    suggestion.toJson = .object fields ∧ ∀ field ∈ fields, ∃ text, field.2 = .string text := by
  refine ⟨_, rfl, fun field member => ?_⟩
  simp only [List.mem_append, List.mem_cons, List.not_mem_nil, or_false] at member
  obtain (((rfl | rfl) | described) | styled) | tagged := member
  · exact ⟨suggestion.value, rfl⟩
  · exact ⟨suggestion.display, rfl⟩
  · exact string_of_mem_textField described
  · exact string_of_mem_textField styled
  · exact string_of_mem_textField tagged

/-- A candidate that was written is read back. -/
theorem Suggestion.ofJson?_toJson (suggestion : Suggestion) :
    ofJson? suggestion.toJson = some suggestion := by
  unfold toJson ofJson?
  generalize written : [("value", Json.string suggestion.value),
    ("display", Json.string suggestion.display)] ++ _ ++ _ ++ _ = fields
  have ordered : (fields.map (·.1)).Sublist ["value", "display", "description", "style", "tag"] := by
    simp only [← written, List.map_append]
    exact (((List.Sublist.refl ["value", "display"]).append (names_optional ..)).append
      (names_optional ..)).append (names_optional ..)
  have value : fields.lookup "value" = some (.string suggestion.value) := by
    simp [← written]
  have display : readText fields "display" = some suggestion.display := by
    simp [← written, readText, List.lookup_cons, Json.string?]
  have description : readText fields "description" = some suggestion.description := by
    apply readText_of_lookup
    simp [← written, List.lookup_append, lookup_textField, List.lookup_cons]
  have style : readText fields "style" = some suggestion.style := by
    apply readText_of_lookup
    simp [← written, List.lookup_append, lookup_textField, List.lookup_cons]
  have tag : readText fields "tag" = some suggestion.tag := by
    apply readText_of_lookup
    simp [← written, List.lookup_append, lookup_textField, List.lookup_cons]
  simp only [Json.record?_object (by decide) ordered, value, display, description, style, tag,
    Json.string?, Option.bind_eq_bind, Option.bind_some]
  rfl

private theorem mapM_map_of_read {Value Written : Type} (write : Value → Written)
    (read : Written → Option Value) (back : ∀ value, read (write value) = some value)
    (values : List Value) : (values.map write).mapM read = some values := by
  induction values with
  | nil => rfl
  | cons value rest ih => simp [List.mapM_cons, back, ih]

/-- A completion is written as its candidates, its messages and texts. -/
theorem Completion.exists_toJson (completion : Completion) : ∃ fields,
    completion.toJson = .object fields ∧ ∀ field ∈ fields,
      field.2 = .array (completion.suggestions.map Suggestion.toJson) ∨
      field.2 = Json.ofStrings completion.messages ∨ ∃ text, field.2 = .string text := by
  refine ⟨_, rfl, fun field member => ?_⟩
  simp only [List.mem_append, List.mem_singleton] at member
  obtain ((rfl | listed) | endings) | usage := member
  · exact .inl rfl
  · split at listed
    · cases listed
    · rw [List.mem_singleton.mp listed]
      exact .inr (.inl rfl)
  · exact .inr (.inr (string_of_mem_textField endings))
  · exact .inr (.inr (string_of_mem_textField usage))

/-- A completion that was written is read back. -/
theorem Completion.ofJson?_toJson (completion : Completion) :
    ofJson? completion.toJson = some completion := by
  unfold toJson ofJson?
  generalize listed : (if completion.messages = [] then []
    else [("messages", Json.ofStrings completion.messages)]) = messageField
  have named : (messageField.map (·.1)).Sublist ["messages"] := listed ▸ names_optional ..
  have aside {name : String} (apart : name ≠ "messages") : messageField.lookup name = none :=
    listed ▸ lookup_optional apart _
  generalize written : [("suggestions",
    Json.array (completion.suggestions.map Suggestion.toJson))] ++ messageField ++ _ ++ _ = fields
  have ordered : (fields.map (·.1)).Sublist ["suggestions", "messages", "nospace", "usage"] := by
    simp only [← written, List.map_append]
    exact (((List.Sublist.refl ["suggestions"]).append named).append (names_optional ..)).append
      (names_optional ..)
  have suggestions : readList fields "suggestions" Suggestion.ofJson? =
      some completion.suggestions := by
    simp [← written, readList, Json.array?,
      mapM_map_of_read Suggestion.toJson Suggestion.ofJson? Suggestion.ofJson?_toJson]
  have messages : readList fields "messages" Json.string? = some completion.messages := by
    by_cases none : completion.messages = []
    · simp [← written, ← listed, none, readList, List.lookup_append, lookup_textField,
        List.lookup_cons]
    · simp [← written, ← listed, none, readList, Json.ofStrings, Json.array?,
        List.lookup_cons, mapM_map_of_read Json.string Json.string? fun _ => rfl]
  have nospace : readText fields "nospace" = some completion.nospace := by
    apply readText_of_lookup
    simp [← written, List.lookup_append, lookup_textField, List.lookup_cons, aside]
  have usage : readText fields "usage" = some completion.usage := by
    apply readText_of_lookup
    simp [← written, List.lookup_append, lookup_textField, List.lookup_cons, aside]
  simp only [Json.record?_object (by decide) ordered, suggestions, messages, nospace, usage,
    Option.bind_eq_bind, Option.bind_some]
  rfl

end TabSpec

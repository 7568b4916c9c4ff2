import TabSpec.CommandLine.Serve
import TabSpec.Expression
import TabSpec.Proofs.Json.ReadBack
import TabSpec.Proofs.Outcome
import TabSpec.Proofs.Text.Octets

/-! Completions exported and read back: nothing is lost, whatever the texts hold, so that a program
that is asked for candidates by another one answers as it would by itself. -/
namespace TabSpec

theorem Suggestion.textual_toJson (suggestion : Suggestion) : suggestion.toJson.Textual := by
  obtain ⟨fields, written, texts⟩ := suggestion.exists_toJson
  rw [written]
  refine .object fun field member => ?_
  obtain ⟨text, same⟩ := texts field member
  exact same ▸ .string text

namespace Completion

theorem textual_toJson (completion : Completion) : completion.toJson.Textual := by
  obtain ⟨fields, written, values⟩ := completion.exists_toJson
  rw [written]
  refine .object fun field member => ?_
  obtain same | same | ⟨text, same⟩ := values field member
  · exact same ▸ .array (List.forall_mem_map.mpr fun suggestion _ => suggestion.textual_toJson)
  · exact same ▸ Json.textual_ofStrings completion.messages
  · exact same ▸ .string text

/-- An exported completion is read back, also with blanks behind it. -/
theorem ofExport_exported_append (completion : Completion) (blanks : List Char)
    (blank : ∀ c ∈ blanks, Json.isSpace c = true) :
    ofExport (completion.exported ++ String.ofList blanks) = .ok completion := by
  rw [exported, ofExport, completion.textual_toJson.ofText_render blank]
  dsimp only
  rw [ofJson?_toJson]

end Completion

/-- A result presented for another program is its completion on one line. -/
theorem Service.output_present (service : Service) (result : Traced Completion) :
    (service.present true result).output = Text.toOctets (result.value.exported ++ "\n") := by
  have line : Text.toOctets "\n" = ['\n'] := by decide
  rw [Text.toOctets_append, line]
  exact List.append_nil _

/-- The export loses nothing. What a program reads of another one, which succeeds and presents its
result, is that result. -/
theorem Completion.export_lossless (completion : Completion) :
    (Text.ofOctets? (Text.toOctets completion.exported)).map ofExport = some (.ok completion) ∧
    ∀ (service : Service) (result : Traced Completion), result.value = completion →
      ∀ (program call : String) (context : Context) (outcome : Outcome),
        context.machine.run (context.launch program
          (["_carapace", "macro", call] ++ context.args ++ [context.value]) none) = .ok outcome →
        outcome.ending = .exited 0 → outcome.output = (service.present true result).output →
        (Expression.delegate program call context).value = completion := by
  constructor
  · have read := completion.ofExport_exported_append [] nofun
    rw [String.ofList_nil, String.append_empty] at read
    rw [Text.ofOctets?_toOctets, Option.map_some, read]
  · rintro service result rfl program call context outcome ran succeeded presented
    have read : ofExport (result.value.exported ++ "\n") = .ok result.value :=
      result.value.ofExport_exported_append ['\n'] (List.forall_mem_singleton.mpr rfl)
    rw [Service.output_present] at presented
    change Action.readOutcome program ofOctets _ = _
    rw [ran, Action.readOutcome]
    rw [if_pos succeeded, ofOctets, presented, Text.ofOctets?_toOctets]
    dsimp only
    rw [read]

namespace Sample

/-- Texts that JSON escapes, a text outside the basic plane, and fields without content. -/
def awkward : Completion := {
  suggestions := [{ value := "a\"\\", display := "", tag := "\x01𝄞" }]
  messages := [""] }

/-- A machine with a program that prints the completion. -/
def answering : Machine := {
  files := (FileTree.empty.put ["bin", "other"] (.file
    ("#!/bin/sh\nprintf '%s\\n' '" ++ awkward.exported ++ "'\n") true)).withUtilities
  environment := .ofList [("PATH", "/bin")]
  stamp := "" }

def asking : Context := {
  args := ["first"], value := "a", parts := [], directory := "/", bindings := .empty,
  machine := answering }

/-- What starting the program leaves behind. -/
def asked : Except OsFault Outcome :=
  asking.machine.run (asking.launch "other"
    (["_carapace", "macro", "files"] ++ asking.args ++ [asking.value]) none)

/-- The other program, which would present its result like this. -/
def presenting : Service :=
  { configuration := .ofVariables "other" .empty, machine := answering, directory := "/"
    timestamp := "" }

end Sample

theorem Completion.export_lossless_sample :
    ∃ outcome, Sample.asked = .ok outcome ∧ outcome.ending = .exited 0 ∧
      outcome.output = (Sample.presenting.present true (pure Sample.awkward)).output ∧
      (Expression.delegate "other" "files" Sample.asking).value = Sample.awkward := by
  have ran : Sample.asked.toOption.any (fun outcome => decide (outcome.ending = .exited 0 ∧
      outcome.output = (Sample.presenting.present true (pure Sample.awkward)).output)) = true := by
    decide +kernel
  obtain ⟨outcome, ran, succeeded⟩ := exists_of_toOption_any ran
  obtain ⟨ending, output⟩ := of_decide_eq_true succeeded
  have answer := (Completion.export_lossless Sample.awkward).2 Sample.presenting
    (pure Sample.awkward) rfl "other" "files" Sample.asking outcome ran ending output
  exact ⟨outcome, ran, ending, output, answer⟩

end TabSpec

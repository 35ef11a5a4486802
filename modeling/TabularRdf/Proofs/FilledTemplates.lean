import TabularRdf.Proofs.Substitution
import TabularRdf.Proofs.TemplateOrigins

/-! Templates whose parts of text are not empty. Every template is read that way, and stays so when the external
values that are put in are not empty themselves. -/
namespace TabularRdf.Mapping

def Template.Filled (t : Template) : Prop := .text "" ∉ t.segments

namespace Template

theorem flushFilled (pending : List Char) : .text "" ∉ flush pending := by
  unfold flush
  split
  · exact List.not_mem_nil
  · rename_i pending
    simp only [List.isEmpty_iff] at pending
    rw [List.mem_singleton, Segment.text.injEq, eq_comm, String.ofList_eq_empty_iff, List.reverse_eq_nil_iff]
    exact pending

theorem gatherFilled (pending : List Char) (tokens : List Token) : .text "" ∉ gather pending tokens := by
  induction tokens generalizing pending with
  | nil => exact flushFilled pending
  | cons token rest ih =>
    cases token with
    | char c => exact ih (c :: pending)
    | column name => simp [gather, flushFilled, ih]

theorem parsedFilled {text : String} {t : Template} (parsed : parse text = .ok t) : t.Filled := by
  unfold parse at parsed
  split at parsed
  · cases Except.ok.inj parsed
    exact gatherFilled _ _
  · contradiction

theorem mergedFilled {segments : List Segment} (filled : .text "" ∉ segments) : .text "" ∉ mergeText segments := by
  induction segments with
  | nil => exact filled
  | cons segment rest ih =>
    obtain ⟨head, tail⟩ := not_or.mp (List.mem_cons.not.mp filled)
    cases segment with
    | column name => simpa [mergeColumn] using ih tail
    | text t =>
      have given : t ≠ "" := fun same => head (same ▸ rfl)
      rcases mergeCases t rest with ⟨u, more, merged, same⟩ | ⟨_, same⟩
      · have behind := List.not_mem_of_not_mem_cons (merged ▸ ih tail)
        rw [same, List.mem_cons, not_or]
        exact ⟨fun whole => given (String.append_eq_empty_iff.mp (Segment.text.inj whole).symm).1, behind⟩
      · rw [same, List.mem_cons, not_or]
        exact ⟨fun whole => given (Segment.text.inj whole).symm, ih tail⟩

theorem substitutedFilled {segments : List Segment} (filled : .text "" ∉ segments) {external : Named String}
    (values : ∀ e ∈ external, e.2 ≠ "") : .text "" ∉ segments.map (substitute external) := by
  intro mem
  obtain ⟨s, listed, same⟩ := List.mem_map.mp mem
  rcases substituteCases external s with ⟨e, given, value, _⟩ | kept
  · exact values e given (Segment.text.inj (value.symm.trans same))
  · exact filled (kept.symm.trans same ▸ listed)

theorem externalsFilled {t : Template} (filled : t.Filled) {external : Named String}
    (values : ∀ e ∈ external, e.2 ≠ "") : (t.withExternals external).Filled := by
  by_cases given : external = []
  · exact given ▸ filled
  · rw [Filled, externalsMerged given]
    exact mergedFilled (substitutedFilled filled values)

theorem constantFilled (value : String) : (constant value).Filled := by
  unfold Filled constant
  split
  · exact List.not_mem_nil
  · rename_i given
    rw [List.mem_singleton, Segment.text.injEq]
    exact fun same => given (same ▸ rfl)

end Template

end TabularRdf.Mapping

namespace TabularRdf.Document
open Mapping

theorem readFilled {context : Context} {t : Template} (read : context.Reads t)
    (values : ∀ e ∈ context.external, e.2 ≠ "") : t.Filled := by
  cases read with
  | type => exact Template.constantFilled _
  | @written text _ read =>
    unfold Context.template at read
    cases parsed : Template.parse text with
    | error e => simp [parsed, Except.map] at read
    | ok t =>
      rw [parsed] at read
      cases Except.ok.inj read
      exact Template.externalsFilled (Template.parsedFilled parsed) values

end TabularRdf.Document

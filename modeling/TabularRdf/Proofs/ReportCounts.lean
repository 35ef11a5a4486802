import Mathlib.Data.List.TakeDrop
import TabularRdf.Generation.Diagnostic
import TabularRdf.Generation.MapOutput
import TabularRdf.Proofs.DistinctKeys

/-! The sink of the reports. Whatever it takes, its counters say how many reports there were, in all and under
each label, and it keeps the first ones. -/
namespace TabularRdf.Generation

theorem totalAppend (front back : List Nat) : total (front ++ back) = total front + total back :=
  List.sum_append

theorem setTotal (table : Named Nat) (name : String) (value : Nat) :
    total ((table.set name value).map Prod.snd) + (table.lookup name).getD 0 =
      total (table.map Prod.snd) + value := by
  induction table with
  | nil => simp [Named.set, total]
  | cons entry rest ih =>
    obtain ⟨other, count⟩ := entry
    simp only [total] at ih ⊢
    by_cases same : other = name
    · subst same
      simp only [Named.set, if_pos, List.map_cons, List.foldr_cons, List.lookup_cons, beq_self_eq_true,
        Option.getD_some]
      omega
    · have apart : (name == other) = false := by simpa using Ne.symm same
      simp only [Named.set, if_neg same, List.map_cons, List.foldr_cons, List.lookup_cons, apart]
      omega

structure Diagnostics.Holds (d : Diagnostics) (limit : Nat) (reports : List RowDiagnostic) : Prop where
  limited : d.limit = limit
  all : d.total = reports.length
  labels : (d.counts.map Prod.fst).Nodup
  count : ∀ label, d.count label = reports.countP fun entry => entry.kind.label = label
  sum : Generation.total (d.counts.map Prod.snd) = d.total
  recorded : d.recorded = reports.take limit

theorem nothingHeld (limit : Nat) : (Diagnostics.empty limit).Holds limit [] :=
  ⟨rfl, rfl, .nil, fun _ => rfl, rfl, List.take_nil.symm⟩

theorem reportHeld {d : Diagnostics} {limit : Nat} {reports : List RowDiagnostic} (held : d.Holds limit reports)
    (entry : RowDiagnostic) : (d.report entry).Holds limit (reports ++ [entry]) := by
  refine ⟨held.limited, ?_, Named.setDistinct held.labels, fun label => ?_, ?_, ?_⟩
  · simp [Diagnostics.report, held.all]
  · have before := held.count label
    rw [List.countP_append, ← before]
    by_cases own : entry.kind.label = label
    · subst own
      simp [Diagnostics.count, Diagnostics.report, Named.lookupSelf]
    · simp [Diagnostics.count, Diagnostics.report, Named.lookupOther (Ne.symm own), own]
  · have moved := setTotal d.counts entry.kind.label (d.count entry.kind.label + 1)
    have sum := held.sum
    simp only [Diagnostics.report, Diagnostics.count] at moved ⊢
    omega
  · have size : d.recorded.length = min limit reports.length := by rw [held.recorded, List.length_take]
    simp only [Diagnostics.report, held.limited, List.take_append]
    split
    · rename_i room
      have all : reports.length < limit := by omega
      rw [held.recorded, List.take_of_length_le (by simp; omega : [entry].length ≤ limit - reports.length)]
    · rename_i full
      have none : limit - reports.length = 0 := by omega
      rw [none, List.take_zero, List.append_nil, held.recorded]

theorem reportsHeld {d : Diagnostics} {limit : Nat} {reports : List RowDiagnostic} (held : d.Holds limit reports)
    (entries : List RowDiagnostic) : (d.reportAll entries).Holds limit (reports ++ entries) := by
  induction entries generalizing d reports with
  | nil => rwa [List.append_nil]
  | cons entry rest ih =>
    have kept := ih (reportHeld held entry)
    rwa [List.append_assoc] at kept

theorem truncatedDropped {d : Diagnostics} {limit : Nat} {reports : List RowDiagnostic}
    (held : d.Holds limit reports) : d.truncated ↔ d.recorded ≠ reports := by
  have kept : d.recorded = reports ↔ reports.length ≤ limit := by rw [held.recorded, List.take_eq_self_iff]
  have size : d.recorded.length = min limit reports.length := by rw [held.recorded, List.length_take]
  simp only [Diagnostics.truncated, decide_eq_true_eq, held.all, size, ne_eq, kept]
  omega

theorem reportedTwice (d : Diagnostics) (first second : List RowDiagnostic) :
    (d.reportAll first).reportAll second = d.reportAll (first ++ second) := List.foldl_append.symm

end TabularRdf.Generation

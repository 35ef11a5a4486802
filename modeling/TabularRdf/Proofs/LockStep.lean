import TabularRdf.Proofs.Schedules
import TabularRdf.Proofs.Together

/-! Two runs level by level. When every map keeps a relation between what the two runs put out, the whole runs
keep it: they stop together, and the outputs that they end with are related name by name. -/
namespace TabularRdf.Generation
open Iri Mapping Rdf Loading

variable {R : MapOutput → MapOutput → Prop} {outputs results : Named MapOutput}

def Aligned (R : MapOutput → MapOutput → Prop) (outputs results : Named MapOutput) : Prop :=
  ∀ name, Option.Rel R (outputs.lookup name) (results.lookup name)

theorem alignedSet (aligned : Aligned R outputs results) (name : String) {output result : MapOutput}
    (related : R output result) : Aligned R (outputs.set name output) (results.set name result) := by
  intro other
  by_cases same : other = name
  · subst same
    rw [Named.lookupSelf, Named.lookupSelf]
    exact .some related
  · rw [Named.lookupOther same, Named.lookupOther same]
    exact aligned other

theorem alignedSetAll {entries others : Named MapOutput}
    (pairs : List.Forall₂ (fun a b => a.1 = b.1 ∧ R a.2 b.2) entries others)
    (aligned : Aligned R outputs results) : Aligned R (outputs.setAll entries) (results.setAll others) := by
  induction pairs generalizing outputs results with
  | nil => exact aligned
  | cons head _ ih =>
    rename_i entry other _ _ _
    obtain ⟨name, output⟩ := entry
    obtain ⟨_, result⟩ := other
    obtain ⟨rfl, related⟩ := head
    exact ih (alignedSet aligned name related)

structure LockStep (R : MapOutput → MapOutput → Prop) (own other : Setup) : Prop where
  cancelled : own.cancelled = other.cancelled
  ready : ∀ name, Option.Rel
    (fun mine theirs => ∀ outputs results, Aligned R outputs results →
      R (own.output outputs mine) (other.output results theirs))
    (own.prepared.lookup name) (other.prepared.lookup name)

section

variable {own other : Setup} (step : LockStep R own other)
include step

theorem mapTogether (aligned : Aligned R outputs results) (name : String) :
    Together (fun a b => a.1 = b.1 ∧ R a.2 b.2) (own.runMap outputs name) (other.runMap results name) := by
  unfold Setup.runMap
  rw [← step.cancelled]
  split
  · exact .failed _ _
  · have ready := step.ready name
    generalize own.prepared.lookup name = mine at ready
    generalize other.prepared.lookup name = theirs at ready
    cases ready with
    | none => exact .failed _ _
    | some related => exact .loaded ⟨rfl, related _ _ aligned⟩

theorem levelTogether (aligned : Aligned R outputs results) (level : List String) :
    Together (Aligned R) (own.runLevel outputs level) (other.runLevel results level) := by
  refine togetherFinished (togetherMapped (List.forall₂_same.mpr fun _ _ => rfl) ?_)
    fun _ _ pairs => alignedSetAll pairs aligned
  rintro name _ rfl
  exact mapTogether step aligned name

theorem levelsTogether (levels : List (List String)) :
    Together (Aligned R) (own.runLevels levels) (other.runLevels levels) := by
  refine togetherFolded (List.forall₂_same.mpr fun _ _ => rfl) ?_ fun _ => .none
  rintro outputs results level _ aligned rfl
  exact levelTogether step aligned level

end

theorem orderedTogether (aligned : Aligned R outputs results) (order : List String) :
    List.Forall₂ R (order.filterMap fun name => outputs.lookup name)
      (order.filterMap fun name => results.lookup name) := by
  induction order with
  | nil => exact .nil
  | cons name rest ih =>
    have here := aligned name
    rw [List.filterMap_cons, List.filterMap_cons]
    generalize outputs.lookup name = output at here
    generalize results.lookup name = result at here
    cases here with
    | none => exact ih
    | some related => exact .cons related ih

theorem readTogether {α : Type} {ordered others : List MapOutput} (pairs : List.Forall₂ R ordered others)
    (read : MapOutput → α) (same : ∀ output result, R output result → read output = read result) :
    ordered.map read = others.map read := by
  induction pairs with
  | nil => rfl
  | cons head _ ih => rw [List.map_cons, List.map_cons, same _ _ head, ih]

theorem gatheredTogether {α : Type} {ordered others : List MapOutput} (pairs : List.Forall₂ R ordered others)
    (read : MapOutput → List α) (same : ∀ output result, R output result → read output = read result) :
    ordered.flatMap read = others.flatMap read := by
  rw [List.flatMap_def, List.flatMap_def, readTogether pairs read same]

end TabularRdf.Generation

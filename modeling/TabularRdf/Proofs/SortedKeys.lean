import Mathlib.Data.String.Basic
import TabularRdf.Mapping.Join

/-! Lists that are sorted and freed of repetition, and the keys of a join among them. What results is
strictly in order and has the members of the list. -/
namespace TabularRdf.Mapping
open Std

section

variable {α : Type} [DecidableEq α]

theorem loopAfter (a : α) (xs done : List α) :
    List.eraseRepsBy.loop (· == ·) a xs done =
      done.reverse ++ List.eraseRepsBy.loop (· == ·) a xs [] := by
  induction xs generalizing a done with
  | nil => simp [List.eraseRepsBy.loop]
  | cons b xs ih =>
    unfold List.eraseRepsBy.loop
    cases a == b with
    | true => exact ih a done
    | false =>
      dsimp only
      rw [ih b (a :: done), ih b [a]]
      simp

theorem loopNext (a b : α) (xs : List α) : List.eraseRepsBy.loop (· == ·) a (b :: xs) [] =
    if a = b then List.eraseRepsBy.loop (· == ·) a xs []
    else a :: List.eraseRepsBy.loop (· == ·) b xs [] := by
  rw [List.eraseRepsBy.loop]
  by_cases same : a = b
  · rw [if_pos same, beq_iff_eq.mpr same]
  · rw [if_neg same, beq_eq_false_iff_ne.mpr same]
    exact loopAfter b xs [a]

theorem memLoop {a x : α} {xs : List α} :
    x ∈ List.eraseRepsBy.loop (· == ·) a xs [] ↔ x ∈ a :: xs := by
  induction xs generalizing a with
  | nil => simp [List.eraseRepsBy.loop]
  | cons b xs ih =>
    rw [loopNext]
    by_cases same : a = b
    · subst same
      rw [if_pos rfl, ih]
      simp
    · rw [if_neg same, List.mem_cons, ih]
      simp

theorem memErased {x : α} {xs : List α} : x ∈ xs.eraseReps ↔ x ∈ xs := by
  cases xs with
  | nil => rfl
  | cons a xs => exact memLoop

variable {le : α → α → Bool} (antisymmetric : ∀ a b, le a b → le b a → a = b)

include antisymmetric in
theorem loopStrict {a : α} {xs : List α} (sorted : (a :: xs).Pairwise fun a b => le a b) :
    (List.eraseRepsBy.loop (· == ·) a xs []).Pairwise fun a b => le a b ∧ a ≠ b := by
  induction xs generalizing a with
  | nil => simp [List.eraseRepsBy.loop]
  | cons b xs ih =>
    obtain ⟨first, rest⟩ := List.pairwise_cons.mp sorted
    rw [loopNext]
    by_cases same : a = b
    · subst same
      rw [if_pos rfl]
      exact ih rest
    · rw [if_neg same]
      refine List.pairwise_cons.mpr ⟨fun c later => ?_, ih rest⟩
      have mem := memLoop.mp later
      refine ⟨first c mem, ?_⟩
      rintro rfl
      -- A later occurrence of `a` would put `b` between two equal members.
      rcases List.mem_cons.mp mem with here | behind
      · exact same here
      · exact same (antisymmetric a b (first b List.mem_cons_self)
          ((List.pairwise_cons.mp rest).1 a behind))

include antisymmetric in
theorem erasedStrict {xs : List α} (sorted : xs.Pairwise fun a b => le a b) :
    xs.eraseReps.Pairwise fun a b => le a b ∧ a ≠ b := by
  cases xs with
  | nil => exact .nil
  | cons a xs => exact loopStrict antisymmetric sorted

end

namespace JoinKey

def Before (a b : JoinKey) : Prop := a.child < b.child ∨ a.child = b.child ∧ a.parent < b.parent

def order : JoinKey → JoinKey → Ordering := compareLex (compareOn child) (compareOn parent)

instance : TransCmp order := inferInstanceAs (TransCmp (compareLex _ _))

theorem leTrans (a b c : JoinKey) (first : a.le b) (second : b.le c) : a.le c :=
  (TransCmp.isLE_trans first second : (order a c).isLE)

theorem leTotal (a b : JoinKey) : a.le b || b.le a := by
  have swapped : order a b = (order b a).swap := OrientedCmp.eq_swap
  change (order a b).isLE || (order b a).isLE
  rw [swapped]
  cases order b a <;> rfl

theorem leCases {a b : JoinKey} (first : a.le b) : a.Before b ∨ a = b := by
  rcases Ordering.isLE_then_iff_or.mp first with less | ⟨same, rest⟩
  · exact .inl (.inl (LawfulLTCmp.eq_lt_iff_lt.mp less))
  · have child := LawfulEqOrd.eq_of_compare same
    rcases Ordering.isLE_iff_eq_lt_or_eq_eq.mp rest with less | equal
    · exact .inl (.inr ⟨child, LawfulLTCmp.eq_lt_iff_lt.mp less⟩)
    · have parent := LawfulEqOrd.eq_of_compare equal
      cases a
      cases b
      exact .inr (congrArg₂ JoinKey.mk child parent)

theorem leAntisymm (a b : JoinKey) (first : a.le b) (second : b.le a) : a = b := by
  have equal : order a b = .eq := OrientedCmp.isLE_antisymm first second
  obtain ⟨child, parent⟩ := Ordering.then_eq_eq.mp equal
  cases a
  cases b
  exact congrArg₂ JoinKey.mk (LawfulEqOrd.eq_of_compare child) (LawfulEqOrd.eq_of_compare parent)

end JoinKey

namespace JoinCondition

structure Sorted (c : JoinCondition) : Prop where
  some : c.keys ≠ []
  strict : c.keys.Pairwise JoinKey.Before

theorem madeStrict (keys : List JoinKey) :
    (keys.mergeSort JoinKey.le).eraseReps.Pairwise fun a b => a.le b ∧ a ≠ b :=
  erasedStrict JoinKey.leAntisymm (List.pairwise_mergeSort JoinKey.leTrans JoinKey.leTotal keys)

theorem memKeys {keys : List JoinKey} {c : JoinCondition} (made : ofKeys? keys = .some c)
    (key : JoinKey) : key ∈ c.keys ↔ key ∈ keys := by
  unfold ofKeys? at made
  split at made
  · contradiction
  · cases Option.some.inj made
    rw [memErased, List.mem_mergeSort]

theorem madeSorted {keys : List JoinKey} {c : JoinCondition} (made : ofKeys? keys = .some c) :
    c.Sorted := by
  have members := memKeys made
  unfold ofKeys? at made
  split at made
  · contradiction
  · rename_i nonempty
    constructor
    · obtain ⟨key, mem⟩ := List.exists_mem_of_ne_nil keys (by simpa using nonempty)
      exact List.ne_nil_of_mem ((members key).mpr mem)
    · cases Option.some.inj made
      exact (madeStrict keys).imp fun ⟨first, apart⟩ => (JoinKey.leCases first).resolve_right apart

theorem sameMembers {keys others : List JoinKey} (same : ∀ key, key ∈ keys ↔ key ∈ others) :
    ofKeys? keys = ofKeys? others := by
  have listed (key : JoinKey) : key ∈ (keys.mergeSort JoinKey.le).eraseReps ↔
      key ∈ (others.mergeSort JoinKey.le).eraseReps := by
    rw [memErased, memErased, List.mem_mergeSort, List.mem_mergeSort, same]
  have once (keys : List JoinKey) : (keys.mergeSort JoinKey.le).eraseReps.Nodup := (madeStrict keys).imp And.right
  have arranged := (List.perm_ext_iff_of_nodup (once keys) (once others)).mpr listed
  have equal := arranged.eq_of_pairwise (fun a b _ _ => JoinKey.leAntisymm a b)
    ((madeStrict keys).imp And.left) ((madeStrict others).imp And.left)
  have empty : keys.isEmpty = others.isEmpty := by
    rw [Bool.eq_iff_iff, List.isEmpty_iff, List.isEmpty_iff, List.eq_nil_iff_forall_not_mem,
      List.eq_nil_iff_forall_not_mem]
    exact forall_congr' fun key => not_congr (same key)
  rw [ofKeys?, ofKeys?, empty, equal]

end JoinCondition

def Keyed (condition : Option JoinCondition) : Prop := ∀ c, condition = some c → c.Sorted

theorem madeKeyed (keys : List JoinKey) : Keyed (JoinCondition.ofKeys? keys) :=
  fun _ => JoinCondition.madeSorted

end TabularRdf.Mapping

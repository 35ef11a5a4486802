import TabularRdf.Proofs.Respelling
import TabularRdf.Proofs.SealedPayloads

/-! Payloads with respelled keys. A payload is refused for two spellings of one keyword; whether it is depends on
the keywords of an object and not on how they are spelled. -/
namespace TabularRdf.Mapping.Keyword

def Kept (k : Keyword) : Prop := ∀ p ∈ payload, p = k ∨ ∀ s ∈ p.spellings, s ∉ k.spellings

instance (k : Keyword) : Decidable k.Kept := by unfold Kept; infer_instance

theorem canonicalKept {k : Keyword} (kept : k.Kept) (key : String) :
    canonicalOf key ∈ k.spellings ↔ key ∈ k.spellings := by
  unfold canonicalOf
  split
  · rename_i p found
    have spelled : key ∈ p.spellings := by simpa using List.find?_some found
    rcases kept p (List.mem_of_find?_eq_some found) with rfl | apart
    · exact iff_of_true List.mem_cons_self spelled
    · exact iff_of_false (apart _ List.mem_cons_self) (apart _ spelled)
  · rfl

end TabularRdf.Mapping.Keyword

namespace TabularRdf.Document
open Mapping Loading

def CarriedAlike (value other : Json) : Prop :=
  Together (fun _ _ => True) (canonicalizeKeys value) (canonicalizeKeys other)

theorem carriedSame {value other : Json} (same : value = other) : CarriedAlike value other := by
  subst same
  exact togetherSame (fun _ => trivial) _

namespace Layout

variable {layout : Layout} (kept : ∀ k ∈ layout.groups, k.Kept)
include kept

theorem clashAlike {field other field' other' : String × Json} (respelled : layout.Field field other)
    (respelled' : layout.Field field' other') (apart : layout.Apart other other') :
    Keyword.canonicalOf field'.1 = Keyword.canonicalOf field.1 ↔
      Keyword.canonicalOf other'.1 = Keyword.canonicalOf other.1 := by
  have parted {k : Keyword} (listed : k ∈ layout.groups)
      (differ : ¬ (other'.1 ∈ k.spellings ↔ other.1 ∈ k.spellings)) :
      Keyword.canonicalOf field'.1 = Keyword.canonicalOf field.1 ↔
        Keyword.canonicalOf other'.1 = Keyword.canonicalOf other.1 := by
    have whole := Keyword.canonicalKept (kept k listed)
    refine iff_of_false (fun same => differ ?_) fun same => differ ?_
    · rw [← fieldGroup respelled' listed, ← fieldGroup respelled listed, ← whole, ← whole field.1, same]
    · rw [← whole, ← whole other.1, same]
  cases respelled with
  | kept _ plain =>
    cases respelled' with
    | kept => rfl
    | respelled listed _ after => exact parted listed fun same => plain _ listed (same.mp after)
  | respelled listed _ after => exact parted listed fun same => apart _ listed after (same.mpr after)

variable (nested : ∀ k ∈ layout.groups, ∀ value other, layout.values k value other → CarriedAlike value other)
include nested

omit kept in
theorem fieldCarried {field other : String × Json} (respelled : layout.Field field other) :
    CarriedAlike field.2 other.2 := by
  cases respelled with
  | kept => exact carriedSame rfl
  | respelled listed _ _ related => exact nested _ listed _ _ related

theorem fieldsCarried {fields others : Json.Fields} (pairs : List.Forall₂ layout.Field fields others)
    (single : others.Pairwise layout.Apart) {seen met : List String}
    (alike : List.Forall₂ (fun field other =>
      Keyword.canonicalOf field.1 ∈ seen ↔ Keyword.canonicalOf other.1 ∈ met) fields others) :
    Together (fun _ _ => True) (canonicalizeFields seen fields) (canonicalizeFields met others) := by
  induction pairs generalizing seen met with
  | nil => exact .loaded trivial
  | @cons field other rest tail head pairs ih =>
    obtain ⟨key, value⟩ := field
    obtain ⟨spelling, result⟩ := other
    obtain ⟨apart, later⟩ := List.pairwise_cons.mp single
    obtain ⟨here, alike⟩ := List.forall₂_cons.mp alike
    simp only [canonicalizeFields]
    by_cases clash : Keyword.canonicalOf key ∈ seen
    · rw [if_pos clash, if_pos (here.mp clash)]
      exact .failed _ _
    · rw [if_neg clash, if_neg fun met => clash (here.mpr met)]
      refine togetherBound (fieldCarried nested head) fun _ _ _ => ?_
      refine togetherFinished (ih later ?_) fun _ _ _ => trivial
      obtain ⟨size, each⟩ := List.forall₂_iff_zip.mp pairs
      refine List.forall₂_iff_zip.mpr ⟨size, fun {a b} mem => ?_⟩
      have clashes := clashAlike kept head (each mem) (apart b (List.of_mem_zip mem).2)
      have before := (List.forall₂_iff_zip.mp alike).2 mem
      rw [List.mem_cons, List.mem_cons, clashes, before]

theorem respelledCarried {value other : Json} (respelled : layout.Respelled value other) :
    CarriedAlike value other := by
  cases respelled with
  | other => exact carriedSame rfl
  | @object fields others whole =>
    simp only [CarriedAlike, canonicalizeKeys]
    refine togetherImage (fieldsCarried kept nested whole.pairs whole.single ?_) fun _ _ _ => trivial
    exact whole.pairs.imp fun _ _ _ => by simp

theorem itemsCarried {value other : Json} (respelled : layout.Items value other) : CarriedAlike value other := by
  cases respelled with
  | single _ whole => exact respelledCarried kept nested whole
  | @list items others each =>
    simp only [CarriedAlike, canonicalizeKeys]
    refine togetherImage (R := fun _ _ => True) ?_ fun _ _ _ => trivial
    induction each with
    | nil => exact .loaded trivial
    | cons head _ ih =>
      simp only [canonicalizeItems]
      exact togetherBound (respelledCarried kept nested head) fun _ _ _ =>
        togetherFinished ih fun _ _ _ => trivial

theorem functionSealed {fields others : Json.Fields} (respelled : layout.Fields fields others)
    (function : .function ∈ layout.groups) (parameters : .parameters ∈ layout.groups)
    (call : layout.values .function = Eq) (arguments : layout.values .parameters = Eq) (owner : String) :
    Together (fun a b => a.sealed = b.sealed) (functionOf owner fields) (functionOf owner others) := by
  have carried : Together _ (canonicalizeKeys (.obj fields)) (canonicalizeKeys (.obj others)) :=
    respelledCarried kept nested (.object respelled)
  simp only [functionOf, firstSame respelled function call, firstSame respelled parameters arguments]
  generalize ((firstUnder? others .function).bind Json.str?).bind InlineCall.parse = inline
  generalize (firstUnder? others .parameters).isSome = listed
  generalize canonicalizeKeys (.obj fields) = payload at carried ⊢
  generalize canonicalizeKeys (.obj others) = other at carried ⊢
  cases carried with
  | failed =>
    cases inline with
    | none => exact .failed _ _
    | some call =>
      cases listed with
      | false => exact .loaded rfl
      | true => exact .failed _ _
  | loaded =>
    cases inline with
    | none => exact .loaded rfl
    | some call =>
      cases listed with
      | false => exact .loaded rfl
      | true => exact .loaded rfl

end Layout

end TabularRdf.Document

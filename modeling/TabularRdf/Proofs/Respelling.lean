import Mathlib.Data.List.Pairwise
import TabularRdf.Document.Context
import TabularRdf.Proofs.CanonicalKeys
import TabularRdf.Proofs.NamedUpdates
import TabularRdf.Proofs.Together

/-! Objects whose keys are respelled. A keyword is read by all of its spellings, so an object reads the same
when one spelling takes the place of another and no keyword is written twice. -/
namespace TabularRdf.Document
open Mapping Loading

/- The keywords with several spellings on one level of a document, and what may become of their values. -/
structure Layout where
  groups : List Keyword
  values : Keyword → Json → Json → Prop
  distinct : (groups.flatMap Keyword.spellings).Nodup

namespace Layout

inductive Field (layout : Layout) : String × Json → String × Json → Prop where
  | kept (field : String × Json) (plain : ∀ k ∈ layout.groups, field.1 ∉ k.spellings) : Field layout field field
  | respelled {k : Keyword} {key other : String} {value result : Json} (listed : k ∈ layout.groups)
      (before : key ∈ k.spellings) (after : other ∈ k.spellings) (related : layout.values k value result) :
      Field layout (key, value) (other, result)

def Apart (layout : Layout) (field other : String × Json) : Prop :=
  ∀ k ∈ layout.groups, field.1 ∈ k.spellings → other.1 ∉ k.spellings

instance (layout : Layout) (field other : String × Json) : Decidable (layout.Apart field other) :=
  inferInstanceAs (Decidable (∀ k ∈ layout.groups, field.1 ∈ k.spellings → other.1 ∉ k.spellings))

structure Fields (layout : Layout) (fields others : Json.Fields) : Prop where
  pairs : List.Forall₂ layout.Field fields others
  single : others.Pairwise layout.Apart

/-- A value whose own keys are respelled; one that is no object stays as it is. -/
inductive Respelled (layout : Layout) : Json → Json → Prop where
  | object {fields others : Json.Fields} (respelled : layout.Fields fields others) :
      Respelled layout (.obj fields) (.obj others)
  | other (value : Json) (plain : value.obj? = none) : Respelled layout value value

inductive Items (layout : Layout) : Json → Json → Prop where
  | list {items others : List Json} (each : List.Forall₂ layout.Respelled items others) :
      Items layout (.arr items) (.arr others)
  | single {value other : Json} (alone : value.arr? = none) (respelled : layout.Respelled value other) :
      Items layout value other

theorem itemsRespelled {layout : Layout} {value other : Json} (respelled : layout.Items value other) :
    List.Forall₂ layout.Respelled (itemsOf value) (itemsOf other) := by
  cases respelled with
  | list each => exact each
  | single alone whole =>
    cases whole with
    | object fields => exact .cons (.object fields) .nil
    | other value plain =>
      cases value with
      | null => exact .nil
      | arr => cases alone
      | _ => exact .cons (.other _ plain) .nil

variable {layout : Layout} {fields others : Json.Fields} {k : Keyword}

theorem groupUnique {first second : Keyword} (one : first ∈ layout.groups) (two : second ∈ layout.groups)
    {key : String} (here : key ∈ first.spellings) (there : key ∈ second.spellings) : first = second :=
  Keyword.spelledOnce layout.distinct one two here there

theorem groupDistinct (listed : k ∈ layout.groups) : k.spellings.Nodup :=
  (List.nodup_flatMap.mp layout.distinct).1 k listed

theorem fieldGroup {field other : String × Json} (respelled : layout.Field field other)
    (listed : k ∈ layout.groups) : field.1 ∈ k.spellings ↔ other.1 ∈ k.spellings := by
  cases respelled with
  | kept => rfl
  | respelled member before after =>
    exact ⟨fun here => groupUnique member listed before here ▸ after,
      fun here => groupUnique member listed after here ▸ before⟩

structure Holds (fields : Json.Fields) (k : Keyword) (key : String) (value : Json) : Prop where
  listed : key ∈ k.spellings
  only : ∀ x ∈ k.spellings, fields.lookup x = if x = key then some value else none

def Omits (fields : Json.Fields) (k : Keyword) : Prop := ∀ x ∈ k.spellings, fields.lookup x = none

theorem lookupPlain (respelled : layout.Fields fields others) {key : String}
    (plain : ∀ k ∈ layout.groups, key ∉ k.spellings) : fields.lookup key = others.lookup key := by
  have pairs := respelled.pairs
  clear respelled
  induction pairs with
  | nil => rfl
  | cons head _ ih =>
    cases head with
    | kept => rw [List.lookup_cons, List.lookup_cons, ih]
    | @respelled k first second _ _ listed before after =>
      have one : (key == first) = false := beq_eq_false_iff_ne.mpr fun same => plain k listed (same ▸ before)
      have two : (key == second) = false := beq_eq_false_iff_ne.mpr fun same => plain k listed (same ▸ after)
      rw [List.lookup_cons, List.lookup_cons, one, two, ih]

theorem lookupPassed {key x : String} {value : Json} (missed : key ∉ k.spellings) (listed : x ∈ k.spellings) :
    ((key, value) :: fields).lookup x = fields.lookup x := by
  rw [List.lookup_cons, beq_eq_false_iff_ne.mpr fun same : x = key => missed (same ▸ listed)]

theorem heldFirst {key : String} {value : Json} (listed : key ∈ k.spellings) (rest : Omits fields k) :
    Holds ((key, value) :: fields) k key value := by
  refine ⟨listed, fun x mem => ?_⟩
  rw [List.lookup_cons, rest x mem]
  by_cases same : x = key
  · simp [same]
  · rw [beq_eq_false_iff_ne.mpr same, if_neg same]

theorem located (respelled : layout.Fields fields others) (listed : k ∈ layout.groups) :
    (Omits fields k ∧ Omits others k) ∨ ∃ key other value result,
      Holds fields k key value ∧ Holds others k other result ∧ layout.values k value result := by
  obtain ⟨pairs, single⟩ := respelled
  induction pairs with
  | nil => exact .inl ⟨fun _ _ => rfl, fun _ _ => rfl⟩
  | @cons field other rest tail head _ ih =>
    obtain ⟨apart, later⟩ := List.pairwise_cons.mp single
    obtain ⟨first, value⟩ := field
    obtain ⟨second, result⟩ := other
    by_cases here : second ∈ k.spellings
    · -- the keyword is written here, and so nowhere else
      have none : Omits rest k ∧ Omits tail k := by
        refine (ih later).resolve_right ?_
        rintro ⟨_, again, _, _, _, held, _⟩
        have found : tail.lookup again = some _ := (held.only again held.listed).trans (if_pos rfl)
        exact apart _ (Named.foundListed found) k listed here held.listed
      cases head with
      | kept _ plain => exact absurd here (plain k listed)
      | respelled member before after related =>
        cases groupUnique member listed after here
        exact .inr ⟨first, second, value, result, heldFirst before none.1, heldFirst after none.2, related⟩
    · have there : first ∉ k.spellings := fun mem => here ((fieldGroup head listed).mp mem)
      rcases ih later with ⟨one, two⟩ | ⟨key, other, value, result, one, two, related⟩
      · exact .inl ⟨fun x mem => (lookupPassed there mem).trans (one x mem),
          fun x mem => (lookupPassed here mem).trans (two x mem)⟩
      · exact .inr ⟨key, other, value, result,
          ⟨one.listed, fun x mem => (lookupPassed there mem).trans (one.only x mem)⟩,
          ⟨two.listed, fun x mem => (lookupPassed here mem).trans (two.only x mem)⟩, related⟩

theorem writtenHeld {owner key : String} {value : Json} (distinct : k.spellings.Nodup)
    (held : Holds fields k key value) : Section.written ⟨owner, fields⟩ k = [(key, value)] := by
  have only (keys : List String) (nodup : keys.Nodup) (within : ∀ x ∈ keys, x ∈ k.spellings) :
      (keys.filterMap fun x => (fields.lookup x).map (x, ·)) = if key ∈ keys then [(key, value)] else [] := by
    induction keys with
    | nil => rfl
    | cons x rest ih =>
      obtain ⟨mem, inside⟩ := List.forall_mem_cons.mp within
      obtain ⟨fresh, later⟩ := List.nodup_cons.mp nodup
      rw [List.filterMap_cons, held.only x mem, ih later inside]
      by_cases same : x = key
      · subst same
        simp [fresh]
      · simp [same, Ne.symm same]
  exact (only _ distinct fun _ mem => mem).trans (if_pos held.listed)

theorem writtenOmitted {owner : String} (omitted : Omits fields k) : Section.written ⟨owner, fields⟩ k = [] :=
  List.filterMap_eq_nil_iff.mpr fun x mem => by rw [omitted x mem]; rfl

variable (respelled : layout.Fields fields others) (owner : String)
include respelled

theorem getRelated (listed : k ∈ layout.groups) : ∃ found other,
    Section.get? ⟨owner, fields⟩ k = .ok found ∧ Section.get? ⟨owner, others⟩ k = .ok other ∧
      Option.Rel (layout.values k) found other := by
  have distinct := groupDistinct listed
  rcases located respelled listed with ⟨one, two⟩ | ⟨_, _, value, result, one, two, related⟩
  · refine ⟨none, none, ?_, ?_, .none⟩
    · rw [Section.get?, writtenOmitted one]
    · rw [Section.get?, writtenOmitted two]
  · refine ⟨some value, some result, ?_, ?_, .some related⟩
    · rw [Section.get?, writtenHeld distinct one]
    · rw [Section.get?, writtenHeld distinct two]

theorem getSame (listed : k ∈ layout.groups) (plain : layout.values k = Eq) :
    Section.get? ⟨owner, fields⟩ k = Section.get? ⟨owner, others⟩ k := by
  obtain ⟨found, other, one, two, related⟩ := getRelated respelled owner listed
  rw [plain] at related
  rw [one, two]
  cases related <;> simp [*]

theorem getUnlisted (plain : ∀ key ∈ k.spellings, ∀ g ∈ layout.groups, key ∉ g.spellings) :
    Section.get? ⟨owner, fields⟩ k = Section.get? ⟨owner, others⟩ k := by
  have written : Section.written ⟨owner, fields⟩ k = Section.written ⟨owner, others⟩ k :=
    List.filterMap_congr fun key mem => by rw [lookupPlain respelled (plain key mem)]
  rw [Section.get?, Section.get?, written]

theorem firstSame (listed : k ∈ layout.groups) (plain : layout.values k = Eq) :
    firstUnder? fields k = firstUnder? others k := by
  have omitted {fields : Json.Fields} (missing : Omits fields k) : firstUnder? fields k = none :=
    List.findSome?_eq_none_iff.mpr missing
  have held {fields : Json.Fields} {key : String} {value : Json} (holds : Holds fields k key value) :
      firstUnder? fields k = some value := by
    have here : (firstUnder? fields k).isSome :=
      List.findSome?_isSome_iff.mpr ⟨key, holds.listed, by rw [holds.only key holds.listed, if_pos rfl]; rfl⟩
    obtain ⟨found, first⟩ := Option.isSome_iff_exists.mp here
    obtain ⟨x, mem, given⟩ := List.exists_of_findSome?_eq_some first
    rw [holds.only x mem] at given
    split at given
    · rw [first, given]
    · contradiction
  rcases located respelled listed with ⟨one, two⟩ | ⟨_, _, value, result, one, two, related⟩
  · rw [omitted one, omitted two]
  · rw [plain] at related
    rw [held one, held two, related]

end Layout

section

variable {owner : String} {fields others : Json.Fields} {k : Keyword}

theorem textSame (same : Section.get? ⟨owner, fields⟩ k = Section.get? ⟨owner, others⟩ k) :
    Section.text? ⟨owner, fields⟩ k = Section.text? ⟨owner, others⟩ k := by
  rw [Section.text?, Section.text?, same]

theorem templatesSame (context : Context) (same : Section.get? ⟨owner, fields⟩ k = Section.get? ⟨owner, others⟩ k) :
    context.templatesUnder ⟨owner, fields⟩ k = context.templatesUnder ⟨owner, others⟩ k := by
  rw [Context.templatesUnder, Context.templatesUnder, same]

theorem exclusiveSame {keywords : List Keyword}
    (same : ∀ k ∈ keywords, Section.get? ⟨owner, fields⟩ k = Section.get? ⟨owner, others⟩ k) :
    Section.exclusive ⟨owner, fields⟩ keywords = Section.exclusive ⟨owner, others⟩ keywords := by
  have after (found : Option Keyword) :
      Section.exclusiveAfter ⟨owner, fields⟩ found keywords =
        Section.exclusiveAfter ⟨owner, others⟩ found keywords := by
    induction keywords generalizing found with
    | nil => rfl
    | cons k rest ih =>
      obtain ⟨head, tail⟩ := List.forall_mem_cons.mp same
      simp only [Section.exclusiveAfter, head, ih tail]
  exact after none

end

end TabularRdf.Document

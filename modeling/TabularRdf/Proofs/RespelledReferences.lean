import TabularRdf.Document.PredicateObject
import TabularRdf.Proofs.RespelledPayloads

/-! The levels of a document on which keys may be respelled, from the parameters of a join condition up to the
entries of subjects and objects. A reference to another mapping is read as before. -/
namespace TabularRdf.Document
open Mapping Loading Layout

def aliases : List Keyword :=
  [.authors, .sources, .targets, .subjects, .predicateObjects, .graphs, .condition, .predicates, .objects,
    .inversePredicates, .value, .function, .parameters, .parameter]

theorem aliasesKept : ∀ k ∈ aliases, k.Kept := by decide

theorem aliasesDistinct : (aliases.flatMap Keyword.spellings).Nodup := by decide

def parameterLevel : Layout := ⟨aliases, fun _ => Eq, aliasesDistinct⟩

def conditionLevel : Layout :=
  ⟨aliases, fun k => if k = .parameters then parameterLevel.Items else Eq, aliasesDistinct⟩

def entryLevel : Layout := ⟨aliases, fun k => if k = .condition then conditionLevel.Items else Eq, aliasesDistinct⟩

section

variable {owner : String} {value other : Json} {values others : List Json}

theorem parameterSame (respelled : parameterLevel.Respelled value other) :
    Parameter.ofJson owner value = Parameter.ofJson owner other := by
  cases respelled with
  | other => rfl
  | object fields =>
    have name := textSame (getSame fields owner (k := .parameter) (by decide) rfl)
    have value := textSame (getSame fields owner (k := .value) (by decide) rfl)
    have side := textSame (getUnlisted fields owner (k := .side) (by decide))
    simp only [Parameter.ofJson, name, value, side]

theorem keyPartsSame (respelled : List.Forall₂ parameterLevel.Respelled values others) (place : Nat)
    (parts : KeyParts) : keyParts owner place parts values = keyParts owner place parts others := by
  induction respelled generalizing place parts with
  | nil => rfl
  | cons head _ ih => simp only [keyParts, parameterSame head, ih]

theorem equalKeySame (respelled : parameterLevel.Items value other) :
    equalKey owner value = equalKey owner other := by
  rw [equalKey, equalKey, keyPartsSame (itemsRespelled respelled)]

theorem readRelated {α : Type} {layout : Layout} {fields others : Json.Fields}
    (respelled : layout.Fields fields others) {k : Keyword} (listed : k ∈ layout.groups)
    {read : Option Json → Except MappingError α}
    (same : ∀ found other, Option.Rel (layout.values k) found other → read found = read other) :
    (Section.get? ⟨owner, fields⟩ k >>= read) = (Section.get? ⟨owner, others⟩ k >>= read) := by
  obtain ⟨found, other, one, two, related⟩ := getRelated respelled owner listed
  rw [one, two]
  exact same found other related

end

section

variable {owner : String} {fields others : Json.Fields}

theorem conditionKeySame (respelled : conditionLevel.Fields fields others) (owner : String) :
    conditionKey ⟨owner, fields⟩ = conditionKey ⟨owner, others⟩ := by
  have function := textSame (getSame respelled owner (k := .function) (by decide) rfl)
  have parameters {α : Type} {read : Option Json → Except MappingError α}
      (same : ∀ found other, Option.Rel parameterLevel.Items found other → read found = read other) :
      (Section.get? ⟨owner, fields⟩ .parameters >>= read) = (Section.get? ⟨owner, others⟩ .parameters >>= read) :=
    readRelated respelled (by decide) same
  unfold conditionKey
  rw [function]
  refine bind_congr fun function => ?_
  cases function with
  | none =>
    refine parameters fun _ _ related => ?_
    cases related <;> rfl
  | some name =>
    dsimp only
    split
    · refine parameters fun _ _ related => ?_
      cases related with
      | none => rfl
      | some items => simp only [equalKeySame items]
    · rfl

variable {value other : Json} (context : Context)

theorem filterSame {k : Keyword} (problem : Problem)
    (same : Section.get? ⟨owner, fields⟩ k = Section.get? ⟨owner, others⟩ k) :
    filterIris context ⟨owner, fields⟩ k problem = filterIris context ⟨owner, others⟩ k problem := by
  rw [filterIris, filterIris, same]

theorem conditionItemSame (respelled : conditionLevel.Respelled value other) :
    conditionItem context owner value = conditionItem context owner other := by
  cases respelled with
  | other => rfl
  | object fields =>
    have key := conditionKeySame fields owner
    have predicates := fun problem => filterSame context problem
      (getSame fields owner (k := .predicates) (by decide) rfl)
    have graphs := fun problem => filterSame context problem
      (getSame fields owner (k := .graphs) (by decide) rfl)
    simp only [conditionItem, Section.ofValue, boundLoaded, key, predicates, graphs]

theorem joinConditionSame (respelled : conditionLevel.Items value other) :
    joinCondition context owner value = joinCondition context owner other := by
  rw [joinCondition, joinCondition, mappedSame (itemsRespelled respelled) fun _ _ => conditionItemSame context]

variable (respelled : entryLevel.Fields fields others)
include respelled

theorem entryRead (owner : String) {k : Keyword} (apart : k ≠ .condition)
    (known : k ∈ aliases ∨ ∀ key ∈ k.spellings, ∀ g ∈ aliases, key ∉ g.spellings) :
    Section.get? ⟨owner, fields⟩ k = Section.get? ⟨owner, others⟩ k :=
  known.elim (fun listed => getSame respelled owner listed (if_neg apart)) (getUnlisted respelled owner)

theorem conditionSame : conditionUnder context ⟨owner, fields⟩ = conditionUnder context ⟨owner, others⟩ := by
  refine readRelated respelled (k := .condition) (by decide) fun _ _ related => ?_
  cases related with
  | none => rfl
  | some items => exact joinConditionSame context items

theorem quotedSame : quotedRef context ⟨owner, fields⟩ = quotedRef context ⟨owner, others⟩ := by
  have quoted := textSame (entryRead respelled owner (k := .quoted) (by decide) (by decide))
  have silent := textSame (entryRead respelled owner (k := .quotedNonAsserted) (by decide) (by decide))
  simp only [quotedRef, quotedName, quoted, silent, conditionSame context respelled]

theorem referenceSame : referenceObject context ⟨owner, fields⟩ = referenceObject context ⟨owner, others⟩ := by
  have mapping := textSame (entryRead respelled owner (k := .mapping) (by decide) (by decide))
  simp only [referenceObject, mapping, conditionSame context respelled]

theorem valueSame : valueObject context ⟨owner, fields⟩ = valueObject context ⟨owner, others⟩ := by
  have value := textSame (entryRead respelled owner (k := .value) (by decide) (by decide))
  have type := textSame (entryRead respelled owner (k := .type) (by decide) (by decide))
  have datatype := textSame (entryRead respelled owner (k := .datatype) (by decide) (by decide))
  have language := textSame (entryRead respelled owner (k := .language) (by decide) (by decide))
  simp only [valueObject, value, type, datatype, language]

omit context respelled in
theorem nestedCarried {nested k : Keyword} {R : Json → Json → Prop}
    (carried : ∀ value other, R value other → CarriedAlike value other)
    (related : (if k = nested then R else Eq) value other) : CarriedAlike value other := by
  split at related
  · exact carried value other related
  · exact carriedSame related

omit context in
theorem functionSame : Together (fun a b => a.sealed = b.sealed) (functionOf owner fields)
    (functionOf owner others) := by
  have parameters (value other : Json) : parameterLevel.Items value other → CarriedAlike value other :=
    itemsCarried aliasesKept fun _ _ _ _ => carriedSame
  have conditions (value other : Json) : conditionLevel.Items value other → CarriedAlike value other :=
    itemsCarried aliasesKept fun _ _ _ _ => nestedCarried parameters
  exact functionSealed aliasesKept (fun _ _ _ _ => nestedCarried conditions) respelled (by decide) (by decide)
    rfl rfl owner

end

end TabularRdf.Document

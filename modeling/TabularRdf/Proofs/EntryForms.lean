import TabularRdf.Document.PredicateObject
import TabularRdf.Proofs.SubjectForms

/-! What reading keeps of entries: a term has a datatype or a language and as an IRI neither, a condition has
keys in order, and only what can stand as a subject is under an inverse predicate. -/
namespace TabularRdf.Mapping

def termFormed (kind : Option TermKind) (datatype language : Option Template) : Prop :=
  (datatype = none ∨ language = none) ∧ (kind = some .iri → datatype = none ∧ language = none)

def ObjectSpec.Formed : ObjectSpec → Prop
  | .term t => termFormed (some t.kind) t.datatype t.language
  | .reference r => Keyed r.condition
  | .quoted q => Keyed q.condition
  | .function _ => True

structure PredicateObject.Formed (po : PredicateObject) : Prop where
  object : po.object.Formed
  resource : po.inverse ≠ none → po.object.isResource

end TabularRdf.Mapping

namespace TabularRdf.Document
open Mapping Loading

variable {context : Context} {s : Section} {owner : String}

def EntryObject.Formed : EntryObject → Prop
  | .term _ kind datatype language => termFormed kind datatype language
  | .other object => object.Formed

theorem termMade {template : Template} {kind : Option TermKind} {datatype language : Option Template}
    {object : EntryObject} (made : EntryObject.makeTerm owner template kind datatype language = .ok object) :
    object.Formed := by
  unfold EntryObject.makeTerm at made
  split at made
  · contradiction
  · rename_i notBoth
    split at made
    · contradiction
    · rename_i notIri
      cases Except.ok.inj made
      constructor
      · cases datatype <;> cases language <;> simp_all
      · rintro rfl
        cases datatype <;> cases language <;> simp_all

theorem compactFormed {written : CompactObject} {object : EntryObject}
    (loaded : compactTerm context owner written = .ok object) : object.Formed := by
  simp only [compactTerm, boundOk] at loaded
  obtain ⟨_, _, _, _, made⟩ := loaded
  exact termMade made

theorem termShaped {template : Template} {kind : Option TermKind} {datatype language : Option Template}
    {object : EntryObject} (made : EntryObject.makeTerm owner template kind datatype language = .ok object) :
    object = .term template kind datatype language := by
  unfold EntryObject.makeTerm at made
  split at made
  · contradiction
  · split at made
    · contradiction
    · exact (Except.ok.inj made).symm

theorem valueMade {object : EntryObject} (loaded : valueObject context s = .ok object) :
    ∃ template kind datatype language, EntryObject.makeTerm s.owner template kind datatype language = .ok object := by
  simp only [valueObject, boundOk] at loaded
  obtain ⟨written, _, loaded⟩ := loaded
  cases written with
  | none => cases loaded
  | some written =>
    simp only [boundOk] at loaded
    obtain ⟨_, _, _, _, _, _, _, _, _, _, _, _, _, _, _, _, _, _, made⟩ := loaded
    exact ⟨_, _, _, _, made⟩

theorem referenceShaped {object : EntryObject} (loaded : referenceObject context s = .ok object) :
    ∃ r, object = .other (.reference r) := by
  simp only [referenceObject, boundOk] at loaded
  obtain ⟨mapping, _, loaded⟩ := loaded
  cases mapping with
  | none => cases loaded
  | some mapping =>
    obtain ⟨_, _, loaded⟩ := boundOk.mp loaded
    obtain ⟨_, same⟩ := passedOk.mp loaded
    exact ⟨_, (pureOk.mp same).symm⟩

theorem valueFormed {object : EntryObject} (loaded : valueObject context s = .ok object) :
    object.Formed := by
  obtain ⟨_, _, _, _, made⟩ := valueMade loaded
  exact termMade made

theorem referenceFormed {object : EntryObject} (loaded : referenceObject context s = .ok object) :
    object.Formed := by
  simp only [referenceObject, boundOk] at loaded
  obtain ⟨mapping, _, loaded⟩ := loaded
  cases mapping with
  | none => cases loaded
  | some mapping =>
    obtain ⟨⟨condition, filter⟩, written, loaded⟩ := boundOk.mp loaded
    obtain ⟨_, same⟩ := passedOk.mp loaded
    cases pureOk.mp same
    exact writtenKeyed written

theorem longCases {object : EntryObject} (loaded : longObject context s = .ok object) :
    referenceObject context s = .ok object ∨
      (∃ expression, functionOf s.owner s.fields = .ok expression ∧ object = .other (.function expression)) ∨
      valueObject context s = .ok object ∨
      ∃ q, quotedRef context s = .ok (some q) ∧ object = .other (.quoted q) := by
  simp only [longObject, boundOk] at loaded
  obtain ⟨keyword, _, loaded⟩ := loaded
  cases keyword with
  | none => cases loaded
  | some keyword =>
    dsimp only at loaded
    split at loaded
    · exact .inl loaded
    · split at loaded
      · obtain ⟨expression, read, same⟩ := boundOk.mp loaded
        exact .inr (.inl ⟨expression, read, (pureOk.mp same).symm⟩)
      · split at loaded
        · exact .inr (.inr (.inl loaded))
        · obtain ⟨quoted, read, loaded⟩ := boundOk.mp loaded
          cases quoted with
          | none => cases loaded
          | some q => exact .inr (.inr (.inr ⟨q, read, (pureOk.mp loaded).symm⟩))

theorem longFormed {object : EntryObject} (loaded : longObject context s = .ok object) :
    object.Formed := by
  rcases longCases loaded with reference | ⟨_, _, rfl⟩ | value | ⟨q, read, rfl⟩
  · exact referenceFormed reference
  · exact trivial
  · exact valueFormed value
  · exact quotedKeyed read

theorem objectFormed {value : Json} {object : EntryObject}
    (loaded : entryObject context owner value = .ok object) : object.Formed := by
  unfold entryObject at loaded
  split at loaded
  · exact longFormed loaded
  · obtain ⟨written, _, loaded⟩ := boundOk.mp loaded
    exact compactFormed loaded

theorem entryFormed {value : Json} {entry : Entry} (loaded : parseEntry context owner value = .ok entry) :
    ∀ object ∈ entry.objects, object.Formed := by
  unfold parseEntry at loaded
  split at loaded
  · simp only [compactEntry, boundOk, pureOk] at loaded
    obtain ⟨_, _, _, _, objects, mapped, rfl⟩ := loaded
    intro object mem
    obtain ⟨_, _, read⟩ := mappedOrigin mapped mem
    exact compactFormed read
  · simp only [longEntry, boundOk] at loaded
    obtain ⟨_, _, _, _, items, _, objects, mapped, loaded⟩ := loaded
    obtain ⟨_, loaded⟩ := passedOk.mp loaded
    simp only [boundOk, pureOk] at loaded
    obtain ⟨_, _, _, _, _, _, _, _, rfl⟩ := loaded
    intro object mem
    obtain ⟨_, _, read⟩ := mappedOrigin mapped mem
    exact objectFormed read
  · contradiction

theorem kindChosen (predicate : Predicate) {object : EntryObject} (formed : object.Formed) :
    (object.forPredicate predicate).Formed := by
  cases object with
  | other object => exact formed
  | term template kind datatype language =>
    refine ⟨formed.1, ?_⟩
    intro iri
    cases kind with
    | some kind => exact formed.2 iri
    | none =>
      simp only [Option.getD_none, EntryObject.implicitKind] at iri
      split at iri
      · rename_i plain
        simp only [Bool.and_eq_true, Option.isNone_iff_eq_none] at plain
        exact ⟨plain.1.2, plain.2⟩
      · simp at iri

theorem pairFormed {entry : Entry} {predicate : Predicate} {inverse : Option Template}
    {object : EntryObject} {po : PredicateObject} (formed : object.Formed)
    (paired : entry.pair owner predicate inverse object = .ok po) : po.Formed := by
  unfold Entry.pair at paired
  dsimp only at paired
  split at paired
  · contradiction
  · rename_i allowed
    cases Except.ok.inj paired
    refine ⟨kindChosen predicate formed, ?_⟩
    intro inverted
    simpa [Option.isSome_iff_ne_none, inverted] using allowed

theorem expandedOrigin {entry : Entry} {pos : List PredicateObject} (expanded : entry.expand owner = .ok pos)
    {po : PredicateObject} (mem : po ∈ pos) : ∃ predicate ∈ entry.predicates, ∃ object ∈ entry.objects,
      ∃ i, entry.pair owner predicate (entry.inverseAt i) object = .ok po := by
  simp only [Entry.expand] at expanded
  obtain ⟨_, expanded⟩ := passedOk.mp expanded
  simp only [boundOk, pureOk] at expanded
  obtain ⟨rows, mapped, rfl⟩ := expanded
  obtain ⟨row, inRows, inRow⟩ := List.mem_flatten.mp mem
  obtain ⟨⟨predicate, i⟩, placed, read⟩ := mappedOrigin mapped inRows
  obtain ⟨object, listed, paired⟩ := mappedOrigin read inRow
  exact ⟨predicate, List.fst_mem_of_mem_zipIdx placed, object, listed, i, paired⟩

theorem pairOrigin {pos : List PredicateObject} (loaded : parsePredicateObjects context s = .ok pos)
    {po : PredicateObject} (mem : po ∈ pos) : ∃ value entry, parseEntry context s.owner value = .ok entry ∧
      ∃ predicate ∈ entry.predicates, ∃ object ∈ entry.objects, ∃ i,
        entry.pair s.owner predicate (entry.inverseAt i) object = .ok po := by
  simp only [parsePredicateObjects, boundOk] at loaded
  obtain ⟨written, _, loaded⟩ := loaded
  split at loaded
  · cases pureOk.mp loaded
    contradiction
  · simp only [boundOk, pureOk] at loaded
    obtain ⟨entries, mapped, rfl⟩ := loaded
    obtain ⟨expanded, listed, inside⟩ := List.mem_flatten.mp mem
    obtain ⟨item, _, read⟩ := mappedOrigin mapped listed
    obtain ⟨entry, parsed, expansion⟩ := boundOk.mp read
    exact ⟨item, entry, parsed, expandedOrigin expansion inside⟩
  · contradiction

theorem predicateObjectsFormed {pos : List PredicateObject}
    (loaded : parsePredicateObjects context s = .ok pos) : ∀ po ∈ pos, po.Formed := by
  intro po mem
  obtain ⟨_, entry, parsed, _, _, object, listed, _, paired⟩ := pairOrigin loaded mem
  exact pairFormed (entryFormed parsed object listed) paired

end TabularRdf.Document

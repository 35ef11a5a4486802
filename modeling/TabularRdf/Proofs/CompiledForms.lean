import TabularRdf.Proofs.BuiltMaps
import TabularRdf.Proofs.WellFormedTerms

/-! What compiling keeps of the maps of a document: subjects and predicates are templates of IRIs, and so is a
term under an inverse predicate. -/
namespace TabularRdf.Generation
open Iri Mapping Loading

def CompiledObject.Formed (inverted : Prop) : CompiledObject → Prop
  | .term t => t.shape.Plain ∧ (inverted → t.shape.Iris)
  | .reference _ | .quoted _ | .function => True

structure CompiledEntry.Formed (entry : CompiledEntry) : Prop where
  predicate : entry.predicate.shape.Iris
  inverse : ∀ t, entry.inverse = some t → t.shape.Iris
  object : entry.object.Formed (entry.inverse ≠ none)

structure CompiledMap.Formed (map : CompiledMap) : Prop where
  subjects : ∀ t ∈ map.subjectTerms, t.shape.Iris
  entries : ∀ entry ∈ map.entries, entry.Formed

variable {resolver : Resolver}

theorem irisCompiled {templates : List Template} {terms : List CompiledTerm}
    (compiled : compileIris templates resolver = .ok terms) : ∀ t ∈ terms, t.shape.Iris := by
  intro t mem
  obtain ⟨_, _, one⟩ := mappedOrigin compiled mem
  exact CompiledTerm.iriShape one

theorem optionCompiled {template : Option Template} {term : Option CompiledTerm}
    (compiled : (template.mapM fun t => CompiledTerm.iri t resolver) = .ok term) :
    (∀ t, term = some t → t.shape.Iris) ∧ (term ≠ none → template ≠ none) := by
  cases template with
  | none =>
    cases pureOk.mp compiled
    simp
  | some template =>
    obtain ⟨t, one, same⟩ := boundOk.mp compiled
    cases pureOk.mp same
    simp [CompiledTerm.iriShape one]

theorem objectCompiled {object : ObjectSpec} {compiled : CompiledObject} {inverted : Prop}
    (resource : inverted → object.isResource) (done : CompiledObject.compile object resolver = .ok compiled) :
    compiled.Formed inverted := by
  cases object with
  | term t =>
    obtain ⟨term, one, same⟩ := boundOk.mp done
    cases pureOk.mp same
    refine ⟨CompiledTerm.objectShape one, fun holds => ?_⟩
    have kind : t.kind = .iri := by simpa [ObjectSpec.isResource] using resource holds
    rw [CompiledTerm.object, kind] at one
    exact CompiledTerm.iriShape one
  | _ =>
    cases pureOk.mp done
    trivial

theorem entryCompiled {po : PredicateObject} {entry : CompiledEntry} (formed : po.Formed)
    (compiled : CompiledEntry.compile resolver po = .ok entry) : entry.Formed := by
  simp only [CompiledEntry.compile, boundOk, pureOk] at compiled
  obtain ⟨object, objects, predicate, predicates, inverse, inverses, _, _, rfl⟩ := compiled
  obtain ⟨iris, written⟩ := optionCompiled inverses
  exact ⟨CompiledTerm.iriShape predicates, iris,
    objectCompiled (fun inverted => formed.resource (written inverted)) objects⟩

theorem subjectsCompiled {subject : SubjectSpec} {subjects : CompiledSubjects}
    (compiled : CompiledSubjects.compile subject resolver = .ok subjects) (terms : List CompiledTerm)
    (made : subjects = .templates terms) : ∀ t ∈ terms, t.shape.Iris := by
  unfold CompiledSubjects.compile at compiled
  split at compiled
  · cases pureOk.mp compiled
    contradiction
  · obtain ⟨found, all, same⟩ := boundOk.mp compiled
    cases pureOk.mp same
    cases made
    exact irisCompiled all

theorem mapCompiled {m : TriplesMap} {compiled : CompiledMap} (formed : m.Formed)
    (done : CompiledMap.compile m resolver = .ok compiled) : compiled.Formed := by
  simp only [CompiledMap.compile, boundOk, pureOk] at done
  obtain ⟨subjects, subject, entries, mapped, _, _, _, _, rfl⟩ := done
  constructor
  · intro t mem
    unfold CompiledMap.subjectTerms at mem
    split at mem
    · rename_i terms made
      exact subjectsCompiled subject terms made t mem
    · contradiction
  · intro entry mem
    obtain ⟨po, listed, one⟩ := mappedOrigin mapped mem
    exact entryCompiled (formed.predicateObjects po listed) one

end TabularRdf.Generation

import TabularRdf.Generation.Generate

/-! What a map depends on. Of the resolver it reads what the names stand for, and of the other maps nothing
but the outputs and the indexes under its own references. -/
namespace TabularRdf.Iri.Resolver
open Rdf

structure Alike (left right : Resolver) : Prop where
  prefixes : ∀ head, left.prefixes.lookup head = right.prefixes.lookup head
  base : left.base = right.base
  encoding : left.encoding = right.encoding

theorem Alike.refl (r : Resolver) : r.Alike r := ⟨fun _ => rfl, rfl, rfl⟩

variable {left right : Resolver} (alike : left.Alike right)
include alike

theorem sameQualified : left.qualify = right.qualify := by
  funext relative
  simp only [qualify, alike.base]

theorem sameHead : left.expandHead = right.expandHead := by
  funext value
  simp only [expandHead, alike.prefixes, sameQualified alike]

theorem sameExpansion : left.expand = right.expand := by
  funext value
  simp only [expand, sameHead alike]

theorem sameAbsolute : left.isNameOrAbsolute = right.isNameOrAbsolute := by
  funext value
  unfold isNameOrAbsolute
  split
  · rfl
  · cases splitName? value with
    | none => rfl
    | some name => simp only [alike.prefixes]

theorem sameReference : left.resolveReference = right.resolveReference := by
  funext value
  simp only [resolveReference, alike.encoding, sameAbsolute alike, sameQualified alike, sameExpansion alike]

end TabularRdf.Iri.Resolver

namespace TabularRdf.Generation
open Iri Mapping Rdf

section

variable {left right : Resolver} (alike : left.Alike right)
include alike

theorem sameIris (template : Template) : CompiledTerm.iri template left = CompiledTerm.iri template right := by
  simp only [CompiledTerm.iri, Resolver.sameExpansion alike, Resolver.sameHead alike]

theorem sameDatatype (datatype : Option Template) :
    Qualifier.datatype? left datatype = Qualifier.datatype? right datatype := by
  cases datatype with
  | none => rfl
  | some template => simp only [Qualifier.datatype?, Qualifier.ofDatatype, Resolver.sameExpansion alike]

theorem sameObjects (term : ObjectTerm) : CompiledTerm.object term left = CompiledTerm.object term right := by
  simp only [CompiledTerm.object, CompiledTerm.literal, sameIris alike, sameDatatype alike]

theorem sameLevel (templates : List Template) : compileIris templates left = compileIris templates right := by
  simp only [compileIris, sameIris alike]

theorem sameEntries : CompiledEntry.compile left = CompiledEntry.compile right := by
  funext po
  have object : CompiledObject.compile po.object left = CompiledObject.compile po.object right := by
    cases po.object <;> simp only [CompiledObject.compile, sameObjects alike]
  simp only [CompiledEntry.compile, object, sameIris alike, sameLevel alike]

theorem sameCompiled (map : TriplesMap) : CompiledMap.compile map left = CompiledMap.compile map right := by
  have subjects : CompiledSubjects.compile map.subject left = CompiledSubjects.compile map.subject right := by
    simp only [CompiledSubjects.compile, sameLevel alike]
  simp only [CompiledMap.compile, subjects, sameEntries alike, sameLevel alike]

theorem sameBuilt (t : CompiledTerm) : t.build left = t.build right := by
  funext cells
  simp only [CompiledTerm.build, alike.encoding, Resolver.sameExpansion alike, Resolver.sameReference alike]

theorem sameTerms : termsAt left = termsAt right := by
  funext row terms
  simp only [termsAt, BoundTerm.atRow, CompiledTerm.atRow, sameBuilt alike]

theorem sameGraphs : graphsAt left = graphsAt right := by
  funext row terms
  simp only [graphsAt, sameTerms alike]

theorem sameSubjects (terms : List CompiledTerm) (table : Table) :
    SubjectIndex.rowSubjects terms left table = SubjectIndex.rowSubjects terms right table := by
  simp only [SubjectIndex.rowSubjects, CompiledTerm.atRow, sameBuilt alike]

end

structure JoinContext.Alike (map : CompiledMap) (left right : JoinContext) : Prop where
  outputs : ∀ key ∈ map.quoteKeys, left.outputs.lookup key.1 = right.outputs.lookup key.1
  quotes : ∀ key ∈ map.quoteKeys, left.quoteIndexes.lookup key = right.quoteIndexes.lookup key
  subjects : ∀ key ∈ map.subjectKeys, left.subjectIndexes.lookup key = right.subjectIndexes.lookup key

section

variable {left right : JoinContext} {map : CompiledMap} (seen : JoinContext.Alike map left right)
include seen

theorem sameQuoted {q : QuotedRef} (listed : indexKey q.mapping q.condition ∈ map.quoteKeys) (probe : Probe)
    (position : Position) : left.quotedTerms q probe position = right.quotedTerms q probe position := by
  have output : left.outputs.lookup q.mapping = right.outputs.lookup q.mapping := seen.outputs _ listed
  simp only [JoinContext.quotedTerms, output, seen.quotes _ listed]

theorem sameReferenced {r : MappingRef} (listed : indexKey r.mapping r.condition ∈ map.subjectKeys)
    (probe : Probe) (position : Position) :
    left.referencedSubjects r probe position = right.referencedSubjects r probe position := by
  simp only [JoinContext.referencedSubjects, seen.subjects _ listed]

variable {first second : Resolver} (alike : first.Alike second) (table : Table) (position : Position)
include alike

theorem subjectsAlike : subjectsAt first left position (map.subjects.bind table).1 =
    subjectsAt second right position (map.subjects.bind table).1 := by
  cases kind : map.subjects with
  | templates terms => simp only [CompiledSubjects.bind, subjectsAt, sameTerms alike]
  | quoted q =>
    have listed : indexKey q.mapping q.condition ∈ map.quoteKeys :=
      List.mem_append_left _ (by simp [kind])
    simp only [CompiledSubjects.bind, subjectsAt, sameQuoted seen listed]

variable {entry : CompiledEntry} (mem : entry ∈ map.entries)
include mem

theorem objectsAlike : objectsAt first left position (entry.object.bind table).1 =
    objectsAt second right position (entry.object.bind table).1 := by
  cases kind : entry.object with
  | term t => simp only [CompiledObject.bind, objectsAt, sameTerms alike]
  | reference r =>
    have listed : indexKey r.mapping r.condition ∈ map.subjectKeys :=
      List.mem_filterMap.mpr ⟨entry, mem, by rw [kind]⟩
    simp only [CompiledObject.bind, objectsAt, sameReferenced seen listed]
  | quoted q =>
    have listed : indexKey q.mapping q.condition ∈ map.quoteKeys :=
      List.mem_append_right _ (List.mem_filterMap.mpr ⟨entry, mem, by rw [kind]⟩)
    simp only [CompiledObject.bind, objectsAt, sameQuoted seen listed]
  | function => rfl

theorem entryAlike (inherited : List (Option String)) :
    entryAt first left position inherited (entry.bind table).1 =
      entryAt second right position inherited (entry.bind table).1 := by
  have objects := objectsAlike seen alike table position mem
  unfold entryAt
  dsimp only [CompiledEntry.bind, BoundTerm.atRow, CompiledTerm.atRow]
  rw [objects, sameBuilt alike, sameTerms alike, sameGraphs alike]

omit mem

theorem rowAlike : rowAt first left (map.bind table).1 position =
    rowAt second right (map.bind table).1 position := by
  have entries (inherited : List (Option String)) :
      (map.bind table).1.entries.map (entryAt first left position inherited) =
        (map.bind table).1.entries.map (entryAt second right position inherited) := by
    simp only [CompiledMap.bind, List.map_map]
    exact List.map_congr_left fun entry mem => entryAlike seen alike table position mem inherited
  have subjects : subjectsAt first left position (map.bind table).1.subjects =
      subjectsAt second right position (map.bind table).1.subjects := subjectsAlike seen alike table position
  unfold rowAt
  dsimp only
  rw [subjects, sameGraphs alike, entries]

theorem generatedAlike (tables : List Table) :
    generateMap map tables first left = generateMap map tables second right := by
  have rows : generateTable map first left = generateTable map second right := by
    funext table t
    simp only [generateTable, rowAlike seen alike]
  simp only [generateMap, rows]

end

end TabularRdf.Generation

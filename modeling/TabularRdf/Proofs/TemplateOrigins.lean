import TabularRdf.Proofs.BuiltMaps

/-! Where the templates of a document come from. Every template of a map is written in the document, with its
external values put in, or is the class predicate. -/
namespace TabularRdf.Mapping

def ObjectSpec.templates : ObjectSpec → List Template
  | .term t => t.template :: (t.datatype.toList ++ t.language.toList)
  | .reference _ | .quoted _ | .function _ => []

def PredicateObject.templates (po : PredicateObject) : List Template :=
  po.predicate :: (po.object.templates ++ po.inverse.toList ++ po.graphs)

def TriplesMap.templates (m : TriplesMap) : List Template :=
  m.subject.templates ++ m.subject.graphs ++ m.graphs ++ m.predicateObjects.flatMap PredicateObject.templates

end TabularRdf.Mapping

namespace TabularRdf.Document
open Mapping Loading

inductive Context.Reads (context : Context) : Template → Prop where
  | written {text : String} {t : Template} (read : context.template text = .ok t) : Reads context t
  | type : Reads context (.constant Rdf.Vocabulary.rdfType)

variable {context : Context} {s : Section} {owner : String}

theorem templatesRead {keyword : Keyword} {templates : List Template}
    (loaded : context.templatesUnder s keyword = .ok templates) : ∀ t ∈ templates, context.Reads t := by
  simp only [Context.templatesUnder, boundOk] at loaded
  obtain ⟨value, _, loaded⟩ := loaded
  cases value with
  | none =>
    cases pureOk.mp loaded
    simp
  | some value =>
    intro t mem
    obtain ⟨item, _, read⟩ := mappedOrigin loaded mem
    obtain ⟨text, _, read⟩ := boundOk.mp read
    exact .written read

theorem optionRead {text : Option String} {template : Option Template}
    (loaded : text.mapM context.template = .ok template) : ∀ t ∈ template, context.Reads t := by
  intro t mem
  obtain ⟨_, _, read⟩ := givenOrigin loaded mem
  exact .written read

theorem predicateRead {text : String} {predicate : Predicate}
    (loaded : parsePredicate context text = .ok predicate) : context.Reads predicate.template := by
  unfold parsePredicate at loaded
  split at loaded
  · cases Except.ok.inj loaded
    exact .type
  · simp only [boundOk, pureOk] at loaded
    obtain ⟨t, read, rfl⟩ := loaded
    exact .written read

def EntryObject.templates : EntryObject → List Template
  | .term template _ datatype language => template :: (datatype.toList ++ language.toList)
  | .other object => object.templates

theorem termRead {template : Template} {kind : Option TermKind} {datatype language : Option Template}
    {object : EntryObject} (value : context.Reads template) (typed : ∀ t ∈ datatype, context.Reads t)
    (tagged : ∀ t ∈ language, context.Reads t)
    (made : EntryObject.makeTerm owner template kind datatype language = .ok object) :
    ∀ t ∈ object.templates, context.Reads t := by
  cases termShaped made
  simp only [EntryObject.templates, List.forall_mem_cons, List.mem_append, Option.mem_toList, or_imp, forall_and]
  exact ⟨value, typed, tagged⟩

theorem modifierRead {marked kind : Option TermKind} {modifier : Option Modifier} {datatype language : Option Template}
    (loaded : modifierParts context marked modifier = .ok (kind, datatype, language)) :
    (∀ t ∈ datatype, context.Reads t) ∧ ∀ t ∈ language, context.Reads t := by
  unfold modifierParts at loaded
  split at loaded
  · cases Except.ok.inj loaded
    simp
  · cases Except.ok.inj loaded
    simp
  · simp only [boundOk, pureOk] at loaded
    obtain ⟨t, read, same⟩ := loaded
    cases same
    simpa using Context.Reads.written read
  · simp only [boundOk, pureOk] at loaded
    obtain ⟨t, read, same⟩ := loaded
    cases same
    simpa using Context.Reads.written read

theorem compactRead {written : CompactObject} {object : EntryObject}
    (loaded : compactTerm context owner written = .ok object) : ∀ t ∈ object.templates, context.Reads t := by
  simp only [compactTerm, boundOk] at loaded
  obtain ⟨⟨kind, datatype, language⟩, modifier, t, read, made⟩ := loaded
  obtain ⟨typed, tagged⟩ := modifierRead modifier
  exact termRead (.written read) typed tagged made

theorem valueRead {object : EntryObject} (loaded : valueObject context s = .ok object) :
    ∀ t ∈ object.templates, context.Reads t := by
  simp only [valueObject, boundOk] at loaded
  obtain ⟨written, _, loaded⟩ := loaded
  cases written with
  | none => cases loaded
  | some written =>
    simp only [boundOk] at loaded
    obtain ⟨_, _, _, _, _, _, _, _, _, _, datatype, typed, _, _, language, tagged, t, read, made⟩ := loaded
    exact termRead (.written read) (optionRead typed) (optionRead tagged) made

theorem referenceRead {object : EntryObject} (loaded : referenceObject context s = .ok object) :
    object.templates = [] := by
  obtain ⟨_, rfl⟩ := referenceShaped loaded
  rfl

theorem longRead {object : EntryObject} (loaded : longObject context s = .ok object) :
    ∀ t ∈ object.templates, context.Reads t := by
  rcases longCases loaded with reference | ⟨_, _, rfl⟩ | value | ⟨_, _, rfl⟩
  · exact referenceRead reference ▸ List.forall_mem_nil _
  · exact List.forall_mem_nil _
  · exact valueRead value
  · exact List.forall_mem_nil _

theorem objectRead {value : Json} {object : EntryObject} (loaded : entryObject context owner value = .ok object) :
    ∀ t ∈ object.templates, context.Reads t := by
  unfold entryObject at loaded
  split at loaded
  · exact longRead loaded
  · obtain ⟨_, _, loaded⟩ := boundOk.mp loaded
    exact compactRead loaded

structure Entry.Read (context : Context) (entry : Entry) : Prop where
  predicates : ∀ p ∈ entry.predicates, context.Reads p.template
  objects : ∀ object ∈ entry.objects, ∀ t ∈ object.templates, context.Reads t
  inverse : ∀ t ∈ entry.inverse, context.Reads t
  graphs : ∀ t ∈ entry.graphs, context.Reads t

theorem entryTemplates {value : Json} {entry : Entry} (loaded : parseEntry context owner value = .ok entry) :
    entry.Read context := by
  unfold parseEntry at loaded
  split at loaded
  · simp only [compactEntry, boundOk, pureOk] at loaded
    obtain ⟨_, _, predicates, named, objects, mapped, rfl⟩ := loaded
    refine ⟨fun p mem => ?_, fun object mem => ?_, List.forall_mem_nil _, List.forall_mem_nil _⟩
    · obtain ⟨_, _, read⟩ := mappedOrigin named mem
      exact predicateRead read
    · obtain ⟨_, _, read⟩ := mappedOrigin mapped mem
      exact compactRead read
  · simp only [longEntry, boundOk] at loaded
    obtain ⟨_, _, predicates, named, _, _, objects, mapped, loaded⟩ := loaded
    obtain ⟨_, loaded⟩ := passedOk.mp loaded
    simp only [boundOk, pureOk] at loaded
    obtain ⟨inverse, inverses, graphs, levels, _, _, _, _, rfl⟩ := loaded
    refine ⟨fun p mem => ?_, fun object mem => ?_, templatesRead inverses, templatesRead levels⟩
    · obtain ⟨_, _, read⟩ := mappedOrigin named mem
      obtain ⟨_, _, read⟩ := boundOk.mp read
      exact predicateRead read
    · obtain ⟨_, _, read⟩ := mappedOrigin mapped mem
      exact objectRead read
  · contradiction

theorem inverseListed {entry : Entry} {i : Nat} {t : Template} (given : entry.inverseAt i = some t) :
    t ∈ entry.inverse := by
  unfold Entry.inverseAt at given
  split at given
  · contradiction
  · rename_i only
    rw [only]
    simpa using given.symm
  · exact List.mem_of_getElem? given

theorem predicateTemplates (predicate : Predicate) (object : EntryObject) :
    (object.forPredicate predicate).templates = object.templates := by
  cases object <;> rfl

theorem pairRead {entry : Entry} (read : entry.Read context) {predicate : Predicate}
    (named : predicate ∈ entry.predicates) {object : EntryObject} (listed : object ∈ entry.objects) {i : Nat}
    {po : PredicateObject} (paired : entry.pair owner predicate (entry.inverseAt i) object = .ok po) :
    ∀ t ∈ po.templates, context.Reads t := by
  unfold Entry.pair at paired
  dsimp only at paired
  split at paired
  · contradiction
  · cases Except.ok.inj paired
    simp only [PredicateObject.templates, predicateTemplates, List.forall_mem_cons, List.mem_append,
      Option.mem_toList, or_imp, forall_and]
    exact ⟨read.predicates _ named, ⟨read.objects object listed,
      fun t inverted => read.inverse t (inverseListed inverted)⟩, read.graphs⟩

theorem predicateObjectsRead {pos : List PredicateObject} (loaded : parsePredicateObjects context s = .ok pos) :
    ∀ po ∈ pos, ∀ t ∈ po.templates, context.Reads t := by
  intro po mem
  obtain ⟨_, entry, parsed, _, named, object, listed, _, paired⟩ := pairOrigin loaded mem
  exact pairRead (entryTemplates parsed) named listed paired

def SubjectsRead (context : Context) (spec : SubjectSpec) : Prop :=
  (∀ t ∈ spec.templates, context.Reads t) ∧ ∀ t ∈ spec.graphs, context.Reads t

theorem subjectTemplate {spec : SubjectSpec} {text : String} {t : Template} (before : SubjectsRead context spec)
    (read : context.template text = .ok t) :
    SubjectsRead context { spec with templates := spec.templates ++ [t] } := by
  refine ⟨?_, before.2⟩
  simpa [or_imp, forall_and] using ⟨before.1, Context.Reads.written read⟩

theorem quotedRead {before after : SubjectSpec} {q : QuotedRef} (read : SubjectsRead context before)
    (set : setQuoted owner before q = .ok after) : SubjectsRead context after := by
  obtain ⟨_, rfl⟩ := setOk.mp set
  exact read

theorem subjectEntryRead {before after : SubjectSpec} (read : SubjectsRead context before)
    (added : subjectEntry context s before = .ok after) : SubjectsRead context after := by
  obtain ⟨graphs, extended, levels, rfl, cases⟩ := entryAdds added
  have kept : SubjectsRead context { before with graphs := before.graphs ++ graphs } :=
    ⟨read.1, List.forall_mem_append.mpr ⟨read.2, templatesRead levels⟩⟩
  rcases cases with rfl | ⟨_, template, given, rfl⟩ | ⟨_, _, rfl⟩ | ⟨q, _, set⟩
  · exact kept
  · exact subjectTemplate kept given
  · exact kept
  · exact quotedRead kept set

theorem subjectItemRead {before after : SubjectSpec} {item : Json} (read : SubjectsRead context before)
    (added : addSubject context owner before item = .ok after) : SubjectsRead context after := by
  unfold addSubject at added
  split at added
  · exact subjectEntryRead read added
  · simp only [boundOk, pureOk] at added
    obtain ⟨_, _, template, given, rfl⟩ := added
    exact subjectTemplate read given

theorem subjectsRead {spec : SubjectSpec} (loaded : parseSubjects context s = .ok spec) :
    SubjectsRead context spec := by
  obtain ⟨_, _, folded, _⟩ := subjectsOk.mp loaded
  refine foldedKeeps folded (P := SubjectsRead context) ?_ fun _ _ _ _ => subjectItemRead
  exact ⟨List.forall_mem_nil _, List.forall_mem_nil _⟩

theorem mapTemplates {name : String} {value : Json} {m : TriplesMap}
    (loaded : parseMapping context name value = .ok m) : ∀ t ∈ m.templates, context.Reads t := by
  simp only [parseMapping, boundOk] at loaded
  obtain ⟨s, _, written, _, loaded⟩ := loaded
  cases written with
  | none => cases loaded
  | some written =>
    simp only [boundOk, pureOk] at loaded
    obtain ⟨_, _, subject, subjects, _, _, graphs, levels, _, _, _, _, pos, entries, rfl⟩ := loaded
    obtain ⟨templates, subjectGraphs⟩ := subjectsRead subjects
    simp only [TriplesMap.templates, List.forall_mem_append, List.forall_mem_flatMap]
    exact ⟨⟨⟨templates, subjectGraphs⟩, templatesRead levels⟩, predicateObjectsRead entries⟩

theorem builtTemplates {options : BuildOptions} {document : Json} {spec : Specification}
    (built : build options document = .ok spec) : ∃ context : Context, context.external = spec.external ∧
      ∀ m ∈ spec.maps, ∀ t ∈ m.templates, context.Reads t := by
  obtain ⟨_, _, reading⟩ := contextReading built
  refine ⟨contextOf spec, rfl, fun m mem => ?_⟩
  obtain ⟨_, _, loaded⟩ := mappedOrigin reading.maps mem
  exact mapTemplates loaded

end TabularRdf.Document

import TabularRdf.Proofs.BuiltMaps
import TabularRdf.Proofs.WellFormedTerms

/-! What keeps a map from being compiled. A template without placeholders stands for the same IRI in all rows,
and an empty one stands for none; a literal that is the same in all rows needs a language that is not empty.
Everything else is left to the rows. -/
namespace TabularRdf.Mapping
open Rdf

def Template.isBlank (t : Template) : Bool := t.constant? = some ""

def emptyIri (t : Template) : MappingError := .invalidTemplate t.source (.failure (.invalid .emptyIri))

def emptyIris (templates : List Template) : List MappingError :=
  (templates.filter Template.isBlank).map emptyIri

def emptyTags (template : Template) (language : Option Template) : List MappingError :=
  if template.isConstant ∧ language.any Template.isBlank then
    [.invalidTemplate template.source (.failure (.invalid .emptyLanguage))]
  else []

def ObjectTerm.faults (t : ObjectTerm) : List MappingError :=
  emptyIris t.datatype.toList ++
    match t.kind with
    | .iri => emptyIris [t.template]
    | .literal => emptyTags t.template t.language

def ObjectSpec.faults : ObjectSpec → List MappingError
  | .term t => t.faults
  | .reference _ | .quoted _ | .function _ => []

def PredicateObject.faults (po : PredicateObject) : List MappingError :=
  po.object.faults ++ emptyIris (po.predicate :: po.inverse.toList ++ po.graphs)

def TriplesMap.faults (m : TriplesMap) : List MappingError :=
  emptyIris m.subject.templates ++ m.predicateObjects.flatMap PredicateObject.faults ++
    emptyIris (m.subject.graphs ++ m.graphs)

theorem Template.constantWhole (t : Template) : t.constant?.isSome = t.isConstant := by
  unfold constant?
  split <;> simp [*]

theorem emptyIrisAppend (left right : List Template) :
    emptyIris (left ++ right) = emptyIris left ++ emptyIris right := by
  simp [emptyIris]

theorem emptyInvalid {templates : List Template} {e : MappingError} (listed : e ∈ emptyIris templates) :
    ∃ template problem, e = .invalidTemplate template problem := by
  obtain ⟨t, _, rfl⟩ := List.mem_map.mp listed
  exact ⟨_, _, rfl⟩

theorem tagInvalid {template : Template} {language : Option Template} {e : MappingError}
    (listed : e ∈ emptyTags template language) : ∃ template problem, e = .invalidTemplate template problem := by
  unfold emptyTags at listed
  split at listed
  · exact ⟨_, _, List.mem_singleton.mp listed⟩
  · contradiction

theorem termInvalid {t : ObjectTerm} {e : MappingError} (listed : e ∈ t.faults) :
    ∃ template problem, e = .invalidTemplate template problem := by
  rcases List.mem_append.mp listed with datatype | value
  · exact emptyInvalid datatype
  · split at value
    · exact emptyInvalid value
    · exact tagInvalid value

theorem faultInvalid {m : TriplesMap} {e : MappingError} (listed : e ∈ m.faults) :
    ∃ template problem, e = .invalidTemplate template problem := by
  rcases List.mem_append.mp listed with before | graphs
  · rcases List.mem_append.mp before with subject | entry
    · exact emptyInvalid subject
    · obtain ⟨po, _, fault⟩ := List.mem_flatMap.mp entry
      rcases List.mem_append.mp fault with object | iris
      · cases kind : po.object <;> rw [kind] at object
        · exact termInvalid object
        all_goals contradiction
      · exact emptyInvalid iris
  · exact emptyInvalid graphs

end TabularRdf.Mapping

namespace TabularRdf.Generation
open Iri Mapping Rdf Loading

variable {resolver : Resolver}

theorem firstEmpty (template : Template) :
    (emptyIris [template]).head? = if template.isBlank then some (emptyIri template) else none := by
  by_cases blank : template.isBlank <;> simp [emptyIris, blank]

theorem expandedFailure {template : Template} {text : String} (constant : template.constant? = some text) :
    errorOf (inTemplate template (resolver.expand text)) = (emptyIris [template]).head? := by
  rw [firstEmpty, Template.isBlank, constant, Resolver.expand]
  by_cases empty : text = ""
  · simp only [empty]
    rfl
  · have filled : text.isEmpty = false := by simpa using empty
    simp [empty, filled, inTemplate, Except.mapError, errorOf]

theorem iriFailure (template : Template) :
    errorOf (CompiledTerm.iri template resolver) = (emptyIris [template]).head? := by
  unfold CompiledTerm.iri
  split
  · rename_i text constant
    exact failureFinished.trans (expandedFailure constant)
  · rename_i varies
    rw [firstEmpty, Template.isBlank, varies]
    split <;> rfl

theorem irisFailure (templates : List Template) :
    errorOf (compileIris templates resolver) = (emptyIris templates).head? :=
  failureFiltered fun t => (iriFailure t).trans (firstEmpty t)

theorem optionFailure (template : Option Template) :
    errorOf (template.mapM fun t => CompiledTerm.iri t resolver) = (emptyIris template.toList).head? := by
  cases template with
  | none => rfl
  | some t => exact failureFinished.trans (iriFailure t)

theorem datatypeFailure (datatype : Option Template) :
    errorOf (Qualifier.datatype? resolver datatype) = (emptyIris datatype.toList).head? := by
  cases datatype with
  | none => rfl
  | some t =>
    refine failureFinished.trans ?_
    unfold Qualifier.ofDatatype
    split
    · rename_i text constant
      exact failureFinished.trans (expandedFailure constant)
    · rename_i varies
      rw [Option.toList_some, firstEmpty, Template.isBlank, varies]
      rfl

theorem untaggedFailure {template : Template} {datatype : Option Template} :
    errorOf (CompiledTerm.literal template datatype none resolver) = (emptyIris datatype.toList).head? := by
  rw [CompiledTerm.literal, ← List.append_nil (emptyIris datatype.toList)]
  refine failureBound (datatypeFailure datatype) fun given _ => ?_
  obtain ⟨qualifier, columns⟩ := given
  dsimp only
  split
  · rename_i value type tag constant fixed untagged
    cases Option.some.inj untagged
    cases type <;> rfl
  · rfl

theorem tagFailure (template : Template) (value text : String) :
    errorOf (inTemplate template (makeLiteral value none (some text))) = if text = "" then
      some (.invalidTemplate template.source (.failure (.invalid .emptyLanguage))) else none := by
  by_cases empty : text = ""
  · simp only [empty]
    rfl
  · simp [empty, makeLiteral, Literal.make, inTemplate, Except.mapError, errorOf]

theorem taggedFailure {template language : Template} :
    errorOf (CompiledTerm.literal template none (some language) resolver) =
      (emptyTags template (some language)).head? := by
  rw [emptyTags, ← Template.constantWhole, Option.any_some, Template.isBlank]
  simp only [CompiledTerm.literal, Qualifier.datatype?, Qualifier.language?, Qualifier.ofLanguage]
  cases template.constant? with
  | none => rfl
  | some value =>
    cases language.constant? with
    | none => rfl
    | some text =>
      refine (failureFinished.trans (tagFailure template value text)).trans ?_
      by_cases empty : text = "" <;> simp [empty]

theorem literalFailure {template : Template} {datatype language : Option Template}
    (one : datatype = none ∨ language = none) :
    errorOf (CompiledTerm.literal template datatype language resolver) =
      (emptyIris datatype.toList ++ emptyTags template language).head? := by
  have untagged : emptyTags template none = [] := by simp [emptyTags]
  cases language with
  | none => rw [untagged, List.append_nil, untaggedFailure]
  | some language =>
    cases one.resolve_right (by simp)
    exact taggedFailure

theorem objectFailure {object : ObjectSpec} (formed : object.Formed) :
    errorOf (CompiledObject.compile object resolver) = object.faults.head? := by
  cases object with
  | term t =>
    refine failureFinished.trans ?_
    obtain ⟨one, iri⟩ := formed
    rw [CompiledTerm.object, ObjectSpec.faults, ObjectTerm.faults]
    cases kind : t.kind with
    | iri =>
      rw [(iri (congrArg some kind)).1]
      exact iriFailure t.template
    | literal => exact literalFailure one
  | reference | quoted | function => rfl

theorem entryFailure {po : PredicateObject} (formed : po.Formed) :
    errorOf (CompiledEntry.compile resolver po) = po.faults.head? := by
  have split : emptyIris (po.predicate :: po.inverse.toList ++ po.graphs) =
      emptyIris [po.predicate] ++ (emptyIris po.inverse.toList ++ emptyIris po.graphs) := by
    rw [← emptyIrisAppend, ← emptyIrisAppend]
    rfl
  rw [PredicateObject.faults, split]
  refine failureBound (objectFailure formed.object) fun _ _ => ?_
  refine failureBound (iriFailure po.predicate) fun _ _ => ?_
  refine failureBound (optionFailure po.inverse) fun _ _ => ?_
  exact failureFinished.trans (irisFailure po.graphs)

theorem subjectsFailure {subject : SubjectSpec} (formed : subject.Formed) :
    errorOf (CompiledSubjects.compile subject resolver) = (emptyIris subject.templates).head? := by
  unfold CompiledSubjects.compile
  split
  · rename_i q quoted
    rw [formed.apart (by simp [quoted])]
    rfl
  · exact failureFinished.trans (irisFailure subject.templates)

theorem compileFailure {m : TriplesMap} (formed : m.Formed) :
    errorOf (CompiledMap.compile m resolver) = m.faults.head? := by
  rw [TriplesMap.faults, emptyIrisAppend, List.append_assoc]
  refine failureBound (subjectsFailure formed.subject) fun _ _ => ?_
  refine failureBound (failureMapped fun po mem => entryFailure (formed.predicateObjects po mem)) fun _ _ => ?_
  refine failureBound (irisFailure m.subject.graphs) fun _ _ => ?_
  exact failureFinished.trans (irisFailure m.graphs)

end TabularRdf.Generation

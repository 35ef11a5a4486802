import TabularRdf.Mapping.Specification

/-!
Reading the templates of a specification again from their sources, which is what remains of them when a
specification is stored.
-/
namespace TabularRdf.Mapping

def Template.reload (t : Template) : Except MappingError Template := Template.parse t.source

def ObjectTerm.reload (t : ObjectTerm) : Except MappingError ObjectTerm := do
  let template ← t.template.reload
  let datatype ← t.datatype.mapM Template.reload
  let language ← t.language.mapM Template.reload
  return { t with template, datatype, language }

def ObjectSpec.reload : ObjectSpec → Except MappingError ObjectSpec
  | .term t => t.reload.map .term
  | other => .ok other

def PredicateObject.reload (po : PredicateObject) : Except MappingError PredicateObject := do
  let predicate ← po.predicate.reload
  let object ← po.object.reload
  let inverse ← po.inverse.mapM Template.reload
  let graphs ← po.graphs.mapM Template.reload
  return { po with predicate, object, inverse, graphs }

def SubjectSpec.reload (s : SubjectSpec) : Except MappingError SubjectSpec := do
  let templates ← s.templates.mapM Template.reload
  let graphs ← s.graphs.mapM Template.reload
  return { s with templates, graphs }

def TriplesMap.reload (m : TriplesMap) : Except MappingError TriplesMap := do
  let subject ← m.subject.reload
  let predicateObjects ← m.predicateObjects.mapM PredicateObject.reload
  let graphs ← m.graphs.mapM Template.reload
  return { m with subject, predicateObjects, graphs }

def Specification.reload (s : Specification) : Except MappingError Specification := do
  let maps ← s.maps.mapM TriplesMap.reload
  return { s with maps }

end TabularRdf.Mapping

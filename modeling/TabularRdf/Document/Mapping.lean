import TabularRdf.Document.PredicateObject
import TabularRdf.Document.Source
import TabularRdf.Document.Subject

/-!
One mapping of a document, read into a triples map.
-/
namespace TabularRdf.Document

open Mapping (MappingError Target TriplesMap)

def targetsUnder (context : Context) (s : Section) : Except MappingError (List Target) := do
  match ← s.get? .targets with
  | some value => mappingTargets s.owner value context.targets
  | none => return []

def parseMapping (context : Context) (name : String) (value : Json) :
    Except MappingError TriplesMap := do
  let s ← Section.ofValue name "mapping" value
  let some written ← s.get? .sources | throw (.validation name .noSource)
  let sources ← mappingSources name written context.sources
  let subject ← parseSubjects context s
  let targets ← targetsUnder context s
  let graphs ← context.templatesUnder s .graphs
  let condition ← (← s.get? .condition).mapM (conditionOf name)
  let predicateObjects ← parsePredicateObjects context s
  return { name, sources, targets, subject, predicateObjects, graphs, condition }

end TabularRdf.Document

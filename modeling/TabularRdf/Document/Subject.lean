import TabularRdf.Document.Reference
import TabularRdf.Mapping.TriplesMap

/-!
The subjects of a mapping: templates, functions, or one quoted reference, each perhaps with graphs.
Templates and a quoted reference exclude each other. An entry of graphs alone sets the graphs of the
other subjects.
-/
namespace TabularRdf.Document

open Mapping (InlineCall Keyword MappingError QuotedRef SubjectSpec)

def SubjectSpec.empty : SubjectSpec := ⟨[], none, [], []⟩

def setQuoted (owner : String) (spec : SubjectSpec) (quoted : QuotedRef) :
    Except MappingError SubjectSpec :=
  if spec.quoted.isSome then .error (.validation owner .secondQuotedSubject)
  else .ok { spec with quoted := some quoted }

def joinOf (function : Option Json) : Option InlineCall :=
  ((function.bind Json.str?).bind InlineCall.parse).filter fun call => call.name = "join"

def addGraphs (context : Context) (s : Section) (spec : SubjectSpec) :
    Except MappingError SubjectSpec := do
  let graphs ← context.templatesUnder s .graphs
  return { spec with graphs := spec.graphs ++ graphs }

def subjectEntry (context : Context) (s : Section) (spec : SubjectSpec) :
    Except MappingError SubjectSpec := do
  let spec ← addGraphs context s spec
  match ← s.exclusive [.value, .quoted, .quotedNonAsserted, .function] with
  | none =>
    if spec.graphs.isEmpty then throw (.validation s.owner .emptySubjectEntry)
    return spec
  | some keyword =>
    if keyword = .value then
      match ← s.text? .value with
      | some text =>
        let template ← context.template text
        return { spec with templates := spec.templates ++ [template] }
      | none => return spec
    else if keyword = .function then
      let function ← s.get? .function
      match joinOf function with
      | some call =>
        let quoted ← joinCall s.owner call
        setQuoted s.owner spec quoted
      | none =>
        let expression ← functionOf s.owner s.fields
        return { spec with functions := spec.functions ++ [expression] }
    else
      match ← quotedRef context s with
      | some quoted => setQuoted s.owner spec quoted
      | none => return spec

def addSubject (context : Context) (owner : String) (spec : SubjectSpec) :
    Json → Except MappingError SubjectSpec
  | .obj fields => subjectEntry context ⟨owner, fields⟩ spec
  | value => do
    let text ← scalarOr owner .subjectNotAString value
    let template ← context.template text
    return { spec with templates := spec.templates ++ [template] }

def parseSubjects (context : Context) (s : Section) : Except MappingError SubjectSpec := do
  let some value ← s.get? .subjects | throw (.validation s.owner .noSubject)
  let spec ← (itemsOf value).foldlM (addSubject context s.owner) SubjectSpec.empty
  if spec.quoted.isSome && !spec.templates.isEmpty then
    throw (.validation s.owner .quotedWithTemplates)
  if spec.quoted.isNone && spec.templates.isEmpty && spec.functions.isEmpty then
    throw (.validation s.owner .noSubject)
  return spec

end TabularRdf.Document

import TabularRdf.Document.Shortcut

/-!
Sources and targets of a document, declared by name at the top or written inside a mapping. A text
in a mapping names a declared source, or else is an inline one.
-/
namespace TabularRdf.Document

open Mapping (Keyword MappingError Source SourceFormat Target)

def sourceKeywords : List Keyword :=
  [.access, .referenceFormulation, .iterator, .query, .delimiter]

def longSource (s : Section) : Except MappingError Source := do
  let some written ← s.text? .access | throw (.validation s.owner .sourceWithoutAccess)
  let (access, tag) := splitTag written
  let format ← match ← s.text? .referenceFormulation with
    | some formulation => pure (SourceFormat.ofTag formulation)
    | none => pure (formatOf access tag)
  let iterator ← s.text? .iterator
  let query ← s.text? .query
  let delimiter ← s.text? .delimiter
  return {
    name := none
    access, format, iterator, query, delimiter
    options := (s.otherFields sourceKeywords).filterMap fun (key, value) =>
      (scalarText? value).map (key, ·) }

def sourceOf (owner : String) : Json → Except MappingError Source
  | .obj fields => longSource ⟨owner, fields⟩
  | .arr items => sourceShortcut owner (.arr items)
  | .str text => sourceShortcut owner (.str text)
  | _ => .error (.validation owner .sourceForm)

def longTarget (s : Section) : Except MappingError Target := do
  let some written ← s.text? .access | throw (.validation s.owner .targetWithoutAccess)
  let (access, tag) := splitTag written
  let type ← s.text? .type
  let serialization ← s.text? .serialization
  let compression ← s.text? .compression
  return {
    name := none
    access
    targetType := type.or tag
    serialization, compression }

def targetOf (owner : String) : Json → Except MappingError Target
  | .obj fields => longTarget ⟨owner, fields⟩
  | .arr items => targetShortcut owner (.arr items)
  | .str text => targetShortcut owner (.str text)
  | _ => .error (.validation owner .targetForm)

def sourceItem (owner : String) (named : Named Source) : Json → Except MappingError Source
  | .str text =>
    match named.lookup text with
    | some source => .ok source
    | none =>
      if isInline text then sourceShortcut owner (.str text)
      else .error (.unknownSource owner text)
  | value => sourceOf owner value

def mappingSources (owner : String) (value : Json) (named : Named Source) :
    Except MappingError (List Source) := do
  let items := match value with
    | .arr items => if isSourceShortcut items then [value] else items
    | value => itemsOf value
  let sources ← items.mapM (sourceItem owner named)
  if sources.isEmpty then throw (.validation owner .noSource)
  return sources

def targetItem (owner : String) (named : Named Target) : Json → Except MappingError Target
  | .str text =>
    match named.lookup text with
    | some target => .ok target
    | none =>
      if isInline text then targetShortcut owner (.str text)
      else .error (.unknownTarget owner text)
  | value => targetOf owner value

def isTargetShortcut : Json → Bool
  | .arr (.str first :: second :: rest) =>
    isInline first && (second :: rest).all fun v =>
      match v with
      | .str text => !isInline text
      | _ => false
  | _ => false

def mappingTargets (owner : String) (value : Json) (named : Named Target) :
    Except MappingError (List Target) :=
  if isTargetShortcut value then (targetShortcut owner value).map ([·])
  else (itemsOf value).mapM (targetItem owner named)

end TabularRdf.Document

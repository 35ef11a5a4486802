import TabularRdf.Document.Mapping
import TabularRdf.Json.Reader
import TabularRdf.Mapping.Specification

/-!
A whole document, read into a specification. Every shortcut is resolved here, and every reference between
mappings is checked, before anything runs. A map may refer only to a mapping whose subjects are its own,
and without a condition only to one that reads the same rows.
-/
namespace TabularRdf.Document

open Mapping (Author Keyword MappingError Problem Specification Source Target TriplesMap)

structure BuildOptions where
  standardPrefixes : Bool
  deriving DecidableEq, Repr

def BuildOptions.default : BuildOptions := ⟨true⟩

def documentOwner : String := "<document>"

def textTable (root : Section) (keyword : Keyword) (what : String) :
    Except MappingError (Named String) := do
  match ← root.get? keyword with
  | none => return []
  | some (.obj fields) =>
    fields.mapM fun (name, value) =>
      match scalarText? value with
      | some text => .ok (name, text)
      | none => .error (.document (.entryNotAString what name))
  | some _ => throw (.document (.tableOfValues keyword.canonical))

def descriptorTable {α : Type} (root : Section) (keyword : Keyword)
    (read : String → Json → Except MappingError α) : Except MappingError (Named α) := do
  match ← root.get? keyword with
  | none => return []
  | some (.obj fields) =>
    fields.mapM fun (name, value) => do
      let descriptor ← read name value
      return (name, descriptor)
  | some _ => throw (.document (.tableOfDescriptors keyword.canonical))

def authorOf : Json → Except MappingError Author
  | .str text =>
    match Author.parseShortcut text with
    | some author => .ok author
    | none => .error (.validation documentOwner (.unrecognizedAuthor text))
  | .obj fields => do
    let s : Section := ⟨documentOwner, fields⟩
    let name ← s.text? .name
    let email ← s.text? .email
    let website ← s.text? .website
    let webId ← s.text? .webId
    let author : Author := ⟨name, email, website, webId⟩
    if author.isEmpty then throw (.validation documentOwner .emptyAuthor)
    return author
  | _ => .error (.validation documentOwner .authorForm)

def parseAuthors (root : Section) : Except MappingError (List Author) := do
  match ← root.get? .authors with
  | none => return []
  | some value => (itemsOf value).mapM authorOf

def namedSource (name : String) (value : Json) : Except MappingError Source :=
  (sourceOf name value).map fun source => { source with name := some name }

def namedTarget (name : String) (value : Json) : Except MappingError Target :=
  (targetOf name value).map fun target => { target with name := some name }

def checkKnown (names : List String) (map : TriplesMap) : Except MappingError Unit :=
  map.predicateObjects.forM fun po =>
    match po.object.reference? with
    | none => .ok ()
    | some reference =>
      if reference.mapping ∈ names then .ok ()
      else .error (.unknownMapping map.name reference.mapping)

def checkReference (map : TriplesMap) (other : TriplesMap) (hasCondition : Bool)
    (nested unshared : String → Problem) : Except MappingError Unit :=
  if other.hasQuotedSubject then .error (.validation map.name (nested other.name))
  else if !hasCondition && !map.sharesSources other then
    .error (.validation map.name (unshared other.name))
  else .ok ()

def checkReferences (spec : Specification) (map : TriplesMap) : Except MappingError Unit := do
  map.quotedRefs.forM fun quoted =>
    match spec.get? quoted.mapping with
    | none => .ok ()
    | some other =>
      checkReference map other quoted.condition.isSome .quotesQuoting .quotesOtherSources
  map.predicateObjects.forM fun po =>
    match po.object.reference? with
    | none => .ok ()
    | some reference =>
      match spec.get? reference.mapping with
      | none => .ok ()
      | some other =>
        checkReference map other reference.condition.isSome .refersToQuoting .refersToOtherSources

def prefixesOf (options : BuildOptions) (root : Section) : Except MappingError (Named String) := do
  let declared ← textTable root .prefixes "prefix"
  if options.standardPrefixes then
    return Rdf.Vocabulary.standard.foldl
      (fun table (name, iri) => table.setDefault name iri) declared
  return declared

def mappingsOf (root : Section) : Except MappingError Json.Fields := do
  match ← root.get? .mappings with
  | none => throw (.document .noMappings)
  | some (.obj fields) => return fields
  | some _ => throw (.document .mappingsForm)

def build (options : BuildOptions) (document : Json) : Except MappingError Specification := do
  let some fields := document.obj? | throw (.document .topLevel)
  let root : Section := ⟨documentOwner, fields⟩
  let prefixes ← prefixesOf options root
  let base ← root.text? .base
  let external ← textTable root .external "external value"
  let authors ← parseAuthors root
  let sources ← descriptorTable root .sources namedSource
  let targets ← descriptorTable root .targets namedTarget
  let context : Context := ⟨sources, targets, external, ⟨prefixes, base, .percent⟩⟩
  let mappings ← mappingsOf root
  let maps ← mappings.mapM fun (name, value) => parseMapping context name value
  maps.forM (checkKnown (maps.map TriplesMap.name))
  let spec ← Specification.make maps prefixes sources targets
  let spec := { spec with base, authors, external }
  spec.maps.forM (checkReferences spec)
  return spec

def buildText (options : BuildOptions) (text : String) : Except MappingError Specification :=
  match Json.read? text with
  | some document => build options document
  | none => .error (.document .undecodable)

end TabularRdf.Document

import TabularRdf.Document.Section
import TabularRdf.Mapping.Source

/-!
The short forms of a document: `access~format` for a source or a target, and `[predicates, objects,
modifier]` for an entry of predicates and objects. A tag stands behind the last tilde of a text,
when both parts have characters.
-/
namespace TabularRdf.Document

open Mapping (MappingError Source SourceFormat Target)

def splitTag (text : String) : String × Option String :=
  match Text.splitLast? '~' text.toList with
  | some (access, tag) =>
    if access.isEmpty || tag.isEmpty then (text, none)
    else (String.ofList access, some (String.ofList tag))
  | none => (text, none)

def isInline (text : String) : Bool := (splitTag text).2.isSome

/- Whether a list is one source, `[access~format]` or `[access~format, iterator]`, and not several. -/
def isSourceShortcut : List Json → Bool
  | [.str first] => isInline first
  | [.str first, .str second] => isInline first && !isInline second
  | _ => false

def formatOf (access : String) : Option String → SourceFormat
  | some tag => .ofTag tag
  | none => .infer access

def sourceShortcut (owner : String) (value : Json) : Except MappingError Source := do
  let items := itemsOf value
  if 2 < items.length then throw (.validation owner .longSourceShortcut)
  match items with
  | .str written :: rest =>
    let (access, tag) := splitTag written
    let source := Source.plain access (formatOf access tag)
    match rest with
    | [] => return source
    | iterator :: _ =>
      let iterator ← scalarOr owner .iteratorNotAString iterator
      return { source with iterator := some iterator }
  | _ => throw (.validation owner .sourceShortcutWithoutAccess)

def targetShortcut (owner : String) (value : Json) : Except MappingError Target := do
  let items := itemsOf value
  if items.isEmpty || 3 < items.length then throw (.validation owner .targetShortcutSize)
  let parts ← items.mapM (scalarOr owner .targetShortcutPart)
  let (access, targetType) := splitTag (parts[0]?.getD "")
  return {
    name := none
    access, targetType
    serialization := parts[1]?
    compression := parts[2]? }

inductive Modifier where
  | language (tag : String)
  | iri
  | datatype (datatype : String)
  deriving DecidableEq, Repr

def languageSuffix : List Char := "~lang".toList

def iriSuffix : List Char := "~iri".toList

def Modifier.parse (owner : String) (text : String) : Except MappingError Modifier :=
  let text := Text.trim text.toList
  if text.isEmpty then .error (.validation owner .emptyModifier)
  else match Text.dropTail? languageSuffix text with
    | some tag =>
      if tag.isEmpty then .error (.validation owner .languageWithoutTag)
      else .ok (.language (String.ofList tag))
    | none =>
      if text.head? = some '~' then
        .error (.validation owner (.unknownModifier (String.ofList text)))
      else if (String.ofList text).toLower = "iri" then .ok .iri
      else .ok (.datatype (String.ofList text))

structure ObjectText where
  value : String
  iri : Bool
  deriving DecidableEq, Repr

def ObjectText.parse (owner : String) (text : String) : Except MappingError ObjectText :=
  match Text.dropTail? iriSuffix text.toList with
  | some value => .ok ⟨String.ofList value, true⟩
  | none =>
    if (Text.dropTail? languageSuffix text.toList).isSome then
      .error (.validation owner (.languageOnObject text))
    else .ok ⟨text, false⟩

structure CompactObject where
  text : ObjectText
  modifier : Option Modifier
  deriving DecidableEq, Repr

def modifierOf (owner : String) : Json → Except MappingError Modifier
  | .str text => Modifier.parse owner text
  | _ => .error (.validation owner .modifierNotAString)

def CompactObject.parse (owner : String) : Json → Except MappingError CompactObject
  | .arr [value, modifier] => do
    let value ← scalarOr owner .objectNotAString value
    let written ← match modifier with
      | .str text => pure text
      | _ => throw (.validation owner .modifierNotAString)
    let text ← ObjectText.parse owner value
    let modifier ← Modifier.parse owner written
    return ⟨text, some modifier⟩
  | .arr _ => .error (.validation owner .objectItemForm)
  | value => do
    let value ← scalarOr owner .objectNotAString value
    let text ← ObjectText.parse owner value
    return ⟨text, none⟩

structure CompactEntry where
  predicates : List String
  objects : List CompactObject
  deriving DecidableEq, Repr

def CompactObject.share (owner : String) (shared : Option Modifier) (object : CompactObject) :
    Except MappingError CompactObject :=
  match shared, object.modifier with
  | none, _ => .ok object
  | some shared, none => .ok { object with modifier := some shared }
  | some _, some _ => .error (.validation owner (.twoModifiers object.text.value))

def CompactEntry.parse (owner : String) (items : List Json) : Except MappingError CompactEntry := do
  let (first, second, third) ← match items with
    | [first, second] => pure (first, second, none)
    | [first, second, third] => pure (first, second, some third)
    | _ => throw (.validation owner (.shortcutPositions items.length))
  let predicates ← (itemsOf first).mapM (scalarOr owner .predicateNotAString)
  let shared ← third.mapM (modifierOf owner)
  let objects ← (itemsOf second).mapM fun item => do
    let object ← CompactObject.parse owner item
    object.share owner shared
  if predicates.isEmpty || objects.isEmpty then
    throw (.validation owner .shortcutWithoutParts)
  return { predicates, objects }

end TabularRdf.Document

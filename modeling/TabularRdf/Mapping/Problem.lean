import TabularRdf.Mapping.Expression
import TabularRdf.Rdf.Failure

/-!
What can be wrong with a mapping document, a template, or the set-up of a run. Each cause has its own
constructor; `message` words it.
-/
namespace TabularRdf.Mapping

open Rdf (TermFailure)

inductive TemplateProblem where
  | unterminated
  | emptyPlaceholder
  | failure (failure : TermFailure)
  deriving DecidableEq, Repr

inductive Problem where
  | notAnObject (what : String)
  | ambiguousKeys (first second : String)
  | notAString (key : String)
  | exclusiveKeys (first second : String)
  | duplicateKey (key : DuplicateKey)
  | failure (failure : TermFailure)
  -- authors
  | unrecognizedAuthor (text : String)
  | emptyAuthor
  | authorForm
  -- sources and targets
  | sourceForm
  | sourceWithoutAccess
  | noSource
  | longSourceShortcut
  | sourceShortcutWithoutAccess
  | iteratorNotAString
  | targetForm
  | targetWithoutAccess
  | targetShortcutSize
  | targetShortcutPart
  -- templates, subjects and references
  | templateNotAString
  | noSubject
  | subjectNotAString
  | quotedWithTemplates
  | emptySubjectEntry
  | secondQuotedSubject
  | equalWithoutParameters
  | notEqual (function : String)
  | conditionWithoutFunction
  | filterPredicateNotAString
  | filterGraphNotAString
  | equalParameterForm
  | parameterSide (found : String)
  | parameterWithoutValue
  | sameSide
  | equalNeedsTwo
  | notSingleColumn (value : String)
  | joinWithoutQuoted
  | joinArgument (argument : String)
  | equalCallArguments
  -- predicates and objects
  | emptyModifier
  | languageWithoutTag
  | unknownModifier (text : String)
  | languageOnObject (text : String)
  | objectNotAString
  | modifierNotAString
  | objectItemForm
  | shortcutPositions (found : Nat)
  | predicateNotAString
  | twoModifiers (value : String)
  | shortcutWithoutParts
  | datatypeAndLanguage (template : String)
  | iriWithDatatypeOrLanguage (template : String)
  | inverseCount (inverses predicates : Nat)
  | inverseOfLiteral
  | entriesNotAList
  | entryForm
  | entryWithoutParts
  | mappingWithoutName
  | filterOnReference
  | valueWithoutTemplate
  | objectType (found : String)
  | iriTypedAsLiteral (written : String)
  | quotedWithoutName
  | objectWithoutKind
  -- references between mappings
  | quotesQuoting (reference : String)
  | quotesOtherSources (reference : String)
  | refersToQuoting (reference : String)
  | refersToOtherSources (reference : String)
  deriving DecidableEq, Repr

inductive DocumentProblem where
  | undecodable
  | topLevel
  | noMappings
  | mappingsForm
  | tableOfValues (key : String)
  | entryNotAString (what name : String)
  | tableOfDescriptors (key : String)
  | datasetIri (failure : TermFailure)
  | unplannedMap (name : String)
  | counterBelowZero
  deriving DecidableEq, Repr

inductive MappingError where
  | validation (mapping : String) (problem : Problem)
  | unknownSource (mapping source : String)
  | unknownTarget (mapping target : String)
  | invalidTemplate (template : String) (problem : TemplateProblem)
  | unknownMapping (mapping reference : String)
  | referenceCycle (path : List String)
  | missingTable (mapping sourceKey : String)
  | cancelled
  | document (problem : DocumentProblem)
  deriving DecidableEq, Repr

def TemplateProblem.message : TemplateProblem → String
  | .unterminated => "unterminated placeholder"
  | .emptyPlaceholder => "empty placeholder"
  | .failure reason => reason.message

def Problem.message : Problem → String
  | .notAnObject what => what ++ " must be an object"
  | .ambiguousKeys first second =>
    "ambiguous keys '" ++ first ++ "' and '" ++ second ++ "' name the same field"
  | .notAString key => "'" ++ key ++ "' must be a string"
  | .exclusiveKeys first second => "'" ++ first ++ "' and '" ++ second ++ "' cannot be combined"
  | .duplicateKey key => key.message
  | .failure reason => reason.message
  | .unrecognizedAuthor text => "unrecognized author '" ++ text ++ "'"
  | .emptyAuthor => "empty author entry"
  | .authorForm => "an author must be a string or an object"
  | .sourceForm => "source must be an object, a list or a string"
  | .sourceWithoutAccess => "source has no 'access'"
  | .noSource => "no source"
  | .longSourceShortcut => "source shortcut takes at most an access path and an iterator"
  | .sourceShortcutWithoutAccess => "source shortcut needs an access path"
  | .iteratorNotAString => "source iterator must be a string"
  | .targetForm => "target must be an object, a list or a string"
  | .targetWithoutAccess => "target has no 'access'"
  | .targetShortcutSize =>
    "target shortcut takes an access path, a serialization and a compression"
  | .targetShortcutPart => "target shortcut parts must be strings"
  | .templateNotAString => "expected a template string"
  | .noSubject => "no subject"
  | .subjectNotAString => "subject must be a string"
  | .quotedWithTemplates => "a quoted subject cannot be combined with subject templates"
  | .emptySubjectEntry => "subject entry needs a value, a quoted reference or a function"
  | .secondQuotedSubject => "only one quoted reference is allowed as subject"
  | .equalWithoutParameters => "'equal' condition has no parameters"
  | .notEqual function => "join conditions must use 'equal', found '" ++ function ++ "'"
  | .conditionWithoutFunction => "condition has no function"
  | .filterPredicateNotAString => "filter predicates must be strings"
  | .filterGraphNotAString => "filter graphs must be strings"
  | .equalParameterForm => "'equal' parameters must be lists or objects"
  | .parameterSide found => "parameter side must be 's' or 'o', found '" ++ found ++ "'"
  | .parameterWithoutValue => "'equal' parameter has no value"
  | .sameSide => "both parameters of 'equal' are on the same side"
  | .equalNeedsTwo => "'equal' needs two parameters"
  | .notSingleColumn value =>
    "join parameter '" ++ value ++ "' must be a single $(column) reference"
  | .joinWithoutQuoted => "join() needs exactly one of 'quoted' or 'quotedNonAsserted'"
  | .joinArgument argument => "unsupported join argument '" ++ argument ++ "'"
  | .equalCallArguments => "equal() needs 'str1' and 'str2'"
  | .emptyModifier => "empty datatype or language modifier"
  | .languageWithoutTag => "'~lang' needs a language tag"
  | .unknownModifier text =>
    "modifier '" ++ text ++ "' is neither a datatype nor '<tag>~lang'"
  | .languageOnObject text => "'" ++ text ++ "': '~lang' belongs on the modifier, not the object"
  | .objectNotAString => "object must be a string"
  | .modifierNotAString => "modifier must be a string"
  | .objectItemForm => "an object list item must be a value or a [value, modifier] pair"
  | .shortcutPositions found =>
    "predicate-object shortcut needs 2 or 3 positions, found " ++ toString found
  | .predicateNotAString => "predicates must be strings"
  | .twoModifiers value =>
    "object '" ++ value ++ "' has its own modifier and the entry has another"
  | .shortcutWithoutParts => "predicate-object shortcut has no predicate or no object"
  | .datatypeAndLanguage template =>
    "object '" ++ template ++ "' has both a datatype and a language"
  | .iriWithDatatypeOrLanguage template =>
    "IRI object '" ++ template ++ "' cannot have a datatype or a language"
  | .inverseCount inverses predicates =>
    toString inverses ++ " inverse predicates for " ++ toString predicates ++
      " predicates; give one, or one per predicate"
  | .inverseOfLiteral => "an inverse predicate needs an IRI object"
  | .entriesNotAList => "predicateobjects must be a list"
  | .entryForm => "a predicate-object entry must be a list or an object"
  | .entryWithoutParts => "predicate-object entry needs predicates and objects"
  | .mappingWithoutName => "'mapping' needs a name"
  | .filterOnReference => "predicate and graph filters apply to quoted references only"
  | .valueWithoutTemplate => "'value' needs a template"
  | .objectType found => "object type must be 'iri' or 'literal', found '" ++ found ++ "'"
  | .iriTypedAsLiteral written => "'" ++ written ++ "' is marked '~iri' but typed as a literal"
  | .quotedWithoutName => "'quoted' needs a mapping name"
  | .objectWithoutKind =>
    "object needs one of 'value', 'mapping', 'quoted', 'quotedNonAsserted' or 'function'"
  | .quotesQuoting reference =>
    "'" ++ reference ++ "' is itself an annotation mapping; quoted triples nest one level only"
  | .quotesOtherSources reference =>
    "quoting '" ++ reference ++ "' without a condition requires the same sources"
  | .refersToQuoting reference =>
    "'" ++ reference ++ "' has quoted subjects and cannot be referenced with 'mapping'"
  | .refersToOtherSources reference =>
    "referencing '" ++ reference ++ "' without a condition requires the same sources"

def DocumentProblem.message : DocumentProblem → String
  | .undecodable => "the text is not JSON"
  | .topLevel => "the top level must be a key-value mapping"
  | .noMappings => "no 'mappings' section"
  | .mappingsForm => "'mappings' must map names to mappings"
  | .tableOfValues key => "'" ++ key ++ "' must map names to values"
  | .entryNotAString what name => what ++ " '" ++ name ++ "' must be a string"
  | .tableOfDescriptors key => "'" ++ key ++ "' must map names to descriptors"
  | .datasetIri failure => "dataset IRI: " ++ failure.message
  | .unplannedMap name => "unplanned map '" ++ name ++ "'"
  | .counterBelowZero => "a map has more placed dependencies than dependencies"

namespace MappingError

def message : MappingError → String
  | .validation mapping problem => "Invalid mapping '" ++ mapping ++ "': " ++ problem.message
  | .unknownSource mapping source =>
    "Mapping '" ++ mapping ++ "' references unknown source '" ++ source ++ "'"
  | .unknownTarget mapping target =>
    "Mapping '" ++ mapping ++ "' references unknown target '" ++ target ++ "'"
  | .invalidTemplate template problem =>
    "Invalid template '" ++ template ++ "': " ++ problem.message
  | .unknownMapping mapping reference =>
    "Mapping '" ++ mapping ++ "' references unknown mapping '" ++ reference ++ "'"
  | .referenceCycle path =>
    "Quoted mapping references form a cycle: " ++ " -> ".intercalate path
  | .missingTable mapping sourceKey =>
    "No table provided for source '" ++ sourceKey ++ "' of mapping '" ++ mapping ++ "'"
  | .cancelled => "Generation cancelled"
  | .document problem => "Invalid mapping document: " ++ problem.message

def isValidation : MappingError → Bool
  | .validation .. | .invalidTemplate .. | .unknownMapping .. | .referenceCycle _ | .document _ => true
  | .unknownSource .. | .unknownTarget .. | .missingTable .. | .cancelled => false

end MappingError

end TabularRdf.Mapping

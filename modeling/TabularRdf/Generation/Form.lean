import TabularRdf.Document.Build
import TabularRdf.Generation.Diagnostic
import TabularRdf.Generation.Options
import TabularRdf.Json.Record
import TabularRdf.Mapping.Form

/-!
The JSON forms of options and diagnostics. Options that are left out take their defaults; a value of the
wrong type is refused, and so is a null for anything that is not optional.
-/
namespace TabularRdf

namespace Generation

open Mapping (ExpressionKind)

def DatasetMetadata.toJson (d : DatasetMetadata) : Json :=
  .obj [("iri", .str d.iri), ("title", Json.ofOption d.title)]

def DatasetMetadata.ofJson? (value : Json) : Option DatasetMetadata := do
  let fields ← value.fullRecord? ["iri", "title"]
  let iri ← (← fields.lookup "iri").str?
  let title ← Json.fieldOr? fields "title" none Json.optionalText?
  some ⟨iri, title⟩

def optionalDataset? : Json → Option (Option DatasetMetadata)
  | .null => some none
  | value => (DatasetMetadata.ofJson? value).map some

def GenerationOptions.toJson (o : GenerationOptions) : Json :=
  .obj [("iri_encoding", .str o.encoding.tag), ("parallel", .bool o.parallel),
    ("max_recorded_diagnostics", Json.ofNat o.maxRecorded),
    ("dataset_metadata", Mapping.optional DatasetMetadata.toJson o.dataset)]

def GenerationOptions.ofJson? (value : Json) : Option GenerationOptions := do
  let fields ← value.record?
    ["iri_encoding", "parallel", "max_recorded_diagnostics", "dataset_metadata"]
  let default := GenerationOptions.default
  let encoding ← Json.fieldOr? fields "iri_encoding" default.encoding
    fun v => v.tag?.bind Iri.Encoding.ofTag?
  let parallel ← Json.fieldOr? fields "parallel" default.parallel Json.bool?
  let maxRecorded ← Json.fieldOr? fields "max_recorded_diagnostics" default.maxRecorded Json.nat?
  let dataset ← Json.fieldOr? fields "dataset_metadata" default.dataset optionalDataset?
  some { encoding, parallel, maxRecorded, dataset }

def DiagnosticKind.toJson : DiagnosticKind → Json
  | .missingColumn column => .obj [("MissingColumn", .obj [("column", .str column)])]
  | .nullValue column => .obj [("NullValue", .obj [("column", .str column)])]
  | .invalidTerm message => .obj [("InvalidTerm", .obj [("message", .str message)])]
  | .joinNoMatch reference => .obj [("JoinNoMatch", .obj [("reference", .str reference)])]
  | .deferredFunction kind => .obj [("DeferredFunction", .obj [("expr", .str kind.tag)])]

def RowDiagnostic.toJson (d : RowDiagnostic) : Json :=
  .obj [("mapping", .str d.mapping), ("row", Mapping.optional Json.ofNat d.row),
    ("kind", d.kind.toJson)]

def detail? (name : String) (value : Json) : Option String := do
  let fields ← value.fullRecord? [name]
  (← fields.lookup name).str?

def expressionKind? (value : Json) : Option ExpressionKind := do
  let fields ← value.fullRecord? ["expr"]
  let tag ← (← fields.lookup "expr").tag?
  [ExpressionKind.function, .condition].find? fun kind => kind.tag = tag

def DiagnosticKind.ofJson? : Json → Option DiagnosticKind
  | .obj [("MissingColumn", value)] => (detail? "column" value).map .missingColumn
  | .obj [("NullValue", value)] => (detail? "column" value).map .nullValue
  | .obj [("InvalidTerm", value)] => (detail? "message" value).map .invalidTerm
  | .obj [("JoinNoMatch", value)] => (detail? "reference" value).map .joinNoMatch
  | .obj [("DeferredFunction", value)] => (expressionKind? value).map .deferredFunction
  | _ => none

def optionalRow? : Json → Option (Option Nat)
  | .null => some none
  | value => value.nat?.map some

def RowDiagnostic.ofJson? (value : Json) : Option RowDiagnostic := do
  let fields ← value.fullRecord? ["mapping", "row", "kind"]
  let mapping ← (← fields.lookup "mapping").str?
  let row ← Json.fieldOr? fields "row" none optionalRow?
  let kind ← DiagnosticKind.ofJson? (← fields.lookup "kind")
  some ⟨mapping, row, kind⟩

end Generation

namespace Document

def BuildOptions.toJson (o : BuildOptions) : Json :=
  .obj [("standard_prefixes", .bool o.standardPrefixes)]

def BuildOptions.ofJson? (value : Json) : Option BuildOptions := do
  let fields ← value.record? ["standard_prefixes"]
  let standardPrefixes ←
    Json.fieldOr? fields "standard_prefixes" BuildOptions.default.standardPrefixes Json.bool?
  some ⟨standardPrefixes⟩

end Document

end TabularRdf

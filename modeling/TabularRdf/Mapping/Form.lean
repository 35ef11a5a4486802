import TabularRdf.Json.Writer
import TabularRdf.Mapping.Specification

/-!
The JSON form of a specification. A template is written as its source, a payload as its compact text, and
a list of a record that may be empty is left out when it is.
-/
namespace TabularRdf.Mapping

open Json (ofOption ofStrings)

def listField {α : Type} (key : String) (toJson : α → Json) (items : List α) : Json.Fields :=
  if items.isEmpty then [] else [(key, .arr (items.map toJson))]

def optional {α : Type} (toJson : α → Json) : Option α → Json
  | none => .null
  | some value => toJson value

def named {α : Type} (toJson : α → Json) (table : Named α) : Json :=
  .obj (table.map fun (name, value) => (name, toJson value))

def Template.toJson (t : Template) : Json := .str t.source

def ExpressionKind.tag : ExpressionKind → String
  | .function => "function"
  | .condition => "condition"

def Expression.toJson (e : Expression) : Json :=
  .obj [("kind", .str e.kind.tag), ("payload", .str e.payload.compact)]

def SourceFormat.toJson : SourceFormat → Json
  | .csv => .str "csv"
  | .jsonPath => .str "jsonpath"
  | .xPath => .str "xpath"
  | .sql dialect => .obj [("sql", .str dialect)]
  | .sparql => .str "sparql"
  | .other tag => .obj [("other", .str tag)]

def Source.toJson (s : Source) : Json :=
  .obj <| [("name", ofOption s.name), ("access", .str s.access), ("format", s.format.toJson),
    ("iterator", ofOption s.iterator), ("query", ofOption s.query),
    ("delimiter", ofOption s.delimiter)] ++
    if s.options.isEmpty then [] else [("options", named .str s.options)]

def Target.toJson (t : Target) : Json :=
  .obj [("name", ofOption t.name), ("access", .str t.access),
    ("target_type", ofOption t.targetType), ("serialization", ofOption t.serialization),
    ("compression", ofOption t.compression)]

def JoinKey.toJson (k : JoinKey) : Json :=
  .obj [("child", .str k.child), ("parent", .str k.parent)]

def JoinCondition.toJson (c : JoinCondition) : Json :=
  .obj [("keys", .arr (c.keys.map JoinKey.toJson))]

def QuoteFilter.toJson (f : QuoteFilter) : Json :=
  .obj (listField "predicates" .str f.predicates ++ listField "graphs" .str f.graphs)

def QuotedRef.toJson (q : QuotedRef) : Json :=
  .obj [("mapping", .str q.mapping), ("asserted", .bool q.asserted),
    ("condition", optional JoinCondition.toJson q.condition), ("filter", q.filter.toJson)]

def MappingRef.toJson (r : MappingRef) : Json :=
  .obj [("mapping", .str r.mapping), ("condition", optional JoinCondition.toJson r.condition)]

def TermKind.tag : TermKind → String
  | .iri => "iri"
  | .literal => "literal"

def ObjectTerm.toJson (t : ObjectTerm) : Json :=
  .obj [("template", t.template.toJson), ("kind", .str t.kind.tag),
    ("datatype", optional Template.toJson t.datatype),
    ("language", optional Template.toJson t.language)]

def ObjectSpec.toJson : ObjectSpec → Json
  | .term t => .obj [("Term", t.toJson)]
  | .reference r => .obj [("Reference", r.toJson)]
  | .quoted q => .obj [("Quoted", q.toJson)]
  | .function e => .obj [("Function", e.toJson)]

def PredicateObject.toJson (po : PredicateObject) : Json :=
  .obj <| [("predicate", po.predicate.toJson), ("object", po.object.toJson),
    ("inverse_predicate", optional Template.toJson po.inverse),
    ("condition", optional Expression.toJson po.condition)] ++
    listField "graphs" Template.toJson po.graphs

def SubjectSpec.toJson (s : SubjectSpec) : Json :=
  .obj <| ("quoted", optional QuotedRef.toJson s.quoted) ::
    (listField "templates" Template.toJson s.templates ++
      listField "graphs" Template.toJson s.graphs ++
      listField "functions" Expression.toJson s.functions)

def TriplesMap.toJson (m : TriplesMap) : Json :=
  .obj <| [("name", .str m.name), ("sources", .arr (m.sources.map Source.toJson)),
    ("subject", m.subject.toJson),
    ("predicate_objects", .arr (m.predicateObjects.map PredicateObject.toJson)),
    ("condition", optional Expression.toJson m.condition)] ++
    listField "targets" Target.toJson m.targets ++ listField "graphs" Template.toJson m.graphs

def Author.toJson (a : Author) : Json :=
  .obj [("name", ofOption a.name), ("email", ofOption a.email),
    ("website", ofOption a.website), ("webid", ofOption a.webId)]

def Plan.toJson (p : Plan) : Json := .obj [("levels", .arr (p.levels.map ofStrings))]

def Specification.toJson (s : Specification) : Json :=
  .obj [("maps", .arr (s.maps.map TriplesMap.toJson)), ("prefixes", named .str s.prefixes),
    ("sources", named Source.toJson s.sources), ("targets", named Target.toJson s.targets),
    ("base", ofOption s.base), ("authors", .arr (s.authors.map Author.toJson)),
    ("external", named .str s.external), ("index", named Json.ofNat s.index),
    ("source_to_maps", named ofStrings s.sourceMaps), ("plan", s.plan.toJson)]

end TabularRdf.Mapping

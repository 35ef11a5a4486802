import TabularRdf.Named
import TabularRdf.Text.Blank
import TabularRdf.Text.Split

/-!
Where rows come from and where quads go. A source is known by its name or, without one, by its access
path; two sources read the same rows when access, format, iterator and query agree.
-/
namespace TabularRdf.Mapping

inductive SourceFormat where
  | csv
  | jsonPath
  | xPath
  | sql (dialect : String)
  | sparql
  | other (tag : String)
  deriving DecidableEq, Repr

namespace SourceFormat

def dialects : List String :=
  ["sql", "mysql", "postgresql", "postgres", "sqlite", "sqlserver", "oracle"]

def ofTag (tag : String) : SourceFormat :=
  let written := Text.trimmed tag
  let tag := written.toLower
  if tag = "csv" ∨ tag = "tsv" then .csv
  else if tag = "jsonpath" ∨ tag = "json" then .jsonPath
  else if tag = "xpath" ∨ tag = "xml" then .xPath
  else if tag ∈ dialects then .sql tag
  else if tag = "sparql" then .sparql
  else .other written

def infer (access : String) : SourceFormat :=
  let path := access.toLower.toList
  if (Text.dropTail? ".json".toList path).isSome then .jsonPath
  else if (Text.dropTail? ".xml".toList path).isSome then .xPath
  else .csv

def text : SourceFormat → String
  | .csv => "csv"
  | .jsonPath => "jsonpath"
  | .xPath => "xpath"
  | .sql dialect => dialect
  | .sparql => "sparql"
  | .other tag => tag

end SourceFormat

structure Source where
  name : Option String
  access : String
  format : SourceFormat
  iterator : Option String
  query : Option String
  delimiter : Option String
  options : Named String
  deriving DecidableEq, Repr

namespace Source

def plain (access : String) (format : SourceFormat) : Source :=
  ⟨none, access, format, none, none, none, []⟩

def key (s : Source) : String := s.name.getD s.access

def sameRows (a b : Source) : Bool :=
  a.access = b.access && a.format = b.format && a.iterator = b.iterator && a.query = b.query

end Source

structure Target where
  name : Option String
  access : String
  targetType : Option String
  serialization : Option String
  compression : Option String
  deriving DecidableEq, Repr

end TabularRdf.Mapping

import TabularRdf.Mapping.Source
import TabularRdf.Named
import TabularRdf.Table.Basic

/-!
Tables at hand for a run. A provider gives the table of a source; a set of tables by key can be asked by
name and then by access path, or by the key of the source alone.
-/
namespace TabularRdf.Generation

open Mapping (Source)

abbrev TableProvider := Source → Option Table

abbrev TableSet := Named Table

namespace TableSet

def byNameOrAccess (tables : TableSet) : TableProvider := fun source =>
  match source.name.bind fun name => tables.lookup name with
  | some table => some table
  | none => tables.lookup source.access

def byKey (tables : TableSet) : TableProvider := fun source => tables.lookup source.key

end TableSet

end TabularRdf.Generation

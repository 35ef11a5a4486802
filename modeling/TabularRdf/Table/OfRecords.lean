import TabularRdf.Table.Basic
import TabularRdf.Named

/-!
Tables of text from records of named values. The records are entered one after the other, and the columns
stand in the order in which their names first come. A column that comes late starts with a null for every row
before; one that a record leaves out gets a null there. A record may not repeat a name.
-/
namespace TabularRdf.Table

abbrev Record := Named (Option String)

abbrev Cells := Array (Option String)

/- Enters a text of a row. A column that is longer than the rows before has a cell in this row already. -/
def enterCell (row : Nat) (columns : Named Cells) (cell : String × Option String) :
    Except TableError (Named Cells) :=
  let cells := (columns.lookup cell.1).getD (Array.replicate row none)
  if row < cells.size then .error (.repeatedColumn row cell.1)
  else .ok (columns.set cell.1 (cells.push cell.2))

def fillUp (row : Nat) (columns : Named Cells) : Named Cells :=
  columns.map fun (name, cells) => (name, if cells.size = row then cells.push none else cells)

def enterRecord (row : Nat) (columns : Named Cells) (record : Record) : Except TableError (Named Cells) := do
  let columns ← record.foldlM (enterCell row) columns
  return fillUp row columns

def enterRecords : Nat → Named Cells → List Record → Except TableError (Named Cells)
  | _, columns, [] => .ok columns
  | row, columns, record :: rest => do
    let columns ← enterRecord row columns record
    enterRecords (row + 1) columns rest

def ofRecords (records : List Record) : Except TableError Table := do
  let columns ← enterRecords 0 [] records
  let schema ← Schema.make <| columns.map fun (name, cells) => ⟨name, .string, cells.any Option.isNone⟩
  let table ← Table.make schema (columns.map fun (_, cells) => .string cells)
  return { table with rows := records.length }

end TabularRdf.Table

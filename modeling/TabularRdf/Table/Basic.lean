import TabularRdf.Decimal.Layout

/-!
Source tables: named columns of one type each, with nulls. A mapping reads a cell as text, whatever the
type of its column. The checked constructors refuse two columns of one name, columns of unequal length
and a column whose cells are not of its declared type.
-/
namespace TabularRdf.Table

open Decimal (Binary64)

inductive FieldType where
  | boolean
  | int64
  | float64
  | string
  deriving DecidableEq, Repr

structure ColumnInfo where
  name : String
  fieldType : FieldType
  nullable : Bool
  deriving DecidableEq, Repr

inductive TableError where
  | duplicateColumn (name : String)
  | columnCount (fields columns : Nat)
  | rowCount (column rows expected : Nat)
  | columnType (name : String) (declared held : FieldType)
  | notAnArray
  | notAnObject (row : Nat)
  | repeatedColumn (row : Nat) (name : String)
  deriving DecidableEq, Repr

inductive Column where
  | boolean (cells : Array (Option Bool))
  | int64 (cells : Array (Option Int))
  | float64 (cells : Array (Option Binary64))
  | string (cells : Array (Option String))
  deriving DecidableEq, Repr

namespace Column

def size : Column → Nat
  | .boolean cells => cells.size
  | .int64 cells => cells.size
  | .float64 cells => cells.size
  | .string cells => cells.size

def fieldType : Column → FieldType
  | .boolean _ => .boolean
  | .int64 _ => .int64
  | .float64 _ => .float64
  | .string _ => .string

def truthText (b : Bool) : String := if b then "true" else "false"

def text? (column : Column) (row : Nat) : Option String :=
  match column with
  | .boolean cells => (cells[row]?.join).map truthText
  | .int64 cells => (cells[row]?.join).map (toString : Int → String)
  | .float64 cells => (cells[row]?.join).map Decimal.Layout.cell.text
  | .string cells => cells[row]?.join

def isNull (column : Column) (row : Nat) : Bool := (column.text? row).isNone

end Column

structure Schema where
  fields : List ColumnInfo
  deriving DecidableEq, Repr

namespace Schema

def names (schema : Schema) : List String := schema.fields.map ColumnInfo.name

def repeated? (seen : List String) : List String → Option String
  | [] => none
  | name :: rest => if name ∈ seen then some name else repeated? (name :: seen) rest

def make (fields : List ColumnInfo) : Except TableError Schema :=
  match repeated? [] (fields.map ColumnInfo.name) with
  | some name => .error (.duplicateColumn name)
  | none => .ok ⟨fields⟩

def indexOf? (schema : Schema) (name : String) : Option Nat := schema.names.idxOf? name

def field? (schema : Schema) (name : String) : Option ColumnInfo :=
  (schema.indexOf? name).bind fun i => schema.fields[i]?

end Schema

end Table

structure Table where
  schema : Table.Schema
  columns : List Table.Column
  rows : Nat
  deriving DecidableEq, Repr

namespace Table

def mismatch? (rows : Nat) : Nat → List (Column × ColumnInfo) → Option TableError
  | _, [] => none
  | i, (column, info) :: rest =>
    if column.size ≠ rows then some (.rowCount i column.size rows)
    else if column.fieldType ≠ info.fieldType then
      some (.columnType info.name info.fieldType column.fieldType)
    else mismatch? rows (i + 1) rest

def make (schema : Schema) (columns : List Column) : Except TableError Table :=
  if columns.length ≠ schema.fields.length then
    .error (.columnCount schema.fields.length columns.length)
  else
    let rows := (columns.head?.map Column.size).getD 0
    match mismatch? rows 0 (columns.zip schema.fields) with
    | some error => .error error
    | none => .ok ⟨schema, columns, rows⟩

def column? (table : Table) (name : String) : Option Column :=
  (table.schema.indexOf? name).bind fun i => table.columns[i]?

def text? (table : Table) (row : Nat) (name : String) : Option String :=
  (table.column? name).bind fun column => column.text? row

def isEmpty (table : Table) : Bool := table.rows == 0

def FieldType.name : FieldType → String
  | .boolean => "Boolean"
  | .int64 => "Int64"
  | .float64 => "Float64"
  | .string => "String"

def FieldType.tag : FieldType → String
  | .boolean => "boolean"
  | .int64 => "int64"
  | .float64 => "float64"
  | .string => "string"

def TableError.isSchema : TableError → Bool
  | .notAnObject _ | .repeatedColumn _ _ => false
  | _ => true

def TableError.message : TableError → String
  | .duplicateColumn name => "Schema error: Duplicate column name '" ++ name ++ "'"
  | .columnCount fields columns =>
    "Schema error: Column count mismatch: schema has " ++ toString fields ++ " fields, got " ++
      toString columns ++ " columns"
  | .rowCount column rows expected =>
    "Schema error: Row count mismatch: column " ++ toString column ++ " has " ++ toString rows ++
      " rows, expected " ++ toString expected
  | .columnType name declared held =>
    "Schema error: Column '" ++ name ++ "' declared " ++ declared.name ++ " but holds " ++ held.name
  | .notAnArray => "Schema error: expected a JSON array of records"
  | .notAnObject row => "Invalid record at row " ++ toString row ++ ": expected a JSON object"
  | .repeatedColumn row name =>
    "Invalid record at row " ++ toString row ++ ": column '" ++ name ++ "' appears twice"

end Table

end TabularRdf

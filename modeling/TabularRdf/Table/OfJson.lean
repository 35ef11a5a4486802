import TabularRdf.Json.Writer
import TabularRdf.Table.Basic

/-!
Typed tables from a JSON array of flat objects. A column whose values are all booleans, all signed 64-bit
integers or all numbers has that type; any other is a column of text, where a value that is no string
stands as its compact JSON text. A null and an absent field are both null.
-/
namespace TabularRdf.Table

open TabularRdf.Json (Fields)

def objectsOf : Nat → List Json → Except TableError (List Fields)
  | _, [] => .ok []
  | row, .obj fields :: rest => (objectsOf (row + 1) rest).map (fields :: ·)
  | row, _ :: _ => .error (.notAnObject row)

def fieldValues (records : List Fields) (name : String) : List Json :=
  records.map fun fields => (fields.lookup name).getD .null

def signed64? : Json → Option Int
  | .num n => n.signed64?
  | _ => none

def binary64? : Json → Option Decimal.Binary64
  | .num n => some n.toBinary64
  | _ => none

def cellText? : Json → Option String
  | .null => none
  | .str s => some s
  | other => some other.compact

def typeOf (values : List Json) : FieldType :=
  let present := values.filter fun v => !v.isNull
  if present.isEmpty then .string
  else if present.all fun v => v.bool?.isSome then .boolean
  else if present.all fun v => (signed64? v).isSome then .int64
  else if present.all fun v => (binary64? v).isSome then .float64
  else .string

def columnOf (type : FieldType) (values : List Json) : Column :=
  match type with
  | .boolean => .boolean (values.map Json.bool?).toArray
  | .int64 => .int64 (values.map signed64?).toArray
  | .float64 => .float64 (values.map binary64?).toArray
  | .string => .string (values.map cellText?).toArray

def ofJson (value : Json) : Except TableError Table :=
  match value with
  | .arr items => do
    let records ← objectsOf 0 items
    let names := (records.flatMap fun fields => fields.map Prod.fst).eraseDups
    let columns := names.map fun name => (name, fieldValues records name)
    let schema ← Schema.make <| columns.map fun (name, values) =>
      ⟨name, typeOf values, values.any Json.isNull⟩
    let table ← Table.make schema (columns.map fun (_, values) => columnOf (typeOf values) values)
    return { table with rows := records.length }
  | _ => .error .notAnArray

end TabularRdf.Table

import TabularRdf.Json.Basic

/-!
Reading records from JSON. A record may be written as an object, where unknown fields are ignored, or as
the array of its parts in order.
-/
namespace TabularRdf.Json

def tag? : Json → Option String
  | .str tag => some tag
  | .obj [(tag, .null)] => some tag
  | _ => none

def optionalText? : Json → Option (Option String)
  | .null => some none
  | .str s => some (some s)
  | _ => none

def record? (names : List String) : Json → Option Fields
  | .obj fields => some fields
  | .arr items => if items.length ≤ names.length then some (names.zip items) else none
  | _ => none

def fullRecord? (names : List String) : Json → Option Fields
  | .obj fields => some fields
  | .arr items => if items.length = names.length then some (names.zip items) else none
  | _ => none

def fieldOr? {α : Type} (fields : Fields) (name : String) (default : α)
    (read : Json → Option α) : Option α :=
  match fields.lookup name with
  | none => some default
  | some value => read value

end TabularRdf.Json

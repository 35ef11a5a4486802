import TabularRdf.Mapping.Problem

/-!
One object of a document, read by keywords. Two spellings of one keyword in one object are refused, and so
are two keywords that exclude each other.
-/
namespace TabularRdf.Document

open Mapping (Keyword MappingError Problem)

structure Section where
  owner : String
  fields : Json.Fields
  deriving Repr

def scalarText? : Json → Option String
  | .str s => some s
  | .num n => some n.text
  | .bool b => some (if b then "true" else "false")
  | _ => none

def itemsOf : Json → List Json
  | .arr items => items
  | .null => []
  | value => [value]

def scalarOr (owner : String) (problem : Problem) (value : Json) : Except MappingError String :=
  match scalarText? value with
  | some text => .ok text
  | none => .error (.validation owner problem)

namespace Section

def ofValue (owner : String) (what : String) : Json → Except MappingError Section
  | .obj fields => .ok ⟨owner, fields⟩
  | _ => .error (.validation owner (.notAnObject what))

def written (s : Section) (keyword : Keyword) : List (String × Json) :=
  keyword.spellings.filterMap fun key => (s.fields.lookup key).map (key, ·)

def get? (s : Section) (keyword : Keyword) : Except MappingError (Option Json) :=
  match s.written keyword with
  | [] => .ok none
  | [(_, value)] => .ok (some value)
  | (first, _) :: (second, _) :: _ =>
    .error (.validation s.owner (.ambiguousKeys first second))

def text? (s : Section) (keyword : Keyword) : Except MappingError (Option String) := do
  match ← s.get? keyword with
  | none | some .null => return none
  | some value =>
    let text ← scalarOr s.owner (.notAString keyword.canonical) value
    return some text

def exclusiveAfter (s : Section) (found : Option Keyword) :
    List Keyword → Except MappingError (Option Keyword)
  | [] => .ok found
  | keyword :: rest => do
    match ← s.get? keyword, found with
    | none, _ => s.exclusiveAfter found rest
    | some _, none => s.exclusiveAfter (some keyword) rest
    | some _, some first =>
      throw (.validation s.owner (.exclusiveKeys first.canonical keyword.canonical))

def exclusive (s : Section) (keywords : List Keyword) : Except MappingError (Option Keyword) :=
  s.exclusiveAfter none keywords

def otherFields (s : Section) (keywords : List Keyword) : Json.Fields :=
  s.fields.filter fun (key, _) => !keywords.any fun k => k.spellings.contains key

end Section

end TabularRdf.Document

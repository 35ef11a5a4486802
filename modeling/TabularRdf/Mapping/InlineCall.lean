import TabularRdf.Text.Blank
import TabularRdf.Text.Split

/-!
Calls written on one line, `name(key = value, ...)`. Parentheses nest, and the commas and equality signs
inside them belong to the argument. Open parentheses are counted in 32 bits with a sign, and the count wraps.
-/
namespace TabularRdf.Mapping

structure InlineCall where
  name : String
  args : List (Option String × String)
  deriving DecidableEq, Repr

namespace InlineCall

def consFirst (c : Char) : List (List Char) → List (List Char)
  | [] => [[c]]
  | piece :: rest => (c :: piece) :: rest

def splitTop (separator : Char) : Int32 → List Char → Option (List (List Char))
  | depth, [] => if depth ≠ 0 then none else some [[]]
  | depth, c :: rest =>
    if c = '(' then (splitTop separator (depth + 1) rest).map (consFirst c)
    else if c = ')' then
      if depth - 1 < 0 then none else (splitTop separator (depth - 1) rest).map (consFirst c)
    else if c = separator ∧ depth = 0 then (splitTop separator depth rest).map ([] :: ·)
    else (splitTop separator depth rest).map (consFirst c)

def cutTop? (needle : Char) : Int32 → List Char → Option (List Char × List Char)
  | _, [] => none
  | depth, c :: rest =>
    if c = '(' then (cutTop? needle (depth + 1) rest).map fun (a, b) => (c :: a, b)
    else if c = ')' then (cutTop? needle (depth - 1) rest).map fun (a, b) => (c :: a, b)
    else if c = needle ∧ depth = 0 then some ([], rest)
    else (cutTop? needle depth rest).map fun (a, b) => (c :: a, b)

def argumentOf (piece : List Char) : Option (Option String × String) :=
  let piece := Text.trim piece
  if piece.isEmpty then none
  else match cutTop? '=' 0 piece with
    | some (key, value) =>
      some (some (String.ofList (Text.trim key)), String.ofList (Text.trim value))
    | none => some (none, String.ofList piece)

def parse (text : String) : Option InlineCall := do
  let (name, rest) ← Text.splitFirst? '(' (Text.trim text.toList)
  let name := Text.trim name
  if name.isEmpty then none
  let inner ← Text.dropTail? [')'] rest
  let pieces ← splitTop ',' 0 inner
  some ⟨String.ofList name, pieces.filterMap argumentOf⟩

def arg? (call : InlineCall) (key : String) : Option String :=
  (call.args.find? fun (k, _) => k == some key).map Prod.snd

def positional (call : InlineCall) : List String :=
  (call.args.filter fun (k, _) => k.isNone).map Prod.snd

end InlineCall

end TabularRdf.Mapping

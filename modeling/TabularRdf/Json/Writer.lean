import TabularRdf.Json.Basic

/-!
The compact text of a JSON value: no blanks between the tokens, and in a string only the quotation
mark, the backslash and the control characters escaped.
-/
namespace TabularRdf.Json

def hexDigit (n : Nat) : Char := (Nat.digitChar n)

def escapeChar (c : Char) : List Char :=
  if c = '\x22' then ['\\', '\x22']
  else if c = '\\' then ['\\', '\\']
  else if c = '\n' then ['\\', 'n']
  else if c = '\r' then ['\\', 'r']
  else if c = '\t' then ['\\', 't']
  else if c = '\x08' then ['\\', 'b']
  else if c = '\x0c' then ['\\', 'f']
  else if c.toNat < 0x20 then
    ['\\', 'u', '0', '0', hexDigit (c.toNat / 16), hexDigit (c.toNat % 16)]
  else [c]

def quoted (s : String) : List Char := '\x22' :: s.toList.flatMap escapeChar ++ ['\x22']

mutual

def writeChars : Json → List Char
  | .null => "null".toList
  | .bool b => (if b then "true" else "false").toList
  | .num n => n.text.toList
  | .str s => quoted s
  | .arr [] => ['[', ']']
  | .arr (item :: rest) => '[' :: writeChars item ++ writeItems rest
  | .obj [] => ['\x7b', '\x7d']
  | .obj ((key, value) :: rest) =>
    '\x7b' :: quoted key ++ ':' :: writeChars value ++ writeFields rest

def writeItems : List Json → List Char
  | [] => [']']
  | item :: rest => ',' :: writeChars item ++ writeItems rest

def writeFields : List (String × Json) → List Char
  | [] => ['\x7d']
  | (key, value) :: rest => ',' :: quoted key ++ ':' :: writeChars value ++ writeFields rest

end

def compact (value : Json) : String := String.ofList (writeChars value)

end TabularRdf.Json

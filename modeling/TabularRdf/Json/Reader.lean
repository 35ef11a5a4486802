import TabularRdf.Json.Basic

/-!
Reading a JSON text. Arrays and objects may nest 127 deep; a number too large for binary64, a lone
surrogate, a control character inside a string and anything after the value are refused. A key that
comes again keeps its place and takes the later value.
-/
namespace TabularRdf.Json

def depthLimit : Nat := 127

def isSpace (c : Char) : Bool := c == ' ' || c == '\n' || c == '\t' || c == '\r'

def skipSpace (cs : List Char) : List Char := cs.dropWhile isSpace

def isDigit (c : Char) : Bool := '0' ≤ c && c ≤ '9'

def hexValue? (c : Char) : Option Nat :=
  if '0' ≤ c ∧ c ≤ '9' then some (c.toNat - '0'.toNat)
  else if 'a' ≤ c ∧ c ≤ 'f' then some (c.toNat - 'a'.toNat + 10)
  else if 'A' ≤ c ∧ c ≤ 'F' then some (c.toNat - 'A'.toNat + 10)
  else none

def readUnit : List Char → Option (Nat × List Char)
  | a :: b :: c :: d :: rest => do
    let a ← hexValue? a
    let b ← hexValue? b
    let c ← hexValue? c
    let d ← hexValue? d
    some (((a * 16 + b) * 16 + c) * 16 + d, rest)
  | _ => none

def readCodePoint (cs : List Char) : Option (Char × List Char) :=
  match readUnit cs with
  | none => none
  | some (lead, rest) =>
    if 0xDC00 ≤ lead ∧ lead ≤ 0xDFFF then none
    else if 0xD800 ≤ lead ∧ lead ≤ 0xDBFF then
      match rest with
      | '\\' :: 'u' :: more =>
        match readUnit more with
        | some (trail, rest) =>
          if 0xDC00 ≤ trail ∧ trail ≤ 0xDFFF then
            some (Char.ofNat ((lead - 0xD800) * 0x400 + (trail - 0xDC00) + 0x10000), rest)
          else none
        | none => none
      | _ => none
    else some (Char.ofNat lead, rest)

def readString : Nat → List Char → Option (List Char × List Char)
  | 0, _ => none
  | _ + 1, [] => none
  | fuel + 1, c :: rest =>
    let andThen (c : Char) (rest : List Char) :=
      (readString fuel rest).map fun (cs, rest) => (c :: cs, rest)
    if c = '\x22' then some ([], rest)
    else if c.toNat < 0x20 then none
    else if c = '\\' then
      match rest with
      | '\x22' :: rest => andThen '\x22' rest
      | '\\' :: rest => andThen '\\' rest
      | '/' :: rest => andThen '/' rest
      | 'b' :: rest => andThen '\x08' rest
      | 'f' :: rest => andThen '\x0c' rest
      | 'n' :: rest => andThen '\n' rest
      | 'r' :: rest => andThen '\r' rest
      | 't' :: rest => andThen '\t' rest
      | 'u' :: rest =>
        match readCodePoint rest with
        | some (c, rest) => andThen c rest
        | none => none
      | _ => none
    else andThen c rest

def readFraction : List Char → Option (Option (List Char) × List Char)
  | '.' :: rest =>
    let digits := rest.takeWhile isDigit
    if digits.isEmpty then none else some (some digits, rest.dropWhile isDigit)
  | cs => some (none, cs)

def digitsValue (digits : List Char) : Nat :=
  digits.foldl (fun n c => n * 10 + Number.digitValue c) 0

def readExponent : List Char → Option (Option Int × List Char)
  | c :: rest =>
    if c = 'e' ∨ c = 'E' then
      let (negative, rest) := match rest with
        | '-' :: rest => (true, rest)
        | '+' :: rest => (false, rest)
        | rest => (false, rest)
      let digits := rest.takeWhile isDigit
      let value : Int := digitsValue digits
      if digits.isEmpty then none
      else some (some (if negative then -value else value), rest.dropWhile isDigit)
    else some (none, c :: rest)
  | [] => some (none, [])

def readNumber (cs : List Char) : Option (Number × List Char) := do
  let (negative, cs) := match cs with
    | '-' :: rest => (true, rest)
    | cs => (false, cs)
  let (whole, cs) ← match cs with
    | '0' :: rest => if (rest.head?.map isDigit).getD false then none else some (['0'], rest)
    | cs =>
      let digits := cs.takeWhile isDigit
      if digits.isEmpty then none else some (digits, cs.dropWhile isDigit)
  let (fraction, cs) ← readFraction cs
  let (exponent, cs) ← readExponent cs
  let number ← Number.Parts.value? ⟨negative, whole, fraction, exponent⟩
  some (number, cs)

def readWord (word : String) (value : Json) (cs : List Char) : Option (Json × List Char) :=
  let n := word.length
  if cs.take n = word.toList then some (value, cs.drop n) else none

mutual

def readValue : Nat → Nat → List Char → Option (Json × List Char)
  | 0, _, _ => none
  | fuel + 1, depth, cs =>
    match skipSpace cs with
    | '\x22' :: rest => (readString fuel rest).map fun (s, rest) => (.str (String.ofList s), rest)
    | '[' :: rest =>
      match depth with
      | 0 => none
      | depth + 1 =>
        match skipSpace rest with
        | ']' :: rest => some (.arr [], rest)
        | rest => (readItems fuel depth rest).map fun (items, rest) => (.arr items, rest)
    | '\x7b' :: rest =>
      match depth with
      | 0 => none
      | depth + 1 =>
        match skipSpace rest with
        | '\x7d' :: rest => some (.obj [], rest)
        | rest => (readFields fuel depth [] rest).map fun (fields, rest) => (.obj fields, rest)
    | 'n' :: rest => readWord "null" .null ('n' :: rest)
    | 't' :: rest => readWord "true" (.bool true) ('t' :: rest)
    | 'f' :: rest => readWord "false" (.bool false) ('f' :: rest)
    | cs => (readNumber cs).map fun (n, rest) => (.num n, rest)

def readItems : Nat → Nat → List Char → Option (List Json × List Char)
  | 0, _, _ => none
  | fuel + 1, depth, cs =>
    match readValue fuel depth cs with
    | none => none
    | some (item, rest) =>
      match skipSpace rest with
      | ']' :: rest => some ([item], rest)
      | ',' :: rest => (readItems fuel depth rest).map fun (items, rest) => (item :: items, rest)
      | _ => none

def readFields : Nat → Nat → Fields → List Char → Option (Fields × List Char)
  | 0, _, _, _ => none
  | fuel + 1, depth, fields, cs =>
    match skipSpace cs with
    | '\x22' :: rest =>
      match readString fuel rest with
      | none => none
      | some (key, rest) =>
        match skipSpace rest with
        | ':' :: rest =>
          match readValue fuel depth rest with
          | none => none
          | some (value, rest) =>
            let fields := Named.set (String.ofList key) value fields
            match skipSpace rest with
            | '\x7d' :: rest => some (fields, rest)
            | ',' :: rest => readFields fuel depth fields rest
            | _ => none
        | _ => none
    | _ => none

end

/- The value that a text holds when its arrays and objects nest at most `depth` deep. Every value takes a
character, and an array or object spends two steps on each of its parts, so twice the length bounds the
steps. -/
def readWithin? (depth : Nat) (text : String) : Option Json :=
  let cs := text.toList
  match readValue (2 * cs.length + 2) depth cs with
  | some (value, rest) => if (skipSpace rest).isEmpty then some value else none
  | none => none

def read? (text : String) : Option Json := readWithin? depthLimit text

end TabularRdf.Json

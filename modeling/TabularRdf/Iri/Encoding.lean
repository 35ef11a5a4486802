/-!
How a column value is written inside an IRI: percent-encoded, with underscores for blanks and slashes, or
as it is.
-/
namespace TabularRdf.Iri

inductive Encoding where
  | percent
  | underscore
  | verbatim
  deriving DecidableEq, Repr

def isSafe (c : Char) : Bool :=
  ('A' ≤ c && c ≤ 'Z') || ('a' ≤ c && c ≤ 'z') || ('0' ≤ c && c ≤ '9') ||
    "-._~!$&\x27()*+,;=:@".toList.contains c

def hexDigit (n : Nat) : Char := (Nat.digitChar n).toUpper

def escapeByte (b : UInt8) : List Char :=
  ['%', hexDigit (b.toNat / 16), hexDigit (b.toNat % 16)]

def escapeChar (c : Char) : List Char :=
  if isSafe c then [c] else (String.utf8EncodeChar c).flatMap escapeByte

theorem hexDigitSafe : ∀ n < 16, isSafe (hexDigit n) := by decide

theorem escapedSafe {c d : Char} (mem : d ∈ escapeChar c) : isSafe d ∨ d = '%' := by
  unfold escapeChar at mem
  split at mem
  · rename_i safe
    exact .inl (List.mem_singleton.mp mem ▸ safe)
  · obtain ⟨b, _, inside⟩ := List.mem_flatMap.mp mem
    have bound := b.toNat_lt
    simp only [escapeByte, List.mem_cons, List.not_mem_nil, or_false] at inside
    rcases inside with rfl | rfl | rfl
    · exact .inr rfl
    · exact .inl (hexDigitSafe _ (by omega))
    · exact .inl (hexDigitSafe _ (by omega))

def Encoding.encodeChars : Encoding → List Char → List Char
  | .percent, cs => cs.flatMap escapeChar
  | .underscore, cs => cs.map fun c => if c = ' ' ∨ c = '/' then '_' else c
  | .verbatim, cs => cs

def Encoding.encode (e : Encoding) (value : String) : String :=
  String.ofList (e.encodeChars value.toList)

def Encoding.tag : Encoding → String
  | .percent => "percent"
  | .underscore => "underscore"
  | .verbatim => "verbatim"

def Encoding.ofTag? (tag : String) : Option Encoding :=
  [.percent, .underscore, .verbatim].find? fun e => e.tag = tag

end TabularRdf.Iri

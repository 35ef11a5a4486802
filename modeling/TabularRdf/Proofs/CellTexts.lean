import TabularRdf.Proofs.InferredTables
import TabularRdf.Proofs.WholeNumbers

/-! The text of a cell against the values beside it. They decide one thing only: whether a number is written as the
nearest binary64 number. For many numbers that is no difference; any other value is written as it is by itself. -/
namespace TabularRdf.Table
open Loading
open TabularRdf.Json (Fields)
open Decimal (Binary64 Layout shortest)

def Holds (source : Json) (row : Nat) (name : String) (value : Json) : Prop :=
  value ≠ .null ∧ ∃ items fields, source = .arr items ∧ items[row]? = some (.obj fields) ∧
    fields.lookup name = some value

structure Mixed (source : Json) (name : String) : Prop where
  numbers : ∀ row value, Holds source row name value → ∃ n, value = .num n
  other : ∃ row value, Holds source row name value ∧ ¬ Fits .int64 value

def Settled (n : Json.Number) : Prop := Layout.cell.text n.toBinary64 = n.text

structure Fraction (x : Binary64) : Prop where
  given : x.isZero = false
  single : shortest .away x = shortest .toEven x
  decimals : (shortest .toEven x).scale < 0
  near : Layout.scalar.positional
    ((Nat.toDigits 10 (shortest .toEven x).significand).length - 1 + (shortest .toEven x).scale) = true

theorem wholeSettled {n : Int} (small : n.natAbs ≤ 2 ^ 53) : Settled (.int n) := Decimal.wholeText small

theorem fractionSettled {x : Binary64} (fraction : Fraction x) : Settled (.float x) := by
  have fine : ¬ 0 ≤ (shortest .toEven x).scale := Int.not_le.mpr fraction.decimals
  have cell : shortest Layout.cell.tie x = shortest .toEven x := fraction.single
  have scalar : shortest Layout.scalar.tie x = shortest .toEven x := rfl
  simp only [Settled, Json.Number.toBinary64, Json.Number.text, Layout.text, fraction.given, Bool.false_eq_true,
    if_false, cell, scalar, fraction.near, if_true, Decimal.positionalText, if_neg fine]
  rfl

section

variable {records : List Fields} {row : Nat} {name : String} {value : Json}

theorem holdsRead : Holds (.arr (records.map .obj)) row name value ↔
    value ≠ .null ∧ ∃ fields, records[row]? = some fields ∧ fields.lookup name = some value := by
  refine and_congr_right fun _ => ⟨?_, ?_⟩
  · rintro ⟨items, fields, same, here, found⟩
    cases same
    rw [List.getElem?_map, Option.map_eq_some_iff] at here
    obtain ⟨held, here, same⟩ := here
    cases same
    exact ⟨fields, here, found⟩
  · rintro ⟨fields, here, found⟩
    exact ⟨_, fields, rfl, by rw [List.getElem?_map, here]; rfl, found⟩

theorem presentHolds : Present records name value ↔ ∃ row, Holds (.arr (records.map .obj)) row name value := by
  simp only [holdsRead, Present, List.mem_iff_getElem?]
  constructor
  · rintro ⟨present, fields, ⟨row, here⟩, found⟩
    exact ⟨row, present, fields, here, found⟩
  · rintro ⟨row, present, fields, here, found⟩
    exact ⟨present, fields, ⟨row, here⟩, found⟩

theorem mixedFits : Mixed (.arr (records.map .obj)) name ↔ FirstFit (Present records name) .float64 := by
  constructor
  · rintro ⟨numbers, row, value, holds, unfit⟩
    have present := presentHolds.mpr ⟨row, holds⟩
    refine ⟨⟨value, present⟩, fun value present => ?_, List.forall_mem_cons.mpr ⟨fun fits => ?_,
      List.forall_mem_singleton.mpr fun fits => unfit (fits value present)⟩⟩
    · obtain ⟨row, holds⟩ := presentHolds.mp present
      exact numbers row value holds
    · obtain ⟨n, rfl⟩ := numbers row value holds
      obtain ⟨b, same⟩ := fits _ present
      cases same
  · intro fit
    refine ⟨fun row value holds => fit.fits value (presentHolds.mpr ⟨row, holds⟩), ?_⟩
    have unfit := fit.first .int64 (by decide)
    push Not at unfit
    obtain ⟨value, present, unfit⟩ := unfit
    obtain ⟨row, holds⟩ := presentHolds.mp present
    exact ⟨row, value, holds, unfit⟩

theorem cellRead {source : Json} {table : Table} (read : ofJson source = .ok table)
    (holds : Holds source row name value) :
    ∃ type, table.text? row name = textIn type value ∧ (type = .float64 ↔ Mixed source name) := by
  obtain ⟨items, _, rfl, _⟩ := holds.2
  obtain ⟨records, rfl, listed⟩ | ⟨before, item, after, _, _, refused⟩ := objectsRead 0 items
  · have same := Except.ok.inj (read.symm.trans (tableInferred listed))
    obtain ⟨present, fields, here, found⟩ := holdsRead.mp holds
    have known : name ∈ (valuesByName records).map Prod.fst := by
      rw [valuesNamed, (seenErased _).listed, List.mem_flatMap]
      exact ⟨fields, List.mem_of_getElem? here, List.mem_map.mpr ⟨_, Named.foundListed found, rfl⟩⟩
    have held : (fieldValues records name)[row]? = some value := by rw [valueAt here, found, Option.getD_some]
    refine ⟨typeOf (fieldValues records name), ?_, ?_⟩
    · rw [same, text?, tableFor, assembledColumn, valuesFound known]
      exact columnText held fun present => typeFits present (List.mem_of_getElem? held)
    · rw [mixedFits, presentListed]
      exact typeChosen (by decide)
  · cases read.symm.trans (boundFailed.mpr (.inl refused))

theorem textAlone {type : FieldType} (alone : type = .float64 → ∀ n, value = .num n → Settled n) :
    textIn type value = cellText? value := by
  cases type with
  | float64 =>
    cases value with
    | num n => rw [numberWritten, ← alone rfl n rfl]; rfl
    | _ => rfl
  | _ => rfl

theorem textLost {type other : FieldType} (wide : type = .float64) (narrow : other ≠ .float64)
    (same : textIn type value = textIn other value) (n : Json.Number) (number : value = .num n) : Settled n := by
  subst wide number
  have alone : textIn other (.num n) = cellText? (.num n) := textAlone fun float => absurd float narrow
  rw [alone, numberWritten] at same
  exact Option.some.inj same

theorem textsSame {type other : FieldType} : textIn type value = textIn other value ↔
    (type = .float64 ↔ other = .float64) ∨ ∀ n, value = .num n → Settled n := by
  constructor
  · intro same
    by_cases wide : type = .float64 <;> by_cases also : other = .float64
    · exact .inl (iff_of_true wide also)
    · exact .inr (textLost wide also same)
    · exact .inr (textLost also wide same.symm)
    · exact .inl (iff_of_false wide also)
  · rintro (alike | settled)
    · by_cases wide : type = .float64
      · rw [wide, alike.mp wide]
      · rw [textAlone fun float => absurd float wide, textAlone fun float => absurd (alike.mpr float) wide]
    · rw [textAlone fun _ => settled, textAlone fun _ => settled]

end

section

variable {source other : Json} {one two : Table} {row row' : Nat} {name name' : String} {value : Json}

/-- Two cells of one value have the same text when both columns are mixed or neither is, and otherwise exactly when
the value is no number or a settled one. -/
theorem textsAgree (first : ofJson source = .ok one) (second : ofJson other = .ok two)
    (here : Holds source row name value) (there : Holds other row' name' value) :
    (one.text? row name).isSome ∧
    (one.text? row name = two.text? row' name' ↔
      (Mixed source name ↔ Mixed other name') ∨ ∀ n, value = .num n → Settled n) ∧
    (∀ n : Int, value = .num (.int n) → (Mixed source name → n.natAbs ≤ 2 ^ 53) →
      one.text? row name = some (toString n)) ∧
    (∀ x, value = .num (.float x) → Fraction x → one.text? row name = two.text? row' name') := by
  obtain ⟨type, text, mixed⟩ := cellRead first here
  obtain ⟨type', text', mixed'⟩ := cellRead second there
  rw [text, text', ← mixed, ← mixed']
  refine ⟨?_, textsSame, fun n whole small => ?_, fun x float fraction => textsSame.mpr (.inr fun n number => ?_)⟩
  · rw [Option.isSome_iff_ne_none]
    exact mt textNull.mp here.1
  · subst whole
    rw [textAlone fun wide n same => ?_, numberWritten]
    · rfl
    · cases same
      exact wholeSettled (small wide)
  · cases float.symm.trans number
    exact fractionSettled fraction

end

def identified (values : List Json.Number) : Json := .arr (values.map fun n => .obj [("id", .num n)])

def half : Json.Number := .float ⟨false, 4503599627370496, -53⟩

theorem firstHeld (n : Json.Number) (rest : List Json.Number) : Holds (identified (n :: rest)) 0 "id" (.num n) :=
  ⟨nofun, _, _, rfl, rfl, rfl⟩

theorem oneBesideHalf : ∃ alone beside, ofJson (identified [.int 1]) = .ok alone ∧
    ofJson (identified [.int 1, half]) = .ok beside ∧ alone.text? 0 "id" = beside.text? 0 "id" :=
  ⟨_, _, rfl, rfl, (textsAgree rfl rfl (firstHeld (.int 1) []) (firstHeld (.int 1) [half])).2.1.mpr
    (.inr fun n same => by cases same; exact wholeSettled (by decide))⟩

theorem numeralLost : Holds (identified [.int 9007199254740993]) 0 "id" (.num (.int 9007199254740993)) ∧
    Holds (identified [.int 9007199254740993, half]) 0 "id" (.num (.int 9007199254740993)) ∧
    (ofJson (identified [.int 9007199254740993])).map (fun table => table.text? 0 "id") =
      .ok (some "9007199254740993") ∧
    (ofJson (identified [.int 9007199254740993, half])).map (fun table => table.text? 0 "id") =
      .ok (some "9007199254740992") :=
  ⟨firstHeld _ _, firstHeld _ _, by decide +kernel, by decide +kernel⟩

end TabularRdf.Table

import TabularRdf.Proofs.DirectReadings

/-! Percent-encoding read back, and IRIs that tell the columns they are made from. An encoded value is decoded to
the value, and it ends at the first character that is neither safe nor a percent sign; where such a character stands
behind every placeholder but the last, an IRI is cut into the values of its columns in one way. -/
namespace TabularRdf.Iri

def hexValue? (c : Char) : Option Nat := "0123456789ABCDEF".toList.idxOf? c.toUpper

def percentBytes? : List Char → Option (List UInt8)
  | [] => some []
  | '%' :: high :: low :: rest => do
    let high ← hexValue? high
    let low ← hexValue? low
    let bytes ← percentBytes? rest
    some (UInt8.ofNat (16 * high + low) :: bytes)
  | c :: rest => if c = '%' then none else (percentBytes? rest).map (String.utf8EncodeChar c ++ ·)

def percentDecode? (text : String) : Option String := do
  let bytes ← percentBytes? text.toList
  String.fromUTF8? bytes.toByteArray

theorem hexRead : ∀ n < 16, hexValue? (hexDigit n) = some n := by decide +kernel

theorem byteRead (b : UInt8) (rest : List Char) :
    percentBytes? (escapeByte b ++ rest) = (percentBytes? rest).map (b :: ·) := by
  have bound := b.toNat_lt
  have high := hexRead (b.toNat / 16) (by omega)
  have low := hexRead (b.toNat % 16) (by omega)
  have whole : UInt8.ofNat (16 * (b.toNat / 16) + b.toNat % 16) = b := by
    rw [Nat.div_add_mod, UInt8.ofNat_toNat]
  rw [escapeByte, List.cons_append, List.cons_append, List.cons_append, List.nil_append, percentBytes?, high, low]
  cases percentBytes? rest with
  | none => rfl
  | some bytes => exact congrArg (fun b => some (b :: bytes)) whole

theorem bytesRead (bytes : List UInt8) (rest : List Char) :
    percentBytes? (bytes.flatMap escapeByte ++ rest) = (percentBytes? rest).map (bytes ++ ·) := by
  induction bytes with
  | nil => cases h : percentBytes? rest <;> simp [h]
  | cons b bytes ih =>
    rw [List.flatMap_cons, List.append_assoc, byteRead, ih, Option.map_map]
    rfl

theorem charRead (c : Char) (rest : List Char) :
    percentBytes? (escapeChar c ++ rest) = (percentBytes? rest).map (String.utf8EncodeChar c ++ ·) := by
  unfold escapeChar
  split
  · rename_i safe
    have other : c ≠ '%' := fun same => absurd (same ▸ safe) (by decide)
    rw [List.singleton_append, percentBytes?.eq_3 c rest fun _ _ _ same => absurd same other, if_neg other]
  · exact bytesRead _ rest

theorem charsRead (chars : List Char) :
    percentBytes? (chars.flatMap escapeChar) = some (chars.flatMap String.utf8EncodeChar) := by
  induction chars with
  | nil => rfl
  | cons c chars ih => rw [List.flatMap_cons, charRead, ih, List.flatMap_cons, Option.map_some]

theorem percentRead (value : String) : percentDecode? (Encoding.percent.encode value) = some value := by
  have bytes : (value.toList.flatMap String.utf8EncodeChar).toByteArray = value.toByteArray := by
    rw [← List.utf8Encode, ← String.toByteArray_ofList, String.ofList_toList]
  rw [percentDecode?, Encoding.encode, String.toList_ofList, Encoding.encodeChars, charsRead]
  refine (congrArg String.fromUTF8? bytes).trans ?_
  simp [String.fromUTF8?, value.isValidUTF8, String.fromUTF8]

theorem encodedUnique {value other : String}
    (same : Encoding.percent.encode value = Encoding.percent.encode other) : value = other :=
  Option.some.inj ((percentRead value).symm.trans ((congrArg percentDecode? same).trans (percentRead other)))

def separates (c : Char) : Bool := !isSafe c && c ≠ '%'

theorem encodedWithin (value : String) : ∀ d ∈ (Encoding.percent.encode value).toList, separates d = false := by
  intro d mem
  rw [Encoding.encode, String.toList_ofList] at mem
  obtain ⟨c, _, inside⟩ := List.mem_flatMap.mp mem
  unfold separates
  rcases escapedSafe inside with safe | rfl
  · rw [safe]
    rfl
  · rfl

theorem encodedCut {value other : String} {rest more : List Char} (ends : ∃ c ∈ rest.head?, separates c)
    (stops : ∃ c ∈ more.head?, separates c) (same : (Encoding.percent.encode value).toList ++ rest =
      (Encoding.percent.encode other).toList ++ more) : value = other ∧ rest = more := by
  have only {text : List Char} (first : ∃ c ∈ text.head?, separates c) :
      ∀ c ∈ text.head?, ¬ separates c = false := by
    obtain ⟨c, here, separated⟩ := first
    intro d there
    cases Option.mem_unique here there
    simp [separated]
  obtain ⟨values, rfl⟩ := Text.cutUnique (p := (separates · = false)) (encodedWithin value) (encodedWithin other)
    (only ends) (only stops) same
  exact ⟨encodedUnique (String.toList_inj.mp values), rfl⟩

end TabularRdf.Iri

namespace TabularRdf.Generation
open Iri Mapping Rdf Loading

def leadingText : List Segment → List Char
  | .text t :: rest => t.toList ++ leadingText rest
  | _ => []

def Separated : List Segment → Prop
  | [] => True
  | .text _ :: rest => Separated rest
  | .column _ :: rest =>
    (rest.all (·.text?.isSome) ∨ (leadingText rest).head?.any separates) ∧ Separated rest

instance decideSeparated : (segments : List Segment) → Decidable (Separated segments)
  | [] => isTrue trivial
  | .text _ :: rest => decideSeparated rest
  | .column _ :: rest =>
    have := decideSeparated rest
    inferInstanceAs (Decidable ((_ ∨ _) ∧ _))

section

variable {row other : Row} {segments : List Segment} {encode : String → String}

theorem filledLeads {text : String} (filled : filledAt row encode segments = .ok text) :
    leadingText segments <+: text.toList := by
  induction segments generalizing text with
  | nil => exact List.nil_prefix
  | cons s rest ih =>
    cases s with
    | column name => exact List.nil_prefix
    | text t =>
      simp only [filledNext, boundOk, pureOk] at filled
      obtain ⟨head, given, tail, filled, rfl⟩ := filled
      cases Except.ok.inj given
      rw [String.toList_append]
      exact List.prefix_append_right_inj _ |>.mpr (ih filled)

theorem pieceRead {name value : String} (given : pieceAt row encode (.column name) = .ok value) :
    ∃ text, row name = .value text ∧ value = encode text := by
  cases found : row name with
  | value text =>
    simp only [pieceAt, Row.text, found] at given
    exact ⟨text, rfl, (Except.ok.inj given).symm⟩
  | null | missing => simp [pieceAt, Row.text, found, Except.map] at given

theorem filledUnique (separated : Separated segments) {text : String}
    (one : filledAt row Encoding.percent.encode segments = .ok text)
    (two : filledAt other Encoding.percent.encode segments = .ok text) :
    ∀ name, .column name ∈ segments → ∃ value, row name = .value value ∧ other name = .value value := by
  induction segments generalizing text with
  | nil => exact fun _ mem => absurd mem List.not_mem_nil
  | cons s rest ih =>
    simp only [filledNext, boundOk, pureOk] at one two
    obtain ⟨head, given, tail, filled, whole⟩ := one
    obtain ⟨first, taken, last, behind, again⟩ := two
    have chars : head.toList ++ tail.toList = first.toList ++ last.toList := by
      rw [← String.toList_append, ← String.toList_append, whole, again]
    cases s with
    | text t =>
      cases Except.ok.inj given
      cases Except.ok.inj taken
      have same := String.toList_inj.mp (List.append_cancel_left chars)
      exact fun name mem => ih separated filled (same ▸ behind) name ((List.mem_cons.mp mem).resolve_left nofun)
    | column column =>
      obtain ⟨value, read, rfl⟩ := pieceRead given
      obtain ⟨another, found, rfl⟩ := pieceRead taken
      obtain ⟨ends, separated⟩ := separated
      have parts : value = another ∧ tail = last := by
        rcases ends with plain | ends
        -- behind the last column the text is the same in all rows, whatever it starts with
        · have same : tail = last := Except.ok.inj
            (filled.symm.trans ((filledPlain plain).trans ((filledPlain plain).symm.trans behind)))
          rw [same] at chars
          exact ⟨encodedUnique (String.toList_inj.mp (List.append_cancel_right chars)), same⟩
        · have begins {row : Row} {text : String} (filled : filledAt row Encoding.percent.encode rest = .ok text) :
              ∃ c ∈ text.toList.head?, separates c := by
            obtain ⟨c, leads, apart⟩ := Option.any_eq_true _ _ |>.mp ends
            obtain ⟨more, same⟩ := filledLeads filled
            obtain ⟨chars, leading⟩ := List.head?_eq_some_iff.mp leads
            exact ⟨c, by rw [← same, leading]; rfl, apart⟩
          obtain ⟨same, tails⟩ := encodedCut (begins filled) (begins behind) chars
          exact ⟨same, String.toList_inj.mp tails⟩
      obtain ⟨rfl, rfl⟩ := parts
      intro name mem
      rcases List.mem_cons.mp mem with here | later
      · cases here
        exact ⟨value, read, found⟩
      · exact ih separated filled behind name later

end

theorem irisTellColumns : (∀ value, percentDecode? (Encoding.percent.encode value) = some value) ∧
    ∀ (resolver : Resolver) (template : Template) (head : String) (rest : List Segment) (term : CompiledTerm),
      resolver.encoding = .percent → template.segments = .text head :: rest → Separated template.segments →
      CompiledTerm.iri template resolver = .ok term → ∀ (row other : Row) (iri : Term),
        term.resolve resolver row = .ok iri → term.resolve resolver other = .ok iri →
        ∀ name ∈ template.columns, ∃ value, row name = .value value ∧ other name = .value value := by
  refine ⟨percentRead, ?_⟩
  intro resolver template head rest term percent segments separated compiled row other iri one two name mem
  have reading (row : Row) : term.resolve resolver row = (do
      let tail ← filledAt row Encoding.percent.encode rest
      return Term.iri (resolver.expandHead head ++ tail)) := by
    rw [CompiledTerm.iriRead compiled, iriReading, columnVaries mem, segments, percent]
  rw [reading] at one two
  obtain ⟨tail, filled, same⟩ := boundOk.mp one
  obtain ⟨last, behind, again⟩ := boundOk.mp two
  have whole := Term.iri.inj ((pureOk.mp same).trans (pureOk.mp again).symm)
  have tails : tail = last := by simpa [← String.toList_inj] using whole
  have later : Separated rest := by rwa [segments] at separated
  obtain ⟨s, listed, column⟩ := List.mem_filterMap.mp mem
  rw [segments] at listed
  cases s with
  | text t => cases column
  | column written =>
    cases column
    exact filledUnique later filled (tails ▸ behind) name ((List.mem_cons.mp listed).resolve_left nofun)

def personTemplate : Template :=
  ⟨"ex:$(city)/$(name)/$(city)#me", [.text "ex:", .column "city", .text "/", .column "name", .text "/", .column "city",
    .text "#me"]⟩

theorem personTold : ∃ term, CompiledTerm.iri personTemplate amountResolver = .ok term ∧
    Separated personTemplate.segments ∧
    term.resolve amountResolver (Row.ofRecord [("city", some "a/b%"), ("name", some "é c")]) =
      .ok (.iri "http://example.org/a%2Fb%25/%C3%A9%20c/a%2Fb%25#me") ∧
    ∀ other : Row, term.resolve amountResolver other = .ok (.iri "http://example.org/a%2Fb%25/%C3%A9%20c/a%2Fb%25#me") →
      other "city" = .value "a/b%" ∧ other "name" = .value "é c" := by
  have compiled : CompiledTerm.iri personTemplate amountResolver = .ok ⟨.headed "http://example.org/"
      [.slot 0, .text "/", .slot 1, .text "/", .slot 0, .text "#me"], ["city", "name"]⟩ := by decide +kernel
  have given : CompiledTerm.resolve ⟨.headed "http://example.org/"
      [.slot 0, .text "/", .slot 1, .text "/", .slot 0, .text "#me"], ["city", "name"]⟩ amountResolver
      (Row.ofRecord [("city", some "a/b%"), ("name", some "é c")]) =
        .ok (.iri "http://example.org/a%2Fb%25/%C3%A9%20c/a%2Fb%25#me") := by decide +kernel
  refine ⟨_, compiled, by decide +kernel, given, fun other same => ?_⟩
  have told := irisTellColumns.2 amountResolver personTemplate _ _ _ rfl rfl (by decide +kernel) compiled _ other _
    given same
  obtain ⟨city, here, there⟩ := told "city" (by decide)
  obtain ⟨name, read, found⟩ := told "name" (by decide)
  exact ⟨there.trans here.symm, found.trans read.symm⟩

end TabularRdf.Generation

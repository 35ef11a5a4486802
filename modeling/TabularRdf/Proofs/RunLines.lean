import TabularRdf.Proofs.DirectReadings
import TabularRdf.Proofs.QuadLines

/-! The lines of a run. Percent-encoding leaves no blank, so that a cell can put one into a line only through a
datatype or a language, which are not encoded; all else that stands in a line is written in the document. -/
namespace TabularRdf.Iri
open Text

theorem safeBounds {c : Char} (safe : isSafe c) : 0x21 ≤ c.toNat ∧ c.toNat ≤ 0x7E := by
  have range {low high : Char} (first : 0x21 ≤ low.toNat) (last : high.toNat ≤ 0x7E) (bounds : low ≤ c ∧ c ≤ high) :
      0x21 ≤ c.toNat ∧ c.toNat ≤ 0x7E :=
    ⟨first.trans (Char.le_def.mp bounds.1), (Char.le_def.mp bounds.2).trans last⟩
  have listed : "-._~!$&\x27()*+,;=:@".toList.all fun d => 0x21 ≤ d.toNat ∧ d.toNat ≤ 0x7E := by decide +kernel
  simp only [isSafe, Bool.or_eq_true, Bool.and_eq_true, decide_eq_true_eq, List.contains_iff_mem] at safe
  rcases safe with ((upper | lower) | digit) | mem
  · exact range (by decide) (by decide) upper
  · exact range (by decide) (by decide) lower
  · exact range (by decide) (by decide) digit
  · exact of_decide_eq_true (List.all_eq_true.mp listed c mem)

theorem safeGraphic {c : Char} (safe : isSafe c) : isBlank c = false := by
  obtain ⟨low, high⟩ := safeBounds safe
  simp only [isBlank, Bool.or_eq_false_iff, Bool.and_eq_false_iff, decide_eq_false_iff_not, beq_eq_false_iff_ne]
  omega

theorem escapedGraphic {c d : Char} (mem : d ∈ escapeChar c) : isBlank d = false := by
  rcases escapedSafe mem with safe | rfl
  · exact safeGraphic safe
  · decide

theorem encodedLacks {c : Char} (blank : isBlank c) (value : String) : Lacks c (Encoding.percent.encode value) := by
  intro mem
  rw [Encoding.encode, String.toList_ofList] at mem
  obtain ⟨d, _, inside⟩ := List.mem_flatMap.mp mem
  rw [escapedGraphic inside] at blank
  contradiction

namespace Resolver

structure Lacks (c : Char) (r : Resolver) : Prop where
  prefixes : ∀ p ∈ r.prefixes, Text.Lacks c p.2
  base : ∀ b ∈ r.base, Text.Lacks c b

variable {c : Char} {r : Resolver} (lacks : r.Lacks c)
include lacks

theorem qualifiedLacks {value : String} (free : Text.Lacks c value) : Text.Lacks c (r.qualify value) := by
  unfold qualify
  split
  · rename_i base same
    exact lacksAppend.mpr ⟨lacks.base base same, free⟩
  · exact free

theorem headLacks {value : String} (free : Text.Lacks c value) : Text.Lacks c (r.expandHead value) := by
  unfold expandHead
  split
  · rename_i head rest cut
    split
    · rename_i found
      refine lacksAppend.mpr ⟨lacks.prefixes _ (Named.foundListed found), fun mem => free ?_⟩
      obtain ⟨⟨before, after⟩, split, same⟩ := Option.map_eq_some_iff.mp cut
      cases same
      rw [(splitFirstWhole split).1]
      rw [String.toList_ofList] at mem
      exact List.mem_append_right _ (List.mem_cons_of_mem _ mem)
    · exact free
  · exact qualifiedLacks lacks free

theorem expandedLacks {value iri : String} (expanded : r.expand value = .ok iri) (free : Text.Lacks c value) :
    Text.Lacks c iri := by
  unfold expand at expanded
  split at expanded
  · contradiction
  · cases Except.ok.inj expanded
    exact headLacks lacks free

theorem referenceLacks (percent : r.encoding = .percent) (blank : isBlank c) {value iri : String}
    (resolved : r.resolveReference value = .ok iri) : Text.Lacks c iri := by
  unfold resolveReference at resolved
  split at resolved
  · contradiction
  · split at resolved
    · rename_i whole
      refine expandedLacks lacks resolved fun mem => ?_
      unfold isNameOrAbsolute at whole
      rw [if_pos (List.any_eq_true.mpr ⟨c, mem, blank⟩)] at whole
      contradiction
    · cases Except.ok.inj resolved
      exact qualifiedLacks lacks (percent ▸ encodedLacks blank value)

end Resolver

end TabularRdf.Iri

namespace TabularRdf.Mapping

def Template.texts (t : Template) : List String := t.segments.filterMap Segment.text?

def Template.Lacks (c : Char) (t : Template) : Prop := ∀ text ∈ t.texts, Text.Lacks c text

instance (c : Char) (t : Template) : Decidable (t.Lacks c) := inferInstanceAs (Decidable (∀ _ ∈ _, _))

theorem Template.segmentLacks {c : Char} {t : Template} (lacks : t.Lacks c) {text : String}
    (mem : .text text ∈ t.segments) : Text.Lacks c text :=
  lacks text (List.mem_filterMap.mpr ⟨_, mem, rfl⟩)

namespace ObjectTerm

def qualifiers (o : ObjectTerm) : List Template :=
  match o.kind with
  | .iri => []
  | .literal => o.datatype.toList ++ o.language.toList

def unescaped (o : ObjectTerm) : List Template :=
  match o.kind with
  | .iri => [o.template]
  | .literal => o.datatype.toList ++ o.language.toList

end ObjectTerm

def TriplesMap.qualifierColumns (m : TriplesMap) : List String :=
  m.written.flatMap fun object => object.qualifiers.flatMap Template.columns

def Specification.Lacks (c : Char) (spec : Specification) : Prop :=
  (∀ p ∈ spec.prefixes, Text.Lacks c p.2) ∧ (∀ base ∈ spec.base, Text.Lacks c base) ∧
    ∀ m ∈ spec.maps, ∀ object ∈ m.written, ∀ t ∈ object.unescaped, t.Lacks c

instance (c : Char) (spec : Specification) : Decidable (spec.Lacks c) := inferInstanceAs (Decidable (_ ∧ _ ∧ _))

end TabularRdf.Mapping

namespace TabularRdf.Generation
open Iri Mapping Rdf Loading

section

variable {c : Char} {row : Row} {encode : String → String} {segments : List Segment}

theorem filledLacks {text : String} (filled : filledAt row encode segments = .ok text)
    (texts : ∀ t, .text t ∈ segments → Text.Lacks c t)
    (values : ∀ name, .column name ∈ segments → ∀ value, row name = .value value → Text.Lacks c (encode value)) :
    Text.Lacks c text := by
  induction segments generalizing text with
  | nil =>
    cases Except.ok.inj filled
    exact List.not_mem_nil
  | cons segment rest ih =>
    simp only [filledNext, boundOk, pureOk] at filled
    obtain ⟨head, given, tail, filled, rfl⟩ := filled
    have later := ih filled (fun t mem => texts t (List.mem_cons_of_mem _ mem))
      fun name mem => values name (List.mem_cons_of_mem _ mem)
    refine Text.lacksAppend.mpr ⟨?_, later⟩
    cases segment with
    | text t =>
      cases Except.ok.inj given
      exact texts _ List.mem_cons_self
    | column name =>
      cases read : row name with
      | value value =>
        simp only [pieceAt, Row.text, read] at given
        cases Except.ok.inj given
        exact values name List.mem_cons_self value read
      | _ => simp [pieceAt, Row.text, read, Except.map] at given

theorem plainLacks {t : Template} (written : t.Lacks c)
    (cells : ∀ name ∈ t.columns, ∀ value, row name = .value value → Text.Lacks c value) {text : String}
    (filled : filledAt row id t.segments = .ok text) : Text.Lacks c text :=
  filledLacks filled (fun _ => Template.segmentLacks written)
    fun name mem => cells name (List.mem_filterMap.mpr ⟨_, mem, rfl⟩)

variable {resolver : Resolver} (lacks : resolver.Lacks c)
include lacks

theorem iriGivenLacks (percent : resolver.encoding = .percent) (blank : Text.isBlank c) {template : Template}
    (written : template.Lacks c) {term : Term} (given : iriReading resolver template row = .ok term) :
    term.Lacks c := by
  have encoded (value : String) : Text.Lacks c (resolver.encoding.encode value) := percent ▸ encodedLacks blank value
  unfold iriReading at given
  split at given
  -- a whole value that is taken for a name or an IRI is not encoded, but has no blank
  · obtain ⟨value, _, given⟩ := boundOk.mp given
    obtain ⟨iri, resolved, same⟩ := boundOk.mp given
    cases pureOk.mp same
    exact Resolver.referenceLacks lacks percent blank resolved
  · rename_i head rest _ segments
    obtain ⟨tail, filled, same⟩ := boundOk.mp given
    cases pureOk.mp same
    have texts (t : String) (mem : .text t ∈ Segment.text head :: rest) : Text.Lacks c t :=
      Template.segmentLacks written (segments ▸ mem)
    refine Text.lacksAppend.mpr ⟨Resolver.headLacks lacks (texts head List.mem_cons_self), ?_⟩
    exact filledLacks filled (fun t mem => texts t (List.mem_cons_of_mem _ mem)) fun _ _ value _ => encoded value
  · obtain ⟨text, filled, given⟩ := boundOk.mp given
    obtain ⟨iri, expanded, same⟩ := boundOk.mp given
    cases pureOk.mp same
    refine Resolver.expandedLacks lacks expanded (filledLacks filled (fun _ => Template.segmentLacks written) ?_)
    exact fun _ _ value _ => encoded value

omit lacks in
theorem madeParts {value : String} {datatype language : Option String} {l : Literal}
    (made : makeLiteral value datatype language = .ok l) : l.datatype = datatype ∧ l.language = language := by
  unfold makeLiteral at made
  split at made
  · contradiction
  · cases datatype <;> cases language <;> cases made <;> exact ⟨rfl, rfl⟩

theorem literalGivenLacks {template : Template} {datatype language : Option Template}
    (written : ∀ t ∈ datatype.toList ++ language.toList, t.Lacks c)
    (cells : ∀ t ∈ datatype.toList ++ language.toList, ∀ name ∈ t.columns, ∀ value,
      row name = .value value → Text.Lacks c value) {term : Term}
    (given : literalReading resolver template datatype language row = .ok term) : term.Lacks c := by
  simp only [literalReading, boundOk, pureOk] at given
  obtain ⟨value, _, type, typed, tag, tagged, l, made, rfl⟩ := given
  obtain ⟨rfl, rfl⟩ := madeParts made
  constructor
  · intro d mem
    obtain ⟨t, listed, given⟩ := givenOrigin typed mem
    obtain ⟨text, filled, expanded⟩ := boundOk.mp given
    have inside := List.mem_append_left language.toList (Option.mem_toList.mpr listed)
    exact Resolver.expandedLacks lacks expanded (plainLacks (written t inside) (cells t inside) filled)
  · intro tag mem
    obtain ⟨t, listed, filled⟩ := givenOrigin tagged mem
    have inside := List.mem_append_right datatype.toList (Option.mem_toList.mpr listed)
    exact plainLacks (written t inside) (cells t inside) filled

theorem objectGivenLacks (percent : resolver.encoding = .percent) (blank : Text.isBlank c) {object : ObjectTerm}
    (written : ∀ t ∈ object.unescaped, t.Lacks c) {table : Table}
    (cells : ∀ t ∈ object.qualifiers, ∀ name ∈ t.columns, ∀ row value,
      Row.ofTable table row name = .value value → Text.Lacks c value) {t : CompiledTerm}
    (compiled : CompiledTerm.object object resolver = .ok t) : t.Gives resolver table (Term.Lacks c) := by
  intro row term resolved
  unfold ObjectTerm.unescaped at written
  unfold ObjectTerm.qualifiers at cells
  unfold CompiledTerm.object at compiled
  cases kind : object.kind with
  | iri =>
    rw [kind] at written compiled
    rw [CompiledTerm.iriRead compiled] at resolved
    exact iriGivenLacks lacks percent blank (written _ (List.mem_singleton_self _)) resolved
  | literal =>
    rw [kind] at written cells compiled
    rw [(CompiledTerm.literalRead compiled).2] at resolved
    exact literalGivenLacks lacks written (fun t mem name listed => cells t mem name listed row) resolved

end

/-- The character is in nothing that is put into IRIs, datatypes and languages as it stands: in no text of the
document or of the description, and in no cell that a datatype or a language is taken from. -/
structure FreeOf (c : Char) (spec : Specification) (options : GenerationOptions) (provider : TableProvider) :
    Prop where
  document : spec.Lacks c
  cells : ∀ m ∈ spec.maps, ∀ name ∈ m.qualifierColumns, ∀ source ∈ m.sources, ∀ table,
    provider source = some table → ∀ row value, table.text? row name = some value → Text.Lacks c value
  described : ∀ metadata ∈ options.dataset, Text.Lacks c metadata.iri
  creators : options.dataset.isSome → ∀ author ∈ spec.authors, ∀ iri,
    creatorOf author = some (.iri iri) → Text.Lacks c iri

theorem cellText {table : Table} {row : Nat} {name value : String}
    (read : Row.ofTable table row name = .value value) : table.text? row name = some value := by
  unfold Row.ofTable cellAt at read
  unfold Table.text?
  split at read
  · contradiction
  · rename_i column found
    split at read
    · rename_i given
      cases Cell.value.inj read
      rw [found]
      exact given
    · contradiction

theorem vocabularyGraphic : ∀ iri ∈ [Vocabulary.rdfType, Vocabulary.dctTitle, Vocabulary.dctCreator,
    Vocabulary.dcatDataset], iri.toList.all fun d => !Text.isBlank d := by
  decide +kernel

theorem outcomeLacks {c : Char} (blank : Text.isBlank c) {spec : Specification} {options : GenerationOptions}
    (percent : options.encoding = .percent) {provider : TableProvider} (free : FreeOf c spec options provider)
    {cancelled : Bool} {outcome : Outcome} (ran : run spec options provider cancelled = .ok outcome) :
    ∀ quad ∈ outcome.quads, quad.Each (Term.Lacks c) := by
  obtain ⟨prefixes, base, templates⟩ := free.document
  have lacks : (resolverOf spec options).Lacks c := ⟨prefixes, base⟩
  refine outcomeGiven (fun s p o subject predicate object => ⟨subject, predicate, object⟩) (fun quads => ?_) ?_ ran
  · refine descriptionGiven (fun iri listed mem => ?_) (fun _ => ⟨nofun, nofun⟩) ?_ free.creators
    · have graphic := List.all_eq_true.mp (vocabularyGraphic iri listed) c mem
      rw [blank] at graphic
      contradiction
    · exact fun metadata asked iri expanded =>
        Resolver.expandedLacks lacks expanded (free.described metadata asked)
  · intro m listed map compiled source read table given t mem
    obtain ⟨object, written, one⟩ := mapFrom compiled t mem
    refine objectGivenLacks lacks percent blank (templates m listed object written) ?_ one
    intro qualifier inside name column row value cell
    have taken : name ∈ m.qualifierColumns :=
      List.mem_flatMap.mpr ⟨object, written, List.mem_flatMap.mpr ⟨qualifier, inside, column⟩⟩
    exact free.cells m listed name taken source read table given row value (cellText cell)

end TabularRdf.Generation

namespace TabularRdf.Document
open Mapping Generation Loading Rdf

/- With percent-encoding a line of a run breaks only where the document, or a datatype or language from a cell, has
a line break, and when these have no blank, no two quads of a run have the same line. -/
theorem linesTellQuads {settings : BuildOptions} {document : Json} {spec : Specification}
    (built : build settings document = .ok spec) {options : GenerationOptions}
    (percent : options.encoding = .percent) {provider : TableProvider} {cancelled : Bool} {outcome : Outcome}
    (ran : run spec options provider cancelled = .ok outcome) :
    (∀ c ∈ ['\n', '\r'], FreeOf c spec options provider → ∀ quad ∈ outcome.quads, c ∉ quad.text.toList) ∧
    (FreeOf ' ' spec options provider → ∀ quad ∈ outcome.quads, ∀ other ∈ outcome.quads,
      quad.text = other.text → quad = other) := by
  constructor
  · intro c breaks free quad mem
    have blank : ['\n', '\r'].all Text.isBlank := by decide
    exact Quad.lineLacks breaks (outcomeLacks (List.all_eq_true.mp blank c breaks) percent free ran quad mem)
  · intro free quad mem other listed same
    obtain ⟨_, _, _, reading⟩ := buildReading built
    have formed := outcomeFormed (readingFormed reading) ran
    have lacks := outcomeLacks (by decide) percent free ran
    exact Quad.lineUnique (formed quad mem) (formed other listed) (lacks quad mem) (lacks other listed) same

def wordDocument (subject : String) (kind : Json.Fields) : Json := .obj [("mappings", .obj [
  ("word", .obj [
    ("sources", .arr [.str "words.csv~csv"]),
    ("s", .str subject),
    ("po", .arr [
      .obj [("p", .str "http://example.org/label"), ("o", .obj (("value", .str "$(word)") :: kind))],
      .obj [("p", .str "http://example.org/label"), ("o", .obj [("value", .str "$(word)"), ("language", .str "en")]),
        ("graphs", .str "http://example.org/g")]])])])]

def wordTable (kind : String) : Table where
  schema := ⟨[⟨"id", .string, false⟩, ⟨"word", .string, false⟩, ⟨"kind", .string, false⟩]⟩
  columns := [.string #[some "1 > .\n"], .string #[some "\x22@en .\r\n"], .string #[some kind]]
  rows := 1

theorem wordKind {kind : String} {row : Nat} {value : String}
    (read : (wordTable kind).text? row "kind" = some value) : value = kind := by
  cases row with
  | zero => exact (Option.some.inj read).symm
  | succ row => cases read

theorem wordsTold : ∃ spec outcome,
    build .default (wordDocument "http://example.org/$(id)" [("language", .str "$(kind)")]) = .ok spec ∧
    run spec .default (fun _ => some (wordTable "de")) false = .ok outcome ∧ outcome.quads.length = 2 ∧
    (∀ c ∈ ['\n', '\r'], ∀ quad ∈ outcome.quads, c ∉ quad.text.toList) ∧
    ∀ quad ∈ outcome.quads, ∀ other ∈ outcome.quads, quad.text = other.text → quad = other := by
  have given : ((build .default (wordDocument "http://example.org/$(id)"
      [("language", .str "$(kind)")])).toOption.bind fun spec =>
        (run spec .default (fun _ => some (wordTable "de")) false).toOption.map fun outcome =>
          (['\n', '\r', ' '].all fun c => spec.Lacks c,
            spec.maps.all fun m => m.qualifierColumns.all fun name => name = "kind", outcome.quads.length)) =
      some (true, true, 2) := by decide +kernel
  obtain ⟨spec, read, rest⟩ := Option.bind_eq_some_iff.mp given
  obtain ⟨outcome, result, checks⟩ := Option.map_eq_some_iff.mp rest
  simp only [Prod.mk.injEq, List.all_eq_true, decide_eq_true_eq] at checks
  obtain ⟨texts, kinds, count⟩ := checks
  have free : ∀ c ∈ ['\n', '\r', ' '], FreeOf c spec .default fun _ => some (wordTable "de") := by
    intro c listed
    have kind : ['\n', '\r', ' '].all fun c => Text.Lacks c "de" := by decide
    refine ⟨texts c listed, fun m mem name column _ _ table given row value cell => ?_, nofun, nofun⟩
    cases Option.some.inj given
    rw [kinds m mem name column] at cell
    exact wordKind cell ▸ of_decide_eq_true (List.all_eq_true.mp kind c listed)
  have built := optionOk.mp read
  have ran := optionOk.mp result
  obtain ⟨breaks, apart⟩ := linesTellQuads built rfl ran
  exact ⟨spec, outcome, built, ran, count, fun c mem => breaks c mem (free c (List.mem_append_left [' '] mem)),
    apart (free ' ' (by decide))⟩

def wordQuads (subject : String) (kind : Json.Fields) (cell : String) : Option (List Quad) :=
  (build .default (wordDocument subject kind)).toOption.bind fun spec =>
    (run spec .default (fun _ => some (wordTable cell)) false).toOption.map Outcome.quads

theorem wordsMade {subject cell : String} {kind : Json.Fields} {quads : List Quad}
    (made : wordQuads subject kind cell = some quads) : ∃ spec outcome,
      build .default (wordDocument subject kind) = .ok spec ∧
      run spec .default (fun _ => some (wordTable cell)) false = .ok outcome ∧ outcome.quads = quads := by
  obtain ⟨spec, read, rest⟩ := Option.bind_eq_some_iff.mp made
  obtain ⟨outcome, result, same⟩ := Option.map_eq_some_iff.mp rest
  exact ⟨spec, outcome, optionOk.mp read, optionOk.mp result, same⟩

def BreaksLine (subject : String) (kind : Json.Fields) (cell : String) : Prop :=
  ∃ spec outcome, build .default (wordDocument subject kind) = .ok spec ∧
    run spec .default (fun _ => some (wordTable cell)) false = .ok outcome ∧
    ∃ quad ∈ outcome.quads, '\n' ∈ quad.text.toList

theorem lineBroken {subject cell : String} {kind : Json.Fields}
    (broken : (wordQuads subject kind cell).map (fun quads => quads.any fun quad => '\n' ∈ quad.text.toList) =
      some true) : BreaksLine subject kind cell := by
  obtain ⟨quads, made, found⟩ := Option.map_eq_some_iff.mp broken
  obtain ⟨spec, outcome, built, ran, rfl⟩ := wordsMade made
  obtain ⟨quad, mem, inside⟩ := List.any_eq_true.mp found
  exact ⟨spec, outcome, built, ran, quad, mem, of_decide_eq_true inside⟩

theorem cellsReachLines :
    BreaksLine "http://example.org/$(id)" [("language", .str "$(kind)")] "e\nn" ∧
    BreaksLine "http://example.org/$(id)" [("datatype", .str "$(kind)")] "http://example.org/a\nb" ∧
    BreaksLine "http://example.org/\n$(id)" [] "en" ∧
    ∃ spec outcome, build .default (wordDocument "http://example.org/$(id)" [("language", .str "$(kind)")]) = .ok spec ∧
      run spec .default (fun _ => some (wordTable "en <http://example.org/g>")) false = .ok outcome ∧
      ∃ quad ∈ outcome.quads, ∃ other ∈ outcome.quads, quad.text = other.text ∧ quad ≠ other := by
  refine ⟨lineBroken (by decide +kernel), lineBroken (by decide +kernel), lineBroken (by decide +kernel), ?_⟩
  have twice : (wordQuads "http://example.org/$(id)" [("language", .str "$(kind)")]
      "en <http://example.org/g>").map (fun quads => quads.any fun quad => quads.any fun other =>
        quad.text = other.text && quad ≠ other) = some true := by decide +kernel
  obtain ⟨quads, made, found⟩ := Option.map_eq_some_iff.mp twice
  obtain ⟨spec, outcome, built, ran, rfl⟩ := wordsMade made
  simp only [List.any_eq_true, Bool.and_eq_true, decide_eq_true_eq] at found
  obtain ⟨quad, mem, other, listed, same, apart⟩ := found
  exact ⟨spec, outcome, built, ran, quad, mem, other, listed, same, apart⟩

end TabularRdf.Document

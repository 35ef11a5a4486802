import TabularRdf.Proofs.TermOutlines
import TabularRdf.Proofs.WellFormedTerms

/-! Terms read without slots. A template says by itself what it gives in a row: its columns are read by name, from
left to right, and what is wrong with the row is the first fault met on the way. Compiling it to numbered slots
changes neither the term nor the fault. -/
namespace TabularRdf.Generation
open Iri Mapping Rdf Loading

namespace Row

def text (row : Row) (name : String) : Except TermFailure String :=
  match row name with
  | .value text => .ok text
  | .null => .error (.nullValue name)
  | .missing => .error (.missingColumn name)

def textOrEmpty (row : Row) (name : String) : String :=
  match row name with
  | .value text => text
  | .null | .missing => ""

def fault? (row : Row) (name : String) : Option TermFailure :=
  match row name with
  | .value _ => none
  | .null => some (.nullValue name)
  | .missing => some (.missingColumn name)

theorem textFailure (row : Row) (name : String) : errorOf (row.text name) = row.fault? name := by
  unfold text fault?
  cases row name <;> rfl

theorem textGiven {row : Row} {name value : String} (given : row.text name = .ok value) :
    row.textOrEmpty name = value := by
  unfold text at given
  unfold textOrEmpty
  split at given
  · exact Except.ok.inj given
  · cases given
  · cases given

end Row

section

variable (row : Row) (encode : String → String)

def pieceAt : Segment → Except TermFailure String
  | .text t => .ok t
  | .column name => (row.text name).map encode

def filledAt (segments : List Segment) : Except TermFailure String :=
  (segments.mapM (pieceAt row encode)).map String.join

def pieceText : Segment → String
  | .text t => t
  | .column name => encode (row.textOrEmpty name)

def textAt (segments : List Segment) : String := String.join (segments.map (pieceText row encode))

def columnFaults (segments : List Segment) : List TermFailure :=
  (segments.filterMap Segment.column?).filterMap row.fault?

end

/- The IRI of a template. A single placeholder is a reference of its own. Text in front of a placeholder is
expanded and the rest put behind it. Text alone, and a template that starts with a placeholder, is expanded as a
whole. -/
def iriReading (resolver : Resolver) (template : Template) (row : Row) : Except TermFailure Term :=
  match template.constant?, template.segments with
  | none, [.column name] => do
    let value ← row.text name
    let iri ← resolver.resolveReference value
    return .iri iri
  | none, .text head :: rest => do
    let tail ← filledAt row resolver.encoding.encode rest
    return .iri (resolver.expandHead head ++ tail)
  | _, segments => do
    let text ← filledAt row resolver.encoding.encode segments
    let iri ← resolver.expand text
    return .iri iri

def datatypeReading (resolver : Resolver) (row : Row) (template : Template) : Except TermFailure String := do
  let text ← filledAt row id template.segments
  resolver.expand text

def literalReading (resolver : Resolver) (template : Template) (datatype language : Option Template) (row : Row) :
    Except TermFailure Term := do
  let value ← filledAt row id template.segments
  let datatype ← datatype.mapM (datatypeReading resolver row)
  let language ← language.mapM fun t => filledAt row id t.segments
  let literal ← makeLiteral value datatype language
  return .literal literal

def emptyFaults (text : String) : List TermFailure := if text = "" then [.invalid .emptyIri] else []

def iriFaults (resolver : Resolver) (template : Template) (row : Row) : List TermFailure :=
  columnFaults row template.segments ++
    match template.constant?, template.segments with
    | none, .text _ :: _ => []
    | _, segments => emptyFaults (textAt row resolver.encoding.encode segments)

def checkFaults (value : String) (datatype language : Option String) : List TermFailure :=
  if language = some "" then [.invalid .emptyLanguage]
  else match datatype, language with
    | some datatype, some language => [.invalid (.malformed (.datatypeAndLanguage value datatype language))]
    | _, _ => []

def datatypeFaults (row : Row) (template : Template) : List TermFailure :=
  columnFaults row template.segments ++ emptyFaults (textAt row id template.segments)

def literalFaults (resolver : Resolver) (template : Template) (datatype language : Option Template) (row : Row) :
    List TermFailure :=
  columnFaults row template.segments ++ (datatype.toList.flatMap (datatypeFaults row) ++
    ((language.toList.flatMap fun t => columnFaults row t.segments) ++
      checkFaults (textAt row id template.segments)
        (datatype.map fun t => resolver.expandHead (textAt row id t.segments))
        (language.map fun t => textAt row id t.segments)))

section

variable {row : Row} {encode : String → String} {segments : List Segment} {resolver : Resolver}

theorem filledNext (segment : Segment) : filledAt row encode (segment :: segments) = (do
    let text ← pieceAt row encode segment
    let rest ← filledAt row encode segments
    return text ++ rest) := by
  unfold filledAt
  rw [List.mapM_cons]
  cases pieceAt row encode segment with
  | error e => rfl
  | ok text =>
    cases segments.mapM (pieceAt row encode) with
    | error e => rfl
    | ok rest => exact congrArg Except.ok String.join_cons

theorem pieceGiven {segment : Segment} {text : String} (given : pieceAt row encode segment = .ok text) :
    pieceText row encode segment = text := by
  cases segment with
  | text t => exact Except.ok.inj given
  | column name =>
    rw [pieceAt] at given
    cases read : row.text name with
    | error e => rw [read] at given; cases given
    | ok value =>
      rw [read] at given
      exact (congrArg encode (Row.textGiven read)).trans (Except.ok.inj given)

theorem filledGiven {text : String} (filled : filledAt row encode segments = .ok text) :
    textAt row encode segments = text := by
  induction segments generalizing text with
  | nil => exact Except.ok.inj filled
  | cons segment rest ih =>
    simp only [filledNext, boundOk, pureOk] at filled
    obtain ⟨head, given, tail, filled, rfl⟩ := filled
    have later := ih filled
    rw [textAt] at later ⊢
    rw [List.map_cons, String.join_cons, later, pieceGiven given]

theorem pieceFailure (segment : Segment) :
    errorOf (pieceAt row encode segment) = ((segment.column?.bind row.fault?).toList).head? := by
  cases segment with
  | text t => rfl
  | column name =>
    rw [pieceAt, Segment.column?, Option.bind_some, ← Row.textFailure, Option.head?_toList]
    cases row.text name <;> rfl

theorem filledFailure (segments : List Segment) :
    errorOf (filledAt row encode segments) = (columnFaults row segments).head? := by
  have joined : errorOf (filledAt row encode segments) = errorOf (segments.mapM (pieceAt row encode)) := by
    unfold filledAt
    cases segments.mapM (pieceAt row encode) <;> rfl
  rw [joined, failureMapped fun segment _ => pieceFailure segment, columnFaults, List.filterMap_filterMap,
    List.filterMap_eq_flatMap_toList]

theorem filledPlain (plain : segments.all fun s => s.text?.isSome) :
    filledAt row encode segments = .ok (String.join (segments.filterMap Segment.text?)) := by
  induction segments with
  | nil => rfl
  | cons segment rest ih =>
    rw [List.all_cons, Bool.and_eq_true] at plain
    rw [filledNext, ih plain.2]
    cases segment with
    | text t => exact congrArg Except.ok String.join_cons.symm
    | column name => cases plain.1

theorem filledConstant {template : Template} {text : String} (constant : template.constant? = some text) :
    filledAt row encode template.segments = .ok text := by
  unfold Template.constant? at constant
  split at constant
  · rename_i plain
    cases Option.some.inj constant
    exact filledPlain plain
  · contradiction

theorem columnVaries {template : Template} {name : String} (mem : name ∈ template.columns) :
    template.constant? = none := by
  obtain ⟨s, listed, column⟩ := List.mem_filterMap.mp mem
  cases s with
  | text t => cases column
  | column written => exact if_neg fun plain => Template.constantExactly.mp plain written listed

theorem expansionFailure (text : String) : errorOf (resolver.expand text) = (emptyFaults text).head? := by
  unfold Resolver.expand emptyFaults
  simp only [String.isEmpty_iff]
  split <;> rfl

theorem encodedFaults (value : String) : emptyFaults (resolver.encoding.encode value) = emptyFaults value := by
  simp only [emptyFaults, ← String.isEmpty_iff, encodedEmpty]

theorem referenceFailure (value : String) :
    errorOf (resolver.resolveReference value) = (emptyFaults value).head? := by
  unfold Resolver.resolveReference
  simp only [String.isEmpty_iff]
  split
  · rename_i blank
    simp [emptyFaults, blank, errorOf]
  · rename_i filled
    split
    · exact expansionFailure value
    · simp [emptyFaults, filled, errorOf]

theorem expandedReadingFailure {α : Type} {f : String → α} (segments : List Segment) :
    errorOf (do
      let text ← filledAt row encode segments
      let iri ← resolver.expand text
      return f iri) = (columnFaults row segments ++ emptyFaults (textAt row encode segments)).head? := by
  refine failureBound (filledFailure segments) fun text filled => ?_
  rw [filledGiven filled]
  exact failureFinished.trans (expansionFailure text)

theorem singleFailure (name : String) : errorOf (do
      let value ← row.text name
      let iri ← resolver.resolveReference value
      return Term.iri iri) =
    (columnFaults row [.column name] ++ emptyFaults (textAt row resolver.encoding.encode [.column name])).head? := by
  have here : errorOf (row.text name) = (columnFaults row [.column name]).head? := by
    rw [Row.textFailure]
    cases fault : row.fault? name <;> simp [columnFaults, Segment.column?, fault]
  refine failureBound here fun value given => ?_
  have text : textAt row resolver.encoding.encode [.column name] = resolver.encoding.encode value := by
    simp [textAt, pieceText, Row.textGiven given]
  rw [text, encodedFaults]
  exact failureFinished.trans (referenceFailure value)

theorem iriReadingFailure (template : Template) :
    errorOf (iriReading resolver template row) = (iriFaults resolver template row).head? := by
  unfold iriReading iriFaults
  split
  · rename_i name varies single
    rw [varies, single]
    exact singleFailure name
  · rename_i head rest varies headed
    rw [varies, headed]
    exact failureFinished.trans ((filledFailure rest).trans (congrArg List.head? (List.append_nil _).symm))
  · rename_i notHeaded
    split
    · rename_i varies headed
      exact absurd headed (notHeaded _ _ varies)
    · exact expandedReadingFailure template.segments

theorem checkFailure (value : String) (datatype language : Option String) :
    errorOf (makeLiteral value datatype language) = (checkFaults value datatype language).head? := by
  unfold makeLiteral checkFaults
  split
  · rfl
  · cases datatype <;> cases language <;> rfl

theorem datatypeReadingFailure (template : Template) :
    errorOf (datatypeReading resolver row template) = (datatypeFaults row template).head? := by
  refine failureBound (filledFailure template.segments) fun text filled => ?_
  rw [filledGiven filled]
  exact expansionFailure text

theorem optionalFailure {f : Template → Except TermFailure String} {faults : Template → List TermFailure}
    (each : ∀ t, errorOf (f t) = (faults t).head?) (template : Option Template) :
    errorOf (template.mapM f) = (template.toList.flatMap faults).head? := by
  cases template with
  | none => rfl
  | some t => exact failureFinished.trans ((each t).trans (by simp))

theorem optionalGiven {f : Template → Except TermFailure String} {g : Template → String}
    (each : ∀ t text, f t = .ok text → g t = text) {template : Option Template} {text : Option String}
    (given : template.mapM f = .ok text) : template.map g = text := by
  cases template with
  | none => exact Except.ok.inj given
  | some t =>
    obtain ⟨text, read, same⟩ := boundOk.mp given
    cases pureOk.mp same
    exact congrArg some (each t text read)

theorem datatypeGiven {template : Template} {datatype : String}
    (given : datatypeReading resolver row template = .ok datatype) :
    resolver.expandHead (textAt row id template.segments) = datatype := by
  obtain ⟨text, filled, expanded⟩ := boundOk.mp given
  unfold Resolver.expand at expanded
  split at expanded
  · contradiction
  · rw [filledGiven filled]
    exact Except.ok.inj expanded

theorem literalReadingFailure (template : Template) (datatype language : Option Template) :
    errorOf (literalReading resolver template datatype language row) =
      (literalFaults resolver template datatype language row).head? := by
  refine failureBound (filledFailure template.segments) fun value filled => ?_
  refine failureBound (optionalFailure (fun _ => datatypeReadingFailure _) datatype) fun type typed => ?_
  refine failureBound (optionalFailure (fun t => filledFailure t.segments) language) fun tag tagged => ?_
  rw [filledGiven filled, optionalGiven (fun _ _ => datatypeGiven) typed, optionalGiven (fun _ _ => filledGiven) tagged]
  exact failureFinished.trans (checkFailure value type tag)

end

/-! Slots. -/

def Pattern.slots (pattern : Pattern) : List Nat :=
  pattern.filterMap fun
    | .text _ => none
    | .slot slot => some slot

def Qualifier.slots : Option Qualifier → List Nat
  | some (.perRow pattern) => pattern.slots
  | some (.fixed _) | none => []

def Shape.slots : Shape → List Nat
  | .constant _ => []
  | .wholeValue slot => [slot]
  | .headed _ rest => rest.slots
  | .filled pattern => pattern.slots
  | .literal value datatype language => value.slots ++ Qualifier.slots datatype ++ Qualifier.slots language

namespace Pattern

variable {row : Row} {encode : String → String}

theorem slotNamed (name : String) (columns : List String) :
    columns <+: (slotOf name columns).2 ∧ (slotOf name columns).2[(slotOf name columns).1]? = some name := by
  unfold slotOf
  split
  · rename_i slot found
    obtain ⟨bound, same, _⟩ := List.idxOf?_eq_some_iff.mp found
    exact ⟨List.prefix_refl _, by rw [List.getElem?_eq_getElem bound, same]⟩
  · exact ⟨List.prefix_append _ _, by simp⟩

theorem slotKept {columns all : List String} (inside : columns <+: all) {slot : Nat} {name : String}
    (named : columns[slot]? = some name) : all[slot]? = some name := by
  obtain ⟨rest, rfl⟩ := inside
  rw [List.getElem?_append_left (List.getElem?_eq_some_iff.mp named).1, named]

theorem slotRead {columns : List String} {slot : Nat} {name : String} (named : columns[slot]? = some name) :
    slotText columns (columns.map row) slot = row.text name := by
  unfold slotText Row.text
  rw [List.getElem?_map, named, Option.map_some]
  cases row name <;> rfl

theorem compiledKeeps (segments : List Segment) (columns : List String) :
    columns <+: (compile segments columns).2 := by
  induction segments generalizing columns with
  | nil => exact List.prefix_refl _
  | cons segment rest ih =>
    cases segment with
    | text t => exact ih columns
    | column name => exact (slotNamed name columns).1.trans (ih _)

theorem compiledRender (segments : List Segment) {columns all : List String}
    (inside : (compile segments columns).2 <+: all) :
    render all (all.map row) encode (compile segments columns).1 = filledAt row encode segments := by
  induction segments generalizing columns with
  | nil => rfl
  | cons segment rest ih =>
    cases segment with
    | text t =>
      rw [filledNext, ← ih inside]
      rfl
    | column name =>
      have named := slotKept ((compiledKeeps rest _).trans inside) (slotNamed name columns).2
      rw [filledNext, pieceAt, ← ih inside, compile, render, slotRead named]
      cases row.text name <;> rfl

theorem compiledSlots (segments : List Segment) (columns : List String) :
    ∀ slot ∈ slots (compile segments columns).1, slot < (compile segments columns).2.length := by
  induction segments generalizing columns with
  | nil => exact List.forall_mem_nil _
  | cons segment rest ih =>
    cases segment with
    | text t => exact ih columns
    | column name =>
      refine List.forall_mem_cons.mpr ⟨?_, ih _⟩
      have named := slotKept (compiledKeeps rest _) (slotNamed name columns).2
      exact (List.getElem?_eq_some_iff.mp named).1

end Pattern

namespace Qualifier

variable {resolver : Resolver} {qualifier : Option Qualifier} {columns : List String}

theorem datatypeRead {template : Option Template}
    (compiled : datatype? resolver template = .ok (qualifier, columns)) :
    (∀ slot ∈ slots qualifier, slot < columns.length) ∧ ∀ (row : Row) all, columns <+: all →
      atRow all (all.map row) resolver.expand qualifier = template.mapM (datatypeReading resolver row) := by
  cases template with
  | none =>
    cases Except.ok.inj compiled
    exact ⟨List.forall_mem_nil _, fun _ _ _ => rfl⟩
  | some t =>
    obtain ⟨⟨q, _⟩, one, same⟩ := boundOk.mp compiled
    cases pureOk.mp same
    unfold ofDatatype at one
    split at one
    · rename_i text constant
      obtain ⟨iri, expanded, same⟩ := boundOk.mp one
      cases pureOk.mp same
      refine ⟨List.forall_mem_nil _, fun row all _ => ?_⟩
      have read : datatypeReading resolver row t = .ok iri :=
        boundOk.mpr ⟨text, filledConstant constant, templateOk expanded⟩
      rw [Option.mapM_some, read]
      rfl
    · cases pureOk.mp one
      refine ⟨Pattern.compiledSlots _ _, fun row all inside => ?_⟩
      rw [atRow, Pattern.compiledRender t.segments inside, Option.mapM_some, datatypeReading]
      cases filledAt row id t.segments <;> rfl

theorem languageRead {template : Option Template} {before : List String}
    (compiled : language? before template = (qualifier, columns)) :
    before <+: columns ∧ (∀ slot ∈ slots qualifier, slot < columns.length) ∧ ∀ (row : Row) all, columns <+: all →
      atRow all (all.map row) .ok qualifier = template.mapM fun t => filledAt row id t.segments := by
  cases template with
  | none =>
    cases compiled
    exact ⟨List.prefix_refl _, List.forall_mem_nil _, fun _ _ _ => rfl⟩
  | some t =>
    simp only [language?, ofLanguage] at compiled
    split at compiled
    · rename_i text constant
      cases compiled
      refine ⟨List.prefix_refl _, List.forall_mem_nil _, fun row all _ => ?_⟩
      rw [Option.mapM_some, filledConstant constant]
      rfl
    · cases compiled
      refine ⟨Pattern.compiledKeeps _ _, Pattern.compiledSlots _ _, fun row all inside => ?_⟩
      rw [atRow, Pattern.compiledRender t.segments inside, Option.mapM_some]
      cases filledAt row id t.segments <;> rfl

theorem fixedRead {text : Option String} (fixed : fixed? qualifier = some text) (cells : List Cell)
    (finish : String → Except TermFailure String) : atRow columns cells finish qualifier = .ok text := by
  unfold fixed? at fixed
  split at fixed
  · exact congrArg Except.ok (Option.some.inj fixed)
  · exact congrArg Except.ok (Option.some.inj fixed)
  · contradiction

end Qualifier

namespace CompiledTerm

/-- A compiled term looks up no slot that it does not have; it gives, by name as well as by the columns of a table,
what the template gives; and a row that gives nothing is refused for the first fault. -/
structure ReadsAs (t : CompiledTerm) (resolver : Resolver) (reading : Row → Except TermFailure Term)
    (faults : Row → List TermFailure) : Prop where
  slots : ∀ slot ∈ t.shape.slots, slot < t.columns.length
  rows : ∀ row, t.resolve resolver row = reading row
  column : ∀ table, t.materializeColumn resolver table =
    (List.range table.rows).map fun row => reading (Row.ofTable table row)
  first : ∀ row, errorOf (t.resolve resolver row) = (faults row).head?

variable {resolver : Resolver} {t : CompiledTerm}

theorem columnRead {reading : Row → Except TermFailure Term} (rows : ∀ row, t.resolve resolver row = reading row)
    (table : Table) : t.materializeColumn resolver table =
      (List.range table.rows).map fun row => reading (Row.ofTable table row) :=
  List.map_congr_left fun row _ => (t.atRowBind resolver table row).trans (rows _)

theorem iriSlots {template : Template} (compiled : iri template resolver = .ok t) :
    ∀ slot ∈ t.shape.slots, slot < t.columns.length := by
  unfold iri at compiled
  split at compiled
  · obtain ⟨_, _, same⟩ := boundOk.mp compiled
    cases pureOk.mp same
    exact List.forall_mem_nil _
  · split at compiled
    · cases pureOk.mp compiled
      exact List.forall_mem_singleton.mpr Nat.zero_lt_one
    · cases pureOk.mp compiled
      exact Pattern.compiledSlots _ _
    · cases pureOk.mp compiled
      exact Pattern.compiledSlots _ _

theorem singleRead (name : String) (row : Row) : resolve ⟨.wholeValue 0, [name]⟩ resolver row = (do
    let value ← row.text name
    let iri ← resolver.resolveReference value
    return Term.iri iri) := by
  have read : Pattern.slotText [name] ([name].map row) 0 = row.text name := Pattern.slotRead rfl
  rw [← read]
  rfl

theorem iriRead {template : Template} (compiled : iri template resolver = .ok t) (row : Row) :
    t.resolve resolver row = iriReading resolver template row := by
  unfold iri at compiled
  unfold iriReading
  split at compiled
  · rename_i text constant
    obtain ⟨iri, expanded, same⟩ := boundOk.mp compiled
    cases pureOk.mp same
    have whole : (do
        let text ← filledAt row resolver.encoding.encode template.segments
        let iri ← resolver.expand text
        return Term.iri iri) = Except.ok (.iri iri) :=
      boundOk.mpr ⟨text, filledConstant constant, boundOk.mpr ⟨iri, templateOk expanded, rfl⟩⟩
    rw [constant]
    exact whole.symm
  · rename_i varies
    rw [varies]
    split at compiled
    · rename_i name single
      cases pureOk.mp compiled
      rw [single]
      exact singleRead name row
    · rename_i head rest headed
      cases pureOk.mp compiled
      rw [headed]
      dsimp only
      rw [← Pattern.compiledRender rest (List.prefix_refl _)]
      rfl
    · rename_i notSingle notHeaded
      cases pureOk.mp compiled
      split
      · rename_i single
        exact absurd single (notSingle _)
      · rename_i headed
        exact absurd headed (notHeaded _ _)
      · rw [← Pattern.compiledRender template.segments (List.prefix_refl _)]
        rfl

theorem literalRead {template : Template} {datatype language : Option Template}
    (compiled : literal template datatype language resolver = .ok t) :
    (∀ slot ∈ t.shape.slots, slot < t.columns.length) ∧
      ∀ row, t.resolve resolver row = literalReading resolver template datatype language row := by
  simp only [literal, boundOk] at compiled
  obtain ⟨⟨type, typeColumns⟩, typed, compiled⟩ := compiled
  -- columns are numbered for the datatype first, then the language, then the value; each list keeps the one before
  -- in front, and so every part still finds its slots in the last
  obtain ⟨typeSlots, typeRead⟩ := Qualifier.datatypeRead typed
  dsimp only at compiled
  obtain ⟨tagKeeps, tagSlots, tagRead⟩ :=
    Qualifier.languageRead (Prod.eta (Qualifier.language? typeColumns language)).symm
  split at compiled
  · rename_i value typeText tagText constant fixed tagged
    obtain ⟨l, made, same⟩ := boundOk.mp compiled
    cases pureOk.mp same
    refine ⟨List.forall_mem_nil _, fun row => ?_⟩
    have type := (typeRead row _ (List.prefix_refl _)).symm.trans (Qualifier.fixedRead fixed _ _)
    have tag := (tagRead row _ (List.prefix_refl _)).symm.trans (Qualifier.fixedRead tagged _ _)
    rw [literalReading, filledConstant constant, type, tag]
    change _ = (do
      let literal ← makeLiteral value typeText tagText
      return Term.literal literal)
    rw [templateOk made]
    rfl
  · cases pureOk.mp compiled
    have keeps := Pattern.compiledKeeps template.segments (Qualifier.language? typeColumns language).2
    constructor
    · intro slot mem
      rcases List.mem_append.mp mem with before | tag
      · rcases List.mem_append.mp before with value | type
        · exact Pattern.compiledSlots _ _ slot value
        · exact (typeSlots slot type).trans_le (tagKeeps.trans keeps).length_le
      · exact (tagSlots slot tag).trans_le keeps.length_le
    · intro row
      rw [literalReading, ← typeRead row _ (tagKeeps.trans keeps), ← tagRead row _ keeps,
        ← Pattern.compiledRender template.segments (List.prefix_refl _)]
      rfl

theorem readsDirectly (resolver : Resolver) (template : Template) :
    (∀ t, iri template resolver = .ok t →
      t.ReadsAs resolver (iriReading resolver template) (iriFaults resolver template)) ∧
    ∀ datatype language t, literal template datatype language resolver = .ok t →
      t.ReadsAs resolver (literalReading resolver template datatype language)
        (literalFaults resolver template datatype language) := by
  constructor
  · intro t compiled
    have rows := iriRead compiled
    exact ⟨iriSlots compiled, rows, columnRead rows, fun row => rows row ▸ iriReadingFailure template⟩
  · intro datatype language t compiled
    obtain ⟨slots, rows⟩ := literalRead compiled
    exact ⟨slots, rows, columnRead rows, fun row => rows row ▸ literalReadingFailure template datatype language⟩

end CompiledTerm

def amountsTable : Table where
  schema := ⟨[⟨"amount", .int64, true⟩, ⟨"unit", .string, true⟩]⟩
  columns := [.int64 #[some 12, none, some 3, some 4], .string #[some "ex:km", none, none, some ""]]
  rows := 4

def amountTemplate : Template := ⟨"$(amount) $(unit)", [.column "amount", .text " ", .column "unit"]⟩

def unitTemplate : Template := ⟨"$(unit)", [.column "unit"]⟩

def amountResolver : Resolver := ⟨[("ex", "http://example.org/")], none, .percent⟩

theorem amountsReadDirectly :
    (∃ t, CompiledTerm.iri unitTemplate amountResolver = .ok t ∧
      t.materializeColumn amountResolver amountsTable = [.ok (.iri "http://example.org/km"),
        .error (.nullValue "unit"), .error (.nullValue "unit"), .error (.invalid .emptyIri)] ∧
      t.ReadsAs amountResolver (iriReading amountResolver unitTemplate) (iriFaults amountResolver unitTemplate)) ∧
    ∃ t, CompiledTerm.literal amountTemplate (some unitTemplate) none amountResolver = .ok t ∧
      t.columns = ["unit", "amount"] ∧
      t.materializeColumn amountResolver amountsTable =
        [.ok (.literal (.typed "12 ex:km" "http://example.org/km")), .error (.nullValue "amount"),
          .error (.nullValue "unit"), .error (.invalid .emptyIri)] ∧
      t.ReadsAs amountResolver (literalReading amountResolver amountTemplate (some unitTemplate) none)
        (literalFaults amountResolver amountTemplate (some unitTemplate) none) := by
  constructor
  · have given : (CompiledTerm.iri unitTemplate amountResolver).toOption.map
        (fun t => t.materializeColumn amountResolver amountsTable) =
        some [.ok (.iri "http://example.org/km"), .error (.nullValue "unit"), .error (.nullValue "unit"),
          .error (.invalid .emptyIri)] := by decide +kernel
    obtain ⟨t, compiled, rows⟩ := Option.map_eq_some_iff.mp given
    have done := optionOk.mp compiled
    exact ⟨t, done, rows, (CompiledTerm.readsDirectly amountResolver unitTemplate).1 t done⟩
  · have given : (CompiledTerm.literal amountTemplate (some unitTemplate) none amountResolver).toOption.map
        (fun t => (t.columns, t.materializeColumn amountResolver amountsTable)) =
        some (["unit", "amount"], [.ok (.literal (.typed "12 ex:km" "http://example.org/km")),
          .error (.nullValue "amount"), .error (.nullValue "unit"), .error (.invalid .emptyIri)]) := by decide +kernel
    obtain ⟨t, compiled, same⟩ := Option.map_eq_some_iff.mp given
    obtain ⟨columns, rows⟩ := Prod.mk.inj same
    have done := optionOk.mp compiled
    exact ⟨t, done, columns, rows, (CompiledTerm.readsDirectly amountResolver amountTemplate).2 _ _ t done⟩

end TabularRdf.Generation

import TabularRdf.Proofs.JoinRows
import TabularRdf.Proofs.LockStep
import TabularRdf.Proofs.Noninterference
import TabularRdf.Proofs.RunFailures
import TabularRdf.Proofs.TermOutlines

/-! A run under another encoding of IRIs. As long as nothing is quoted by its predicate or its graph, row by row
the same terms are built and the same is reported, and only the texts of IRIs differ. -/
namespace TabularRdf.Generation
open Iri Mapping Rdf Loading

structure MapOutput.SameOutline (output result : MapOutput) : Prop where
  quads : output.quads.toList.map Quad.outline = result.quads.toList.map Quad.outline
  spans : output.spans = result.spans
  rows : output.rows = result.rows
  quotedQuads : output.quotedQuads = result.quotedQuads
  diagnostics : output.diagnostics = result.diagnostics

structure SubjectIndex.SameOutlines (index other : SubjectIndex) : Prop where
  subjects : ∀ position, (index.subjectsAt position).map Term.outline =
    (other.subjectsAt position).map Term.outline
  keys : index.keys = other.keys

structure JoinContext.SameOutlines (left right : JoinContext) : Prop where
  outputs : Aligned MapOutput.SameOutline left.outputs right.outputs
  quotes : left.quoteIndexes = right.quoteIndexes
  subjects : ∀ key, Option.Rel SubjectIndex.SameOutlines (left.subjectIndexes.lookup key)
    (right.subjectIndexes.lookup key)

def SameView {α β : Type} (view : α → β) (x y : Reported α) : Prop := view x.1 = view y.1 ∧ x.2 = y.2

theorem viewEmpty {α β : Type} {view : α → β} {x y : Reported (List α)} (same : SameView (List.map view) x y) :
    x.1.isEmpty = y.1.isEmpty := by
  rw [← List.isEmpty_map (f := view), same.1, List.isEmpty_map]

section

variable {output result : MapOutput} (same : output.SameOutline result)
include same

theorem rowOutlines (position : Position) :
    (output.rowQuads position).map Quad.outline = (result.rowQuads position).map Quad.outline := by
  have spans : output.span? position = result.span? position := by
    rw [MapOutput.span?, MapOutput.span?, same.spans]
  rw [MapOutput.rowQuads, MapOutput.rowQuads, spans]
  split
  · simp only [Array.toList_extract, List.extract_eq_take_drop, List.map_take, List.map_drop, same.quads]
  · rfl

theorem quotedOutlines {filter : QuoteFilter} (unfiltered : filter.isEmpty) (positions : List Position) :
    (output.quoteRows positions filter).map Term.outline = (result.quoteRows positions filter).map Term.outline := by
  have accepted (quad : Quad) : filter.accepts quad = true := by
    simp only [QuoteFilter.isEmpty, Bool.and_eq_true] at unfiltered
    simp [QuoteFilter.accepts, QuoteFilter.passes, unfiltered.1, unfiltered.2]
  have read (quads : List Quad) : (quads.filterMap fun quad =>
      if quad.hasQuoted || !filter.accepts quad then none else quad.quote.toOption).map Term.outline =
      (quads.map Quad.outline).filterMap fun quad => if quad.hasQuoted then none else quad.quote.toOption := by
    rw [List.map_filterMap, List.filterMap_map]
    refine List.filterMap_congr fun quad _ => ?_
    simp only [Function.comp_apply, accepted, outlineHasQuoted, outlineQuote, Bool.not_true, Bool.or_false]
    split <;> rfl
  simp only [MapOutput.quoteRows, List.map_flatMap, read, rowOutlines same]

end

section

variable {index other : SubjectIndex} (same : index.SameOutlines other)
include same

theorem keyedOutlines (key : List String) :
    (index.byKey key).map Term.outline = (other.byKey key).map Term.outline := by
  rw [SubjectIndex.byKey, SubjectIndex.byKey, same.keys]
  split
  · simp only [List.map_flatMap, same.subjects]
  · rfl

end

section

variable {left right : JoinContext} (same : left.SameOutlines right)
include same

theorem quotedTermOutlines {q : QuotedRef} (unfiltered : q.filter.isEmpty) (probe : Probe) (position : Position) :
    (left.quotedTerms q probe position).map Term.outline = (right.quotedTerms q probe position).map Term.outline := by
  have seen := same.outputs q.mapping
  simp only [JoinContext.quotedTerms, same.quotes]
  generalize left.outputs.lookup q.mapping = output at seen
  generalize right.outputs.lookup q.mapping = result at seen
  cases seen with
  | none => rfl
  | some related =>
    cases probe with
    | positional => exact quotedOutlines related unfiltered _
    | unbound => rfl
    | keyed columns =>
      dsimp only
      split
      · exact quotedOutlines related unfiltered _
      · rfl

theorem referencedOutlines (r : MappingRef) (probe : Probe) (position : Position) :
    (left.referencedSubjects r probe position).map Term.outline =
      (right.referencedSubjects r probe position).map Term.outline := by
  have seen := same.subjects (indexKey r.mapping r.condition)
  simp only [JoinContext.referencedSubjects]
  generalize left.subjectIndexes.lookup _ = index at seen
  generalize right.subjectIndexes.lookup _ = other at seen
  cases seen with
  | none => rfl
  | some related =>
    cases probe with
    | positional => exact related.subjects _
    | unbound => rfl
    | keyed columns =>
      dsimp only
      split
      · exact keyedOutlines related _
      · rfl

end

theorem joinedOutlines {reference : String} {terms others : List Term}
    (same : terms.map Term.outline = others.map Term.outline) :
    SameView (List.map Term.outline) (joined reference terms) (joined reference others) := by
  have empty : terms.isEmpty = others.isEmpty := viewEmpty (x := (terms, [])) (y := (others, [])) ⟨same, rfl⟩
  exact ⟨same, by rw [joined, joined, empty]⟩

theorem givenOutline (x : Except TermFailure Term) :
    x.toOption.map Term.outline = (x.map Term.outline).toOption := by
  cases x <;> rfl

section

variable (resolver : Resolver) (encoding : Encoding) (row : Nat)

theorem termOutline (b : BoundTerm) : (b.atRow resolver row).map Term.outline =
    (b.atRow { resolver with encoding } row).map Term.outline := builtAlike resolver encoding b.term _

theorem termOutlines (terms : List BoundTerm) : SameView (List.map Term.outline)
    (termsAt resolver row terms) (termsAt { resolver with encoding } row terms) := by
  have failed (x : Except TermFailure Term) : failureOf x = failureOf (x.map Term.outline) := by
    cases x <;> rfl
  constructor
  · simp only [termsAt, List.filterMap_map, List.map_filterMap, Function.comp_def, givenOutline,
      termOutline resolver encoding]
  · simp only [termsAt, List.filterMap_map, Function.comp_def]
    refine List.filterMap_congr fun b _ => ?_
    rw [failed, termOutline resolver encoding, ← failed]

theorem graphOutlines (terms : List BoundTerm) : SameView (List.map graphOutline)
    (graphsAt resolver row terms) (graphsAt { resolver with encoding } row terms) := by
  obtain ⟨same, reports⟩ := termOutlines resolver encoding row terms
  unfold graphsAt
  split
  · exact ⟨rfl, rfl⟩
  · have read (terms : List Term) : (terms.filterMap fun t => t.iri?.map some).map graphOutline =
        (terms.map Term.outline).filterMap fun t => t.iri?.map some := by
      rw [List.map_filterMap, List.filterMap_map]
      refine List.filterMap_congr fun t _ => ?_
      cases t <;> rfl
    exact ⟨by simp only [read, same], reports⟩

end

structure CompiledMap.Unfiltered (map : CompiledMap) : Prop where
  subject : ∀ q, map.subjects = .quoted q → q.filter.isEmpty
  entries : ∀ entry ∈ map.entries, ∀ q, entry.object = .quoted q → q.filter.isEmpty

def RowEntry.outline (entry : RowEntry) : RowEntry :=
  ⟨entry.predicate.outline, entry.objects.map Term.outline, entry.inverse.map Term.outline,
    entry.graphs.map graphOutline⟩

theorem entryOutline (entry : RowEntry) (subject : Term) :
    (entry.quads subject).map Quad.outline = entry.outline.quads subject.outline := by
  simp only [RowEntry.quads, RowEntry.outline, List.map_flatMap, List.flatMap_map, List.map_cons, List.map_map,
    Option.toList_map]
  rfl

theorem productOutline (subjects : List Term) (entries : List RowEntry) :
    (subjects.flatMap fun subject => entries.flatMap fun entry => entry.quads subject).map Quad.outline =
      (subjects.map Term.outline).flatMap fun subject =>
        (entries.map RowEntry.outline).flatMap fun entry => entry.quads subject := by
  simp only [List.map_flatMap, List.flatMap_map, entryOutline]

theorem keptOutlines {entries : List BoundEntry} {f g : BoundEntry → Reported (Option RowEntry)}
    (each : ∀ entry ∈ entries, SameView (Option.map RowEntry.outline) (f entry) (g entry)) :
    ((entries.map f).filterMap Prod.fst).map RowEntry.outline =
        ((entries.map g).filterMap Prod.fst).map RowEntry.outline ∧
      (entries.map f).flatMap Prod.snd = (entries.map g).flatMap Prod.snd := by
  rw [List.map_filterMap, List.map_filterMap, List.filterMap_map, List.filterMap_map, List.flatMap_map,
    List.flatMap_map]
  exact ⟨List.filterMap_congr fun entry mem => (each entry mem).1,
    List.flatMap_congr fun entry mem => (each entry mem).2⟩

section

variable (resolver : Resolver) (encoding : Encoding) {left right : JoinContext} {position : Position}

theorem entryOutlines {entry : BoundEntry} (objects : SameView (List.map Term.outline)
      (objectsAt resolver left position entry.object)
      (objectsAt { resolver with encoding } right position entry.object))
    {inherited others : List (Option String)} (graphs : inherited.map graphOutline = others.map graphOutline) :
    SameView (Option.map RowEntry.outline) (entryAt resolver left position inherited entry)
      (entryAt { resolver with encoding } right position others entry) := by
  have predicate := termOutline resolver encoding position.2 entry.predicate
  have inverse := termOutlines resolver encoding position.2 entry.inverse.toList
  have chosen : SameView (List.map graphOutline)
      (if entry.graphs.isEmpty then (inherited, []) else graphsAt resolver position.2 entry.graphs)
      (if entry.graphs.isEmpty then (others, []) else graphsAt { resolver with encoding } position.2 entry.graphs) := by
    split
    · exact ⟨graphs, rfl⟩
    · exact graphOutlines resolver encoding position.2 _
  unfold entryAt
  cases one : entry.predicate.atRow resolver position.2 <;>
    cases two : entry.predicate.atRow { resolver with encoding } position.2 <;> rw [one, two] at predicate <;>
    simp only [Except.map, Except.error.injEq, Except.ok.injEq, reduceCtorEq] at predicate
  · rw [predicate]
    exact ⟨rfl, rfl⟩
  · dsimp only
    rw [viewEmpty objects]
    split
    · exact ⟨rfl, objects.2⟩
    · refine ⟨congrArg some ?_, congrArg₂ _ inverse.2 chosen.2⟩
      simp only [RowEntry.outline, ← List.head?_map, inverse.1, objects.1, chosen.1, predicate]

theorem rowOutline {map : BoundMap}
    (subjects : SameView (List.map Term.outline) (subjectsAt resolver left position map.subjects)
      (subjectsAt { resolver with encoding } right position map.subjects))
    (objects : ∀ entry ∈ map.entries, SameView (List.map Term.outline)
      (objectsAt resolver left position entry.object)
      (objectsAt { resolver with encoding } right position entry.object)) :
    SameView (List.map Quad.outline) (rowAt resolver left map position)
      (rowAt { resolver with encoding } right map position) := by
  have inherited := graphOutlines resolver encoding position.2
    (if map.subjectGraphs.isEmpty then map.mapGraphs else map.subjectGraphs)
  obtain ⟨kept, reports⟩ := keptOutlines fun entry mem =>
    entryOutlines resolver encoding (objects entry mem) inherited.1
  unfold rowAt
  dsimp only
  rw [viewEmpty subjects]
  split
  · exact ⟨rfl, subjects.2⟩
  · refine ⟨?_, congrArg₂ _ (congrArg₂ _ subjects.2 inherited.2) reports⟩
    rw [productOutline, productOutline, subjects.1, kept]

end

section

variable (resolver : Resolver) (encoding : Encoding) {left right : JoinContext} (same : left.SameOutlines right)
  (table : Table) (position : Position)
include same

theorem subjectOutlines {map : CompiledMap} (unfiltered : map.Unfiltered) : SameView (List.map Term.outline)
    (subjectsAt resolver left position (map.subjects.bind table).1)
    (subjectsAt { resolver with encoding } right position (map.subjects.bind table).1) := by
  cases kind : map.subjects with
  | templates terms => exact termOutlines resolver encoding position.2 _
  | quoted q => exact joinedOutlines (quotedTermOutlines same (unfiltered.subject q kind) _ position)

theorem objectOutlines {object : CompiledObject} (unfiltered : ∀ q, object = .quoted q → q.filter.isEmpty) :
    SameView (List.map Term.outline) (objectsAt resolver left position (object.bind table).1)
      (objectsAt { resolver with encoding } right position (object.bind table).1) := by
  cases object with
  | term t => exact termOutlines resolver encoding position.2 _
  | reference r => exact joinedOutlines (referencedOutlines same r _ position)
  | quoted q => exact joinedOutlines (quotedTermOutlines same (unfiltered q rfl) _ position)
  | function => exact ⟨rfl, rfl⟩

theorem tableOutline {map : CompiledMap} (unfiltered : map.Unfiltered) (t : Nat) :
    (generateTable map resolver left table t).rows.map (List.map Quad.outline) =
        (generateTable map { resolver with encoding } right table t).rows.map (List.map Quad.outline) ∧
      (generateTable map resolver left table t).diagnostics =
        (generateTable map { resolver with encoding } right table t).diagnostics := by
  have row (r : Nat) : SameView (List.map Quad.outline) (rowAt resolver left (map.bind table).1 (t, r))
      (rowAt { resolver with encoding } right (map.bind table).1 (t, r)) := by
    refine rowOutline resolver encoding (subjectOutlines resolver encoding same table _ unfiltered) fun bound mem => ?_
    simp only [CompiledMap.bind, List.map_map, List.mem_map] at mem
    obtain ⟨entry, listed, rfl⟩ := mem
    exact objectOutlines resolver encoding same table _ (unfiltered.entries entry listed)
  simp only [generateTable, List.map_map, List.flatMap_map]
  refine ⟨List.map_congr_left fun r _ => (row r).1, congrArg _ (List.flatMap_congr fun r _ => ?_)⟩
  rw [(row r).2]

theorem mapOutline {map : CompiledMap} (unfiltered : map.Unfiltered) (tables : List Table) :
    (generateMap map tables resolver left).SameOutline
      (generateMap map tables { resolver with encoding } right) := by
  have each (numbered : Table × Nat) :=
    tableOutline resolver encoding same numbered.1 unfiltered numbered.2
  have quads : (generateMap map tables resolver left).quads.toList.map Quad.outline =
      (generateMap map tables { resolver with encoding } right).quads.toList.map Quad.outline := by
    simp only [generateMap, List.map_flatMap, List.flatMap_map, List.map_flatten, each]
  have sizes (numbered : Table × Nat) :
      (generateTable map resolver left numbered.1 numbered.2).rows.map List.length =
        (generateTable map { resolver with encoding } right numbered.1 numbered.2).rows.map List.length := by
    simpa [Function.comp_def] using congrArg (List.map List.length) (each numbered).1
  have counted (quads : List Quad) : quads.countP Quad.hasQuoted = (quads.map Quad.outline).countP Quad.hasQuoted := by
    simp [List.countP_map, Function.comp_def, outlineHasQuoted]
  refine ⟨quads, ?_, rfl, ?_, ?_⟩
  · simp only [generateMap, List.map_map, Function.comp_def, sizes]
  · exact (counted _).trans ((congrArg _ quads).trans (counted _).symm)
  · simp only [generateMap, List.flatMap_map, each]

end

theorem unfilteredCompiled {m : TriplesMap} {map : CompiledMap} {resolver : Resolver}
    (compiled : CompiledMap.compile m resolver = .ok map) (unfiltered : ∀ q ∈ m.quotedRefs, q.filter.isEmpty) :
    map.Unfiltered := by
  obtain ⟨subject, mapped⟩ := compiledParts compiled
  constructor
  · intro q quoted
    rw [quoted] at subject
    exact unfiltered q (List.mem_append_left _ (Option.mem_toList.mpr (quotedOrigin subject)))
  · intro entry mem q quoted
    obtain ⟨po, listed, one⟩ := mappedOrigin mapped mem
    have object := (objectOrigin (compiledObject one)).2 q quoted
    exact unfiltered q (List.mem_append_right _ (List.mem_filterMap.mpr ⟨po, listed, by rw [object]; rfl⟩))

theorem givenOutlines (resolver : Resolver) (encoding : Encoding) (terms : List CompiledTerm) (tables : List Table)
    (position : Position) : (subjectsGiven terms tables resolver position).map Term.outline =
      (subjectsGiven terms tables { resolver with encoding } position).map Term.outline := by
  unfold subjectsGiven
  split
  · rfl
  · split
    · simp only [List.map_filterMap, givenOutline, CompiledTerm.resolve, builtAlike resolver encoding]
    · rfl

section

variable {spec : Specification} {options : GenerationOptions} {provider : TableProvider} {encoding : Encoding}
  {own other : Setup} (made : own.Made spec options provider)
  (remade : other.Made spec { options with encoding } provider)
include made remade

theorem resolverEncoded : other.resolver = { own.resolver with encoding } := by
  rw [made.resolver, remade.resolver]
  rfl

theorem preparedEncoded : other.prepared = own.prepared := by
  have again := remade.prepared
  rw [resolverEncoded made remade] at again
  exact Except.ok.inj (again.symm.trans made.prepared)

theorem subjectsEncoded (key : IndexKey) : Option.Rel SubjectIndex.SameOutlines (own.subjectIndexes.lookup key)
    (other.subjectIndexes.lookup key) := by
  rw [made.subjects, remade.subjects, subjectIndexBuilt, subjectIndexBuilt, preparedEncoded made remade,
    resolverEncoded made remade]
  split
  · refine .some ⟨fun position => ?_, rfl⟩
    rw [subjectIndexFor, subjectIndexFor, subjectsBuilt, subjectsBuilt]
    exact givenOutlines own.resolver encoding _ _ position
  · exact .none

theorem contextEncoded {outputs results : Named MapOutput}
    (aligned : Aligned MapOutput.SameOutline outputs results) :
    (own.context outputs).SameOutlines (other.context results) := by
  refine ⟨aligned, ?_, subjectsEncoded made remade⟩
  simp only [Setup.context, made.quotes, remade.quotes, preparedEncoded made remade]
  rfl

theorem encodedStep (cancelled : own.cancelled = other.cancelled)
    (unfiltered : ∀ m ∈ spec.maps, ∀ q ∈ m.quotedRefs, q.filter.isEmpty) :
    LockStep MapOutput.SameOutline own other := by
  refine ⟨cancelled, fun name => ?_⟩
  rw [preparedEncoded made remade]
  cases found : own.prepared.lookup name with
  | none => exact .none
  | some ready =>
    refine .some fun outputs results aligned => ?_
    obtain ⟨m, mem, _, done⟩ := setupOrigin made found
    rw [Setup.output, Setup.output, resolverEncoded made remade]
    exact mapOutline own.resolver encoding (contextEncoded made remade aligned)
      (unfilteredCompiled (prepareOk done).2 (unfiltered m mem)) ready.tables

end

theorem outcomeEncoded {outputs results : Named MapOutput} (aligned : Aligned MapOutput.SameOutline outputs results)
    (spec : Specification) (description : List Quad) :
    (outcomeOf spec description results).quads.map Quad.outline =
        (outcomeOf spec description outputs).quads.map Quad.outline ∧
      (outcomeOf spec description results).stats = (outcomeOf spec description outputs).stats ∧
      (outcomeOf spec description results).reports = (outcomeOf spec description outputs).reports := by
  have pairs := orderedTogether aligned spec.plan.order
  have quads := gatheredTogether pairs (fun o => o.quads.toList.map Quad.outline) fun _ _ same => same.quads
  have rows := readTogether pairs MapOutput.rows fun _ _ same => same.rows
  have quoted := readTogether pairs MapOutput.quotedQuads fun _ _ same => same.quotedQuads
  have reports := gatheredTogether pairs MapOutput.diagnostics fun _ _ same => same.diagnostics
  have outlines : (outcomeOf spec description results).quads.map Quad.outline =
      (outcomeOf spec description outputs).quads.map Quad.outline := by
    simp only [outcomeOf, List.map_append, List.map_flatMap, quads]
  have lengths : (outcomeOf spec description results).quads.length =
      (outcomeOf spec description outputs).quads.length := by
    simpa using congrArg List.length outlines
  refine ⟨outlines, ?_, reports.symm⟩
  simp only [outcomeOf] at lengths ⊢
  rw [rows, quoted, lengths, reports]

end TabularRdf.Generation

namespace TabularRdf.Document
open Iri Mapping Generation Loading Rdf

/-- Under another encoding a run fails as before or succeeds as before, with the same statistics, reports and
spans; its quads stand in the same places and differ only in the texts of their IRIs. -/
theorem encodingRewrites {settings : BuildOptions} {document : Json} {spec : Specification}
    (built : build settings document = .ok spec)
    (unfiltered : ∀ m ∈ spec.maps, ∀ q ∈ m.quotedRefs, q.filter.isEmpty) (options : GenerationOptions)
    (encoding : Encoding) (provider : TableProvider) (cancelled : Bool) :
    (∀ e, run spec options provider cancelled = .error e ↔
      run spec { options with encoding } provider cancelled = .error e) ∧
    ∀ outcome, run spec options provider cancelled = .ok outcome →
      ∃ result, run spec { options with encoding } provider cancelled = .ok result ∧
        result.quads.length = outcome.quads.length ∧
        result.quads.map Quad.outline = outcome.quads.map Quad.outline ∧
        result.stats = outcome.stats ∧ result.reports = outcome.reports ∧
        ∀ m ∈ spec.maps, ∃ before after,
          Contributes spec options provider cancelled outcome m.name before ∧
          Contributes spec { options with encoding } provider cancelled result m.name after ∧
          after.spans = before.spans := by
  obtain ⟨_, _, _, reading⟩ := buildReading built
  have faults (options : GenerationOptions) : errorOf (run spec options provider cancelled) =
      (faultsOf spec options provider cancelled).head? :=
    runFailure reading.planned (readingFormed reading) cancelled
  have same : errorOf (run spec options provider cancelled) =
      errorOf (run spec { options with encoding } provider cancelled) := by
    rw [faults, faults]
    rfl
  refine ⟨fun e => by rw [← failureSome, same, failureSome], fun outcome ran => ?_⟩
  obtain ⟨result, reran⟩ := failureNone.mp (same.symm.trans (failureNone.mpr ⟨outcome, ran⟩))
  refine ⟨result, reran, ?_⟩
  rw [runByLevels] at ran reran
  simp only [runBy, boundOk, pureOk] at ran reran
  obtain ⟨own, made, description, described, outputs, levels, rfl⟩ := ran
  obtain ⟨other, remade, again, redescribed, results, relevels, rfl⟩ := reran
  have cancelled : own.cancelled = other.cancelled := (setupFlag made).trans (setupFlag remade).symm
  have step := encodedStep (setupMade made) (setupMade remade) cancelled unfiltered
  obtain ⟨_, finished, aligned⟩ := togetherOk (levelsTogether step spec.plan.levels) levels
  cases Except.ok.inj (finished.symm.trans relevels)
  rw [resolverEncoded (setupMade made) (setupMade remade)] at redescribed
  cases Except.ok.inj (described.symm.trans redescribed)
  obtain ⟨quads, stats, reports⟩ := outcomeEncoded aligned spec description
  refine ⟨by simpa using congrArg List.length quads, quads, stats, reports, fun m mem => ?_⟩
  have planned : m.name ∈ spec.plan.order :=
    (Plan.buildOnce reading.planned).mem_iff.mpr (List.mem_map_of_mem mem)
  obtain ⟨before, given⟩ := levelsReach levels (.inl planned)
  obtain ⟨after, regiven⟩ := levelsReach relevels (.inl planned)
  have pair := aligned m.name
  rw [given, regiven] at pair
  cases pair with
  | some related => exact ⟨before, after, contributes made levels given planned,
      contributes remade relevels regiven planned, related.spans.symm⟩

def spacedTable : Table :=
  { peopleTable with columns := [.string #[some "Ann Lee"], .string #[some "Ann"], .string #[some "Bob"]] }

theorem spacedRewritten : ∃ spec outcome result, build .default annotatedDocument = .ok spec ∧
    (∀ m ∈ spec.maps, ∀ q ∈ m.quotedRefs, q.filter.isEmpty) ∧
    run spec .default (fun _ => some spacedTable) false = .ok outcome ∧
    run spec { GenerationOptions.default with encoding := .underscore } (fun _ => some spacedTable) false =
      .ok result ∧
    result.quads ≠ outcome.quads ∧ result.quads.map Quad.outline = outcome.quads.map Quad.outline ∧
    result.stats = outcome.stats ∧ result.reports = outcome.reports := by
  have given : ((build .default annotatedDocument).toOption.bind fun spec =>
      (run spec .default (fun _ => some spacedTable) false).toOption.bind fun outcome =>
      (run spec { GenerationOptions.default with encoding := .underscore }
        (fun _ => some spacedTable) false).toOption.map fun result =>
        ((spec.maps.all fun m => m.quotedRefs.all fun q => q.filter.isEmpty),
          decide (result.quads = outcome.quads))) = some (true, false) := by decide +kernel
  obtain ⟨spec, read, rest⟩ := Option.bind_eq_some_iff.mp given
  obtain ⟨outcome, first, rest⟩ := Option.bind_eq_some_iff.mp rest
  obtain ⟨result, second, checks⟩ := Option.map_eq_some_iff.mp rest
  obtain ⟨whole, other⟩ := Prod.mk.inj checks
  have unfiltered : ∀ m ∈ spec.maps, ∀ q ∈ m.quotedRefs, q.filter.isEmpty := by
    simpa only [List.all_eq_true] using whole
  have built := optionOk.mp read
  have ran := optionOk.mp first
  obtain ⟨again, reran, _, quads, stats, reports, _⟩ :=
    (encodingRewrites built unfiltered .default .underscore _ false).2 outcome ran
  cases Except.ok.inj (reran.symm.trans (optionOk.mp second))
  exact ⟨spec, outcome, result, built, unfiltered, ran, reran, of_decide_eq_false other, quads, stats, reports⟩

end TabularRdf.Document

import TabularRdf.Proofs.RowSpans
import TabularRdf.Proofs.WellFormedQuads

/-! Joins as nested loops. What a row quotes of another map, or refers to in it, is what every partner among
that map's rows contributes, in order; the shared indexes only find the partners faster. -/
namespace TabularRdf.Generation
open Iri Mapping Rdf Loading

def contribution (filter : QuoteFilter) (quads : List Quad) : List Term :=
  (quads.filter fun quad => !quad.hasQuoted && filter.accepts quad).map
    fun quad => .quoted quad.subject quad.predicate quad.object

structure Setup.RanBefore (setup : Setup) (spec : Specification) (seen : Named MapOutput) (name : String)
    (ready : Prepared) (earlier : Named MapOutput) : Prop where
  stage : setup.Sees spec.plan.levels name earlier
  prepared : setup.prepared.lookup name = some ready
  output : seen.lookup name = some (setup.output earlier ready)

theorem contributed {filter : QuoteFilter} {quads : List Quad} (formed : ∀ quad ∈ quads, quad.WellFormed) :
    (quads.filterMap fun quad =>
      if quad.hasQuoted || !filter.accepts quad then none else quad.quote.toOption) =
      contribution filter quads := by
  unfold contribution
  induction quads with
  | nil => rfl
  | cons quad rest ih =>
    have tail := ih fun other mem => formed other (List.mem_cons_of_mem _ mem)
    cases plain : quad.hasQuoted with
    | true => simpa [plain] using tail
    | false =>
      cases accepted : filter.accepts quad with
      | false => simpa [plain, accepted] using tail
      | true =>
        have quoted := Quad.quotable (formed quad List.mem_cons_self) plain
        simpa [plain, accepted, quoted, Except.toOption] using tail

theorem quotedContribution {output : MapOutput} (formed : output.WellFormed) (positions : List Position)
    (filter : QuoteFilter) : output.quoteRows positions filter =
      positions.flatMap fun position => contribution filter (output.rowQuads position) := by
  unfold MapOutput.quoteRows
  congr 1
  funext position
  exact contributed fun quad emitted => formed quad (emittedQuad emitted)

def Lacks (child : Table) (condition : Option JoinCondition) : Prop :=
  ∃ c, condition = some c ∧ ∃ key ∈ c.keys, child.column? key.child = none

theorem partnersLacking {child : Table} {condition : Option JoinCondition} (lacks : Lacks child condition)
    (tables : List Table) (position : Position) : partners child condition tables position = [] := by
  obtain ⟨c, rfl, key, listed, lacking⟩ := lacks
  have column : key.child ∈ c.childColumns := List.mem_map_of_mem listed
  exact partnerless (keyLacking column lacking position.2)

section

variable {spec : Specification} {options : GenerationOptions} {provider : TableProvider} {setup : Setup}
  (made : setup.Made spec options provider) {name : String} {self ready : Prepared}
  (found : setup.prepared.lookup name = some self)

include made found

theorem quotedNested {seen earlier : Named MapOutput} (formed : Formed seen) {q : QuotedRef}
    (listed : indexKey q.mapping q.condition ∈ self.map.quoteKeys) (keyed : Keyed q.condition)
    (ran : setup.RanBefore spec seen q.mapping ready earlier) (child : Table) (position : Position) :
    (setup.context seen).quotedTerms q (bindProbe child q.condition).1 position =
      (partners child q.condition ready.tables position).flatMap fun other => contribution q.filter
        (emitted ready.map ready.tables setup.resolver (setup.context earlier) other) := by
  have whole := formed _ _ ran.output
  have rows (positions : List Position) : (setup.output earlier ready).quoteRows positions q.filter =
      positions.flatMap fun other => contribution q.filter
        (emitted ready.map ready.tables setup.resolver (setup.context earlier) other) := by
    rw [quotedContribution whole]
    simp only [Setup.output, rowQuadsEmitted]
  simp only [JoinContext.quotedTerms, Setup.context, ran.output]
  cases condition : q.condition with
  | none => exact rows [position]
  | some c =>
    rw [condition] at listed keyed
    have columns : c.parentColumns ≠ [] := by
      simpa [JoinCondition.parentColumns] using (keyed c rfl).some
    have index := quoteIndexed made found listed columns
    rcases boundProbe child c with ⟨bound, probe, texts⟩ | ⟨probe, texts⟩
    · rw [probe]
      dsimp only
      rw [texts]
      cases key : keyText child c.childColumns position.2 with
      | none => rw [partnerless key, List.flatMap_nil]
      | some key =>
        rw [index, partnersOf ‹_›]
        simp only [quoteIndexFor, indexKey, ran.prepared]
        exact rows _
    · rw [probe, partnerless (texts _), List.flatMap_nil]

theorem referencedNested (seen : Named MapOutput) {r : MappingRef}
    (listed : indexKey r.mapping r.condition ∈ self.map.subjectKeys) (keyed : Keyed r.condition)
    (parent : setup.prepared.lookup r.mapping = some ready) (child : Table) (position : Position) :
    (setup.context seen).referencedSubjects r (bindProbe child r.condition).1 position =
      (partners child r.condition ready.tables position).flatMap
        (subjectsGiven ready.map.subjectTerms ready.tables setup.resolver) := by
  have index := subjectIndexed made found listed
  simp only [JoinContext.referencedSubjects, Setup.context, index]
  simp only [subjectIndexFor, indexKey, parent]
  cases condition : r.condition with
  | none =>
    have here := subjectsBuilt ready.tables ready.map.subjectTerms setup.resolver none position
    simpa [bindProbe, Probe.bind, partners] using here
  | some c =>
    rw [condition] at keyed
    have columns : c.parentColumns.isEmpty = false := by
      simpa [JoinCondition.parentColumns] using (keyed c rfl).some
    rcases boundProbe child c with ⟨bound, probe, texts⟩ | ⟨probe, texts⟩
    · rw [probe]
      dsimp only
      rw [texts]
      cases key : keyText child c.childColumns position.2 with
      | none => rw [partnerless key, List.flatMap_nil]
      | some key =>
        rw [partnersOf ‹_›]
        simp only [Option.map_some, Option.getD_some, columns]
        exact subjectsByKey ..
    · rw [probe, partnerless (texts _), List.flatMap_nil]

end

/-- A quoted reference is joined as by a nested loop: a row quotes what the partners among the other map's
rows contribute of the quads that they emitted in this run. -/
def Setup.QuotesNested (setup : Setup) (spec : Specification) (provider : TableProvider)
    (seen : Named MapOutput) (q : QuotedRef) : Prop :=
  ∃ p ∈ spec.maps, p.name = q.mapping ∧ ∃ ready earlier,
    prepare provider setup.resolver p = .ok ready ∧ setup.RanBefore spec seen p.name ready earlier ∧
    ∀ child position,
      (setup.context seen).quotedTerms q (bindProbe child q.condition).1 position =
        ((partners child q.condition ready.tables position).flatMap fun other => contribution q.filter
          (emitted ready.map ready.tables setup.resolver (setup.context earlier) other)) ∧
      (Lacks child q.condition →
        (setup.context seen).quotedTerms q (bindProbe child q.condition).1 position = [])

def Setup.RefersNested (setup : Setup) (spec : Specification) (provider : TableProvider)
    (seen : Named MapOutput) (r : MappingRef) : Prop :=
  ∃ p ∈ spec.maps, p.name = r.mapping ∧ ∃ tables terms,
    tablesOf provider p = .ok tables ∧ compileIris p.subject.templates setup.resolver = .ok terms ∧
    ∀ child position,
      (setup.context seen).referencedSubjects r (bindProbe child r.condition).1 position =
        (partners child r.condition tables position).flatMap (subjectsGiven terms tables setup.resolver) ∧
      (Lacks child r.condition →
        (setup.context seen).referencedSubjects r (bindProbe child r.condition).1 position = [])

theorem quotedRefKeyed {m : TriplesMap} (formed : m.Formed) {q : QuotedRef} (reference : q ∈ m.quotedRefs) :
    Keyed q.condition := by
  rcases List.mem_append.mp reference with ofSubject | ofObject
  · exact formed.subject.keyed q (Option.mem_toList.mp ofSubject)
  · obtain ⟨po, listed, quoted⟩ := List.mem_filterMap.mp ofObject
    have object := (formed.predicateObjects po listed).object
    cases kind : po.object <;> rw [kind] at quoted object <;> cases quoted
    exact object

section

variable {spec : Specification} {options : GenerationOptions} {provider : TableProvider} {setup : Setup}
  (linked : spec.Linked) (made : setup.Made spec options provider) {m : TriplesMap} (mem : m ∈ spec.maps)
include linked made mem

omit made in
theorem quotedRanBefore {seen : Named MapOutput} (sees : setup.Sees spec.plan.levels m.name seen)
    {q : QuotedRef} (reference : q ∈ m.quotedRefs) :
    ∃ ready earlier, setup.RanBefore spec seen q.mapping ready earlier := by
  obtain ⟨before, level, after, split, here, ran⟩ := sees
  obtain ⟨other, known, named, _⟩ := linked.quoted m mem q reference
  have placed : q.mapping ∈ spec.plan.levels.flatten :=
    linked.ordered.once.mem_iff.mpr (List.mem_map.mpr ⟨other, known, named⟩)
  have once : spec.plan.levels.flatten.Nodup := linked.ordered.once.nodup_iff.mpr linked.distinct
  have early := placedBefore split here placed (linked.ordered.earlier m mem q reference)
  obtain ⟨earlier, ready, stage, prepared, output⟩ := earlierSeen once split ran early
  exact ⟨ready, earlier, stage, prepared, output⟩

theorem quotesNested {seen : Named MapOutput} (sees : setup.Sees spec.plan.levels m.name seen)
    {q : QuotedRef} (reference : q ∈ m.quotedRefs) : setup.QuotesNested spec provider seen q := by
  obtain ⟨ready, earlier, ran⟩ := quotedRanBefore linked mem sees reference
  obtain ⟨p, known, named, done⟩ := setupOrigin made ran.prepared
  obtain ⟨self, found, whole⟩ := preparedOf made.prepared linked.distinct mem
  have listed := quoteKeyListed (prepareOk whole).2 reference
  obtain ⟨before, _, _, _, _, levels⟩ := sees
  refine ⟨p, known, named, ready, earlier, done, named ▸ ran, fun child position => ?_⟩
  have joined := quotedNested made found (levelsFormed linked.formed made levels) listed
    (quotedRefKeyed (linked.formed m mem) reference) ran child position
  refine ⟨joined, fun lacks => ?_⟩
  rw [joined, partnersLacking lacks, List.flatMap_nil]

theorem refersNested {seen : Named MapOutput} {po : PredicateObject} (entry : po ∈ m.predicateObjects)
    {r : MappingRef} (reference : po.object = .reference r) : setup.RefersNested spec provider seen r := by
  obtain ⟨p, known, named, plain, _⟩ := linked.referenced m mem po entry r reference
  obtain ⟨self, found, whole⟩ := preparedOf made.prepared linked.distinct mem
  obtain ⟨ready, parent, done⟩ := preparedOf made.prepared linked.distinct known
  obtain ⟨tables, compiled⟩ := prepareOk done
  obtain ⟨terms, templates, subjects⟩ := compiledTemplates (compiledParts compiled).1 plain
  have given : ready.map.subjectTerms = terms := by simp [CompiledMap.subjectTerms, subjects]
  have keyed : Keyed r.condition := by
    have object := ((linked.formed m mem).predicateObjects po entry).object
    rwa [reference] at object
  refine ⟨p, known, named, ready.tables, terms, tables, templates, fun child position => ?_⟩
  have listed := subjectKeyListed (prepareOk whole).2 entry reference
  have joined := referencedNested made found seen listed keyed (named ▸ parent) child position
  rw [given] at joined
  refine ⟨joined, fun lacks => ?_⟩
  rw [joined, partnersLacking lacks, List.flatMap_nil]

end

end TabularRdf.Generation

namespace TabularRdf.Document
open Mapping Generation Loading

theorem joinsNested {settings : BuildOptions} {document : Json} {spec : Specification}
    (distinct : document.Distinct) (built : build settings document = .ok spec)
    {options : GenerationOptions} {provider : TableProvider} {cancelled : Bool} {setup : Setup}
    (made : Setup.make spec options provider cancelled = .ok setup) {m : TriplesMap} (mem : m ∈ spec.maps)
    {seen : Named MapOutput} (sees : setup.Sees spec.plan.levels m.name seen) :
    (∀ q ∈ m.quotedRefs, setup.QuotesNested spec provider seen q) ∧
    ∀ po ∈ m.predicateObjects, ∀ r, po.object = .reference r → setup.RefersNested spec provider seen r := by
  obtain ⟨_, _, _, reading⟩ := buildReading built
  have linked := readingLinked distinct reading
  have prepared := setupMade made
  refine ⟨fun q reference => quotesNested linked prepared mem sees reference, ?_⟩
  intro po entry r reference
  exact refersNested linked prepared mem entry reference

def notesTable : Table where
  schema := ⟨[⟨"about", .string, false⟩, ⟨"author", .string, true⟩]⟩
  columns := [.string #[some "1", some "2"], .string #[some "Bob", none]]
  rows := 2

def notesProvider : TableProvider := fun source =>
  some (if source.access = "people.csv" then peopleTable else notesTable)

theorem notesNested : ∃ spec setup m seen q, build .default quotingDocument = .ok spec ∧
    Setup.make spec .default notesProvider false = .ok setup ∧ m ∈ spec.maps ∧
    setup.Sees spec.plan.levels m.name seen ∧ q ∈ m.quotedRefs ∧ q.mapping = "person" ∧
    setup.QuotesNested spec notesProvider seen q := by
  have whole : ((build .default quotingDocument).toOption.bind fun spec =>
      (Setup.make spec .default notesProvider false).toOption.bind fun setup =>
      (setup.runLevels [["person"]]).toOption.map fun _ =>
        (spec.plan.levels, spec.maps.map fun m => (m.name, m.quotedRefs.map QuotedRef.mapping))) =
      some ([["person"], ["note"]], [("person", []), ("note", ["person"])]) := by decide +kernel
  obtain ⟨spec, read, rest⟩ := Option.bind_eq_some_iff.mp whole
  obtain ⟨setup, ready, rest⟩ := Option.bind_eq_some_iff.mp rest
  obtain ⟨seen, ran, facts⟩ := Option.map_eq_some_iff.mp rest
  obtain ⟨levels, maps⟩ := Prod.mk.inj facts
  have note : ("note", ["person"]) ∈ spec.maps.map fun m => (m.name, m.quotedRefs.map QuotedRef.mapping) := by
    simp [maps]
  obtain ⟨m, mem, same⟩ := List.mem_map.mp note
  obtain ⟨named, quotes⟩ := Prod.mk.inj same
  have person : "person" ∈ m.quotedRefs.map QuotedRef.mapping := by simp [quotes]
  obtain ⟨q, reference, mapping⟩ := List.mem_map.mp person
  have distinct : quotingDocument.Distinct := by simp [quotingDocument]
  have built := optionOk.mp read
  have made := optionOk.mp ready
  have sees : setup.Sees spec.plan.levels m.name seen :=
    ⟨[["person"]], ["note"], [], by simp [levels], by simp [named], optionOk.mp ran⟩
  exact ⟨spec, setup, m, seen, q, built, made, mem, sees, reference, mapping,
    (joinsNested distinct built made mem sees).1 q reference⟩

end TabularRdf.Document

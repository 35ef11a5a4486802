import TabularRdf.Proofs.RowSpans

/-! The quads of a map as a product. Every row puts out, in this order of nesting, its subjects, its entries,
their objects and their graphs; each of these lists is read off the row by itself, so that what one entry
lacks is nothing to another. The spans of the rows lie side by side and cover all quads. -/
namespace TabularRdf.Generation
open Iri Mapping Rdf

structure RowSite where
  resolver : Resolver
  context : JoinContext
  table : Table
  position : Position

namespace RowSite

def term? (s : RowSite) (t : CompiledTerm) : Option Term :=
  (t.resolve s.resolver (Row.ofTable s.table s.position.2)).toOption

def quoted (s : RowSite) (q : QuotedRef) : List Term :=
  s.context.quotedTerms q (bindProbe s.table q.condition).1 s.position

def referenced (s : RowSite) (r : MappingRef) : List Term :=
  s.context.referencedSubjects r (bindProbe s.table r.condition).1 s.position

def subjects (s : RowSite) (map : CompiledMap) : List Term :=
  match map.subjects with
  | .templates terms => terms.filterMap s.term?
  | .quoted q => s.quoted q

def objects (s : RowSite) (entry : CompiledEntry) : List Term :=
  match entry.object with
  | .term t => (s.term? t).toList
  | .reference r => s.referenced r
  | .quoted q => s.quoted q
  | .function => []

def graphsOf (s : RowSite) (level : List CompiledTerm) : List (Option String) :=
  if level.isEmpty then [none]
  else (level.filterMap s.term?).filterMap fun t => t.iri?.map some

def pair (s : RowSite) (entry : CompiledEntry) (subject predicate object : Term)
    (graph : Option String) : List Quad :=
  ⟨subject, predicate, object, graph⟩ ::
    (entry.inverse.bind s.term?).toList.map fun inverse => ⟨object, inverse, subject, graph⟩

end RowSite

def CompiledMap.sharedLevel (map : CompiledMap) : List CompiledTerm :=
  if map.subjectGraphs.isEmpty then map.mapGraphs else map.subjectGraphs

/-- The graph templates that count for an entry. A level that declares some keeps its place even where none
of them resolves. -/
def CompiledMap.graphLevel (map : CompiledMap) (entry : CompiledEntry) : List CompiledTerm :=
  if entry.graphs.isEmpty then map.sharedLevel else entry.graphs

namespace RowSite

def entryQuads (s : RowSite) (map : CompiledMap) (subject : Term) (entry : CompiledEntry) : List Quad :=
  (s.term? entry.predicate).toList.flatMap fun predicate =>
    (s.objects entry).flatMap fun object =>
      (s.graphsOf (map.graphLevel entry)).flatMap fun graph => s.pair entry subject predicate object graph

def quads (s : RowSite) (map : CompiledMap) : List Quad :=
  (s.subjects map).flatMap fun subject => map.entries.flatMap (s.entryQuads map subject)

def Lacks (s : RowSite) (entry : CompiledEntry) : Prop :=
  s.term? entry.predicate = none ∨ s.objects entry = []

theorem lackingQuads {s : RowSite} {entry : CompiledEntry} (lacks : s.Lacks entry) (map : CompiledMap)
    (subject : Term) : s.entryQuads map subject entry = [] := by
  rcases lacks with predicate | objects
  · simp [entryQuads, predicate]
  · simp [entryQuads, objects]

theorem withoutLacking {s : RowSite} {map : CompiledMap} {before after : List CompiledEntry}
    {entry : CompiledEntry} (split : map.entries = before ++ entry :: after) (lacks : s.Lacks entry) :
    s.quads map = s.quads { map with entries := before ++ after } := by
  unfold quads
  simp only [split, List.flatMap_append, List.flatMap_cons, lackingQuads lacks, List.nil_append]
  rfl

variable (s : RowSite)

theorem boundTerm (t : CompiledTerm) :
    ((BoundTerm.ofTable s.table t).atRow s.resolver s.position.2).toOption = s.term? t :=
  congrArg Except.toOption (t.atRowBind s.resolver s.table s.position.2)

theorem termsGiven (terms : List CompiledTerm) :
    (termsAt s.resolver s.position.2 (terms.map (BoundTerm.ofTable s.table))).1 = terms.filterMap s.term? := by
  simp only [termsAt, List.map_map, List.filterMap_map]
  exact congrArg (fun f => terms.filterMap f) (funext s.boundTerm)

theorem termGiven (t : CompiledTerm) :
    (termsAt s.resolver s.position.2 [BoundTerm.ofTable s.table t]).1 = (s.term? t).toList := by
  refine (s.termsGiven [t]).trans ?_
  cases found : s.term? t <;> simp [found]

theorem graphsGiven (level : List CompiledTerm) :
    (graphsAt s.resolver s.position.2 (level.map (BoundTerm.ofTable s.table))).1 = s.graphsOf level := by
  unfold graphsAt graphsOf
  rw [List.isEmpty_map]
  split
  · rfl
  · simp only [termsGiven]

theorem subjectsJoined (map : CompiledMap) :
    (subjectsAt s.resolver s.context s.position (map.subjects.bind s.table).1).1 = s.subjects map := by
  unfold subjects
  cases map.subjects with
  | templates terms => exact s.termsGiven terms
  | quoted q => rfl

theorem objectsJoined (entry : CompiledEntry) :
    (objectsAt s.resolver s.context s.position (entry.object.bind s.table).1).1 = s.objects entry := by
  unfold objects
  cases entry.object with
  | term t => exact s.termGiven t
  | reference r => rfl
  | quoted q => rfl
  | function => rfl

theorem inverseGiven (entry : CompiledEntry) :
    (termsAt s.resolver s.position.2 (entry.bind s.table).1.inverse.toList).1.head? =
      entry.inverse.bind s.term? := by
  simp only [CompiledEntry.bind]
  cases entry.inverse with
  | none => rfl
  | some t => rw [Option.map_some, Option.toList_some, termGiven, Option.head?_toList, Option.bind_some]

theorem graphsShared (map : CompiledMap) :
    (graphsAt s.resolver s.position.2
      (if (map.bind s.table).1.subjectGraphs.isEmpty then (map.bind s.table).1.mapGraphs
        else (map.bind s.table).1.subjectGraphs)).1 = s.graphsOf map.sharedLevel := by
  simp only [CompiledMap.bind, CompiledMap.sharedLevel, List.isEmpty_map]
  split
  · exact s.graphsGiven map.mapGraphs
  · exact s.graphsGiven map.subjectGraphs

theorem graphsChosen (map : CompiledMap) (entry : CompiledEntry) :
    (if (entry.bind s.table).1.graphs.isEmpty then (s.graphsOf map.sharedLevel, [])
      else graphsAt s.resolver s.position.2 (entry.bind s.table).1.graphs).1 =
      s.graphsOf (map.graphLevel entry) := by
  simp only [CompiledEntry.bind, CompiledMap.graphLevel, List.isEmpty_map]
  split
  · rfl
  · exact s.graphsGiven entry.graphs

theorem entryProduct (map : CompiledMap) (subject : Term) (entry : CompiledEntry) :
    (entryAt s.resolver s.context s.position (s.graphsOf map.sharedLevel)
      (entry.bind s.table).1).1.toList.flatMap (fun row => row.quads subject) =
      s.entryQuads map subject entry := by
  have objects := s.objectsJoined entry
  have inverse := s.inverseGiven entry
  have graphs := s.graphsChosen map entry
  unfold entryAt entryQuads
  split
  · rename_i failure lost
    have none : s.term? entry.predicate = none :=
      (s.boundTerm entry.predicate).symm.trans (congrArg Except.toOption lost)
    simp [none]
  · rename_i predicate given
    have some : s.term? entry.predicate = some predicate :=
      (s.boundTerm entry.predicate).symm.trans (congrArg Except.toOption given)
    dsimp only
    split
    · rename_i empty
      have lacking : s.objects entry = [] := objects.symm.trans (List.isEmpty_iff.mp empty)
      simp [lacking]
    · simp only [some, Option.toList_some, List.flatMap_singleton, RowEntry.quads, pair, ← objects, ← inverse,
        ← graphs]
      rfl

theorem entriesProduct (map : CompiledMap) (subject : Term) (entries : List CompiledEntry) :
    (((entries.map fun entry => (entry.bind s.table).1).map
      (entryAt s.resolver s.context s.position (s.graphsOf map.sharedLevel))).filterMap Prod.fst).flatMap
        (fun row => row.quads subject) = entries.flatMap (s.entryQuads map subject) := by
  induction entries with
  | nil => rfl
  | cons entry rest ih =>
    have first := s.entryProduct map subject entry
    rw [List.map_cons, List.map_cons, List.filterMap_cons, List.flatMap_cons, ← ih, ← first]
    split <;> simp [*]

theorem rowProduct (map : CompiledMap) :
    (rowAt s.resolver s.context (map.bind s.table).1 s.position).1 = s.quads map := by
  have subjects := s.subjectsJoined map
  unfold rowAt quads
  dsimp only
  split
  · rename_i empty
    have lacking : s.subjects map = [] := subjects.symm.trans (List.isEmpty_iff.mp empty)
    simp [lacking]
  · rw [s.graphsShared map, ← subjects]
    refine congrArg (fun f => List.flatMap f _) (funext fun subject => ?_)
    rw [← s.entriesProduct map subject map.entries]
    simp only [CompiledMap.bind, List.map_map]
    rfl

end RowSite

inductive Contiguous : Nat → List Span → Nat → Prop where
  | nil (place : Nat) : Contiguous place [] place
  | cons {start stop last : Nat} {rest : List Span} (forward : start ≤ stop)
      (next : Contiguous stop rest last) : Contiguous start (⟨start, stop⟩ :: rest) last

theorem contiguousAppend {first middle last : Nat} {front back : List Span}
    (left : Contiguous first front middle) (right : Contiguous middle back last) :
    Contiguous first (front ++ back) last := by
  induction left with
  | nil => exact right
  | cons forward _ ih => exact .cons forward (ih right)

theorem spansContiguous (sizes : List Nat) (start : Nat) :
    Contiguous start (spansFrom start sizes).1 (start + total sizes) := by
  induction sizes generalizing start with
  | nil => exact .nil start
  | cons size rest ih =>
    rw [total, List.foldr_cons, ← Nat.add_assoc]
    exact .cons (Nat.le_add_right start size) (ih (start + size))

theorem tableSpansContiguous (tables : List (List Nat)) (start : Nat) :
    Contiguous start ((tableSpansFrom start tables).flatMap Array.toList) (start + total (tables.map total)) := by
  induction tables generalizing start with
  | nil => exact .nil start
  | cons sizes rest ih =>
    have stop := spansStop sizes start
    simp only [tableSpansFrom, List.flatMap_cons]
    rw [List.map_cons, total, List.foldr_cons, ← Nat.add_assoc, ← stop]
    exact contiguousAppend (stop ▸ spansContiguous sizes start) (ih _)

theorem spansCount (sizes : List Nat) (start : Nat) : (spansFrom start sizes).1.length = sizes.length := by
  induction sizes generalizing start with
  | nil => rfl
  | cons size rest ih => exact congrArg (· + 1) (ih (start + size))

theorem tableSpansCount (tables : List (List Nat)) (start : Nat) :
    (tableSpansFrom start tables).map Array.size = tables.map List.length := by
  induction tables generalizing start with
  | nil => rfl
  | cons sizes rest ih =>
    simp only [tableSpansFrom, List.map_cons, List.size_toArray, spansCount, ih]

section

variable {map : CompiledMap} {tables : List Table} {resolver : Resolver} {context : JoinContext}

theorem outputProduct : (generateMap map tables resolver context).quads.toList =
    tables.zipIdx.flatMap fun (table, t) =>
      (List.range table.rows).flatMap fun row =>
        RowSite.quads ⟨resolver, context, table, (t, row)⟩ map := by
  rw [outputQuads, emittedRows, List.flatMap_map]
  congr 1
  funext numbered
  obtain ⟨table, t⟩ := numbered
  simp only [← RowSite.rowProduct]
  rfl

theorem emittedProduct {t row : Nat} {table : Table} (there : tables[t]? = some table) (bound : row < table.rows) :
    emitted map tables resolver context (t, row) = RowSite.quads ⟨resolver, context, table, (t, row)⟩ map := by
  unfold emitted
  simp only [there, if_pos bound]
  exact RowSite.rowProduct ⟨resolver, context, table, (t, row)⟩ map

theorem spanProduct {t row : Nat} {table : Table} (there : tables[t]? = some table) (bound : row < table.rows) :
    ∃ span, (generateMap map tables resolver context).span? (t, row) = some span ∧
      span.cut (generateMap map tables resolver context).quads.toList =
        RowSite.quads ⟨resolver, context, table, (t, row)⟩ map := by
  have cut := tableSpansCut (emittedRows map tables resolver context) [] [] t row
  have found : ((emittedRows map tables resolver context)[t]?.bind fun rows => rows[row]?) =
      some (emitted map tables resolver context (t, row)) := by
    simp [emittedRows, emitted, there, bound]
  rw [found, emittedProduct there bound, ← outputQuads, List.nil_append, List.append_nil, List.length_nil,
    ← outputSpans] at cut
  exact Option.map_eq_some_iff.mp cut

theorem spansShaped : (generateMap map tables resolver context).spans.map Array.size = tables.map Table.rows := by
  rw [outputSpans, tableSpansCount]
  refine List.ext_getElem? fun t => ?_
  simp only [emittedRows, List.map_map, List.getElem?_map, List.getElem?_zipIdx, Option.map_map]
  cases tables[t]? <;> simp

theorem spansCover : Contiguous 0 ((generateMap map tables resolver context).spans.flatMap Array.toList)
    (generateMap map tables resolver context).quads.size := by
  have whole := tableSpansContiguous
    ((emittedRows map tables resolver context).map fun rows => rows.map List.length) 0
  have size : (generateMap map tables resolver context).quads.size =
      0 + total (((emittedRows map tables resolver context).map fun rows => rows.map List.length).map total) := by
    rw [← Array.length_toList, outputQuads]
    change _ = 0 + (((emittedRows map tables resolver context).map fun rows => rows.map List.length).map List.sum).sum
    simp [List.length_flatMap, List.length_flatten, Function.comp_def]
  rw [outputSpans, size]
  exact whole

end

theorem quadsAreProducts (map : CompiledMap) (tables : List Table) (resolver : Resolver)
    (context : JoinContext) :
    ((generateMap map tables resolver context).quads.toList = tables.zipIdx.flatMap fun (table, t) =>
      (List.range table.rows).flatMap fun row =>
        RowSite.quads ⟨resolver, context, table, (t, row)⟩ map) ∧
    (∀ t table row before entry after, tables[t]? = some table → row < table.rows →
      map.entries = before ++ entry :: after → RowSite.Lacks ⟨resolver, context, table, (t, row)⟩ entry →
      (generateMap map tables resolver context).rowQuads (t, row) =
        (generateMap { map with entries := before ++ after } tables resolver context).rowQuads (t, row)) ∧
    (generateMap map tables resolver context).spans.map Array.size = tables.map Table.rows ∧
    (∀ t table row, tables[t]? = some table → row < table.rows →
      ∃ span, (generateMap map tables resolver context).span? (t, row) = some span ∧
        span.cut (generateMap map tables resolver context).quads.toList =
          RowSite.quads ⟨resolver, context, table, (t, row)⟩ map) ∧
    Contiguous 0 ((generateMap map tables resolver context).spans.flatMap Array.toList)
      (generateMap map tables resolver context).quads.size := by
  refine ⟨outputProduct, ?_, spansShaped, fun t table row => spanProduct, spansCover⟩
  intro t table row before entry after there bound split lacks
  rw [rowQuadsEmitted, rowQuadsEmitted, emittedProduct there bound, emittedProduct there bound]
  exact RowSite.withoutLacking split lacks

def agesTable : Table where
  schema := ⟨[⟨"id", .string, false⟩, ⟨"age", .int64, true⟩, ⟨"friend", .string, false⟩]⟩
  columns := [.string #[some "1", some "2"], .int64 #[none, some 30], .string #[some "2", some "1"]]
  rows := 2

def ageEntry : CompiledEntry :=
  ⟨⟨.constant (.iri "http://example.org/age"), []⟩, .term ⟨.literal [.slot 0] none none, ["age"]⟩, none, []⟩

def friendEntry : CompiledEntry :=
  ⟨⟨.constant (.iri "http://example.org/knows"), []⟩,
    .term ⟨.headed "http://example.org/" [.slot 0], ["friend"]⟩,
    some ⟨.constant (.iri "http://example.org/knownBy"), []⟩, []⟩

def agesMap : CompiledMap where
  name := "ages"
  subjects := .templates [⟨.headed "http://example.org/" [.slot 0], ["id"]⟩]
  subjectGraphs := []
  mapGraphs := [⟨.constant (.iri "http://example.org/g"), []⟩]
  entries := [ageEntry, friendEntry]
  deferred := []

theorem agelessProduct : RowSite.Lacks ⟨⟨[], none, .percent⟩, ⟨[], [], []⟩, agesTable, (0, 0)⟩ ageEntry ∧
    (generateMap agesMap [agesTable] ⟨[], none, .percent⟩ ⟨[], [], []⟩).rowQuads (0, 0) =
      (generateMap { agesMap with entries := [friendEntry] } [agesTable] ⟨[], none, .percent⟩
        ⟨[], [], []⟩).rowQuads (0, 0) ∧
    (generateMap agesMap [agesTable] ⟨[], none, .percent⟩ ⟨[], [], []⟩).spans = [#[⟨0, 2⟩, ⟨2, 5⟩]] := by
  have lacks : RowSite.Lacks ⟨⟨[], none, .percent⟩, ⟨[], [], []⟩, agesTable, (0, 0)⟩ ageEntry :=
    .inr (by decide +kernel)
  have product := quadsAreProducts agesMap [agesTable] ⟨[], none, .percent⟩ ⟨[], [], []⟩
  refine ⟨lacks, ?_, by decide +kernel⟩
  exact product.2.1 0 agesTable 0 [] ageEntry [friendEntry] rfl (by decide) rfl lacks

end TabularRdf.Generation

import TabularRdf.Generation.Generate

/-! The quads of a map by row. The spans of an output cut out of its quads what each row emitted, in order and
without a gap; a place where no row stands has none. -/
namespace TabularRdf.Generation
open Iri Mapping Rdf

variable {α : Type}

def Span.cut (span : Span) (quads : List α) : List α := quads.extract span.start span.stop

theorem cutFirst (before row after : List α) :
    Span.cut ⟨before.length, before.length + row.length⟩ (before ++ row ++ after) = row := by
  simp [Span.cut]

theorem spansStop (sizes : List Nat) (start : Nat) : (spansFrom start sizes).2 = start + total sizes := by
  induction sizes generalizing start with
  | nil => rfl
  | cons size rest ih =>
    rw [spansFrom, total, List.foldr_cons, ← Nat.add_assoc]
    exact ih (start + size)

theorem spansCut (rows : List (List α)) (before after : List α) (r : Nat) :
    ((spansFrom before.length (rows.map List.length)).1[r]?).map
      (fun span => span.cut (before ++ rows.flatten ++ after)) = rows[r]? := by
  induction rows generalizing before r with
  | nil => rfl
  | cons row rest ih =>
    rw [List.map_cons, spansFrom]
    cases r with
    | zero =>
      have first := cutFirst before row (rest.flatten ++ after)
      simpa [List.append_assoc] using first
    | succ r =>
      have next := ih (before ++ row) r
      simpa [List.append_assoc] using next

theorem tableSpansCut (tables : List (List (List α))) (before after : List α) (t r : Nat) :
    (((tableSpansFrom before.length (tables.map fun rows => rows.map List.length))[t]?).bind
      fun spans => spans[r]?).map (fun span => span.cut (before ++ (tables.flatMap List.flatten) ++ after)) =
      (tables[t]?).bind fun rows => rows[r]? := by
  induction tables generalizing before t with
  | nil => rfl
  | cons rows rest ih =>
    rw [List.map_cons, tableSpansFrom]
    cases t with
    | zero =>
      have first := spansCut rows before (rest.flatMap List.flatten ++ after) r
      simpa [List.append_assoc] using first
    | succ t =>
      have next := ih (before ++ rows.flatten) t
      have stop : (spansFrom before.length (rows.map List.length)).2 =
        before.length + (rows.map List.length).sum := spansStop (rows.map List.length) before.length
      simpa [List.append_assoc, stop, List.length_flatten] using next

def emitted (map : CompiledMap) (tables : List Table) (resolver : Resolver) (context : JoinContext)
    (position : Position) : List Quad :=
  match tables[position.1]? with
  | none => []
  | some table =>
    if position.2 < table.rows then (rowAt resolver context (map.bind table).1 position).1 else []

def emittedRows (map : CompiledMap) (tables : List Table) (resolver : Resolver) (context : JoinContext) :
    List (List (List Quad)) :=
  tables.zipIdx.map fun (table, t) =>
    (List.range table.rows).map fun row => (rowAt resolver context (map.bind table).1 (t, row)).1

section

variable {map : CompiledMap} {tables : List Table} {resolver : Resolver} {context : JoinContext}

theorem emittedRow (position : Position) :
    (((emittedRows map tables resolver context)[position.1]?).bind fun rows => rows[position.2]?).getD [] =
      emitted map tables resolver context position := by
  unfold emitted
  cases found : tables[position.1]? with
  | none => simp [emittedRows, found]
  | some table =>
    by_cases bound : position.2 < table.rows
    · simp [emittedRows, found, bound]
    · simp [emittedRows, found, bound]

theorem outputRows : (tables.zipIdx.map fun (table, t) => generateTable map resolver context table t).map
    TableOutput.rows = emittedRows map tables resolver context := by
  simp [emittedRows, generateTable]

theorem outputQuads : (generateMap map tables resolver context).quads.toList =
    (emittedRows map tables resolver context).flatMap List.flatten := by
  rw [← outputRows, List.flatMap_map]
  rfl

theorem outputSpans : (generateMap map tables resolver context).spans =
    tableSpansFrom 0 ((emittedRows map tables resolver context).map fun rows => rows.map List.length) := by
  rw [← outputRows, List.map_map]
  rfl

theorem rowQuadsEmitted (position : Position) :
    (generateMap map tables resolver context).rowQuads position =
      emitted map tables resolver context position := by
  have cut := tableSpansCut (emittedRows map tables resolver context) [] [] position.1 position.2
  rw [← emittedRow, ← cut]
  unfold MapOutput.rowQuads MapOutput.span?
  rw [outputSpans, List.length_nil]
  split
  · rename_i span found
    rw [found, Array.toList_extract, outputQuads]
    simp [Span.cut]
  · rename_i missing
    rw [missing]
    rfl

end

end TabularRdf.Generation

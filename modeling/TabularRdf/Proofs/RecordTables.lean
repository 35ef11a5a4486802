import TabularRdf.Proofs.AssembledTables
import TabularRdf.Table.OfRecords

/-! Tables of records. While records are entered, each column has a cell for every row before, and one for the row at
hand when the record has named it already; so a column that is too long shows a repeated name, and one that is too
short still lacks its null. -/
namespace TabularRdf.Table
open Loading

def keysOf (records : List Record) : List String := records.flatMap fun record => record.map Prod.fst

def textsOf (records : List Record) (name : String) : List (Option String) :=
  records.map fun record => (record.lookup name).join

def Repeats (record : Record) (name : String) : Prop :=
  ∃ before text after, record = before ++ (name, text) :: after ∧ (before.map Prod.fst).Nodup ∧
    name ∈ before.map Prod.fst

structure FirstRepeat (records : List Record) (row : Nat) (name : String) : Prop where
  earlier : ∀ record ∈ records.take row, (record.map Prod.fst).Nodup
  here : ∃ record, records[row]? = some record ∧ Repeats record name

/- The columns when some records are done and the next is entered up to a point. -/
structure Entering (done : List Record) (before : Record) (columns : Named Cells) : Prop where
  names : FirstSeen (keysOf done ++ before.map Prod.fst) (columns.map Prod.fst)
  cells : ∀ name cells, columns.lookup name = some cells →
    cells.toList = textsOf done name ++ (before.lookup name).toList

structure Entered (done : List Record) (columns : Named Cells) : Prop where
  names : FirstSeen (keysOf done) (columns.map Prod.fst)
  cells : ∀ name cells, columns.lookup name = some cells → cells.toList = textsOf done name

section

variable {done : List Record} {before : Record} {columns : Named Cells} {name : String} {text : Option String}

theorem textsUnknown (absent : name ∉ keysOf done) : textsOf done name = List.replicate done.length none := by
  refine List.eq_replicate_iff.mpr ⟨List.length_map _, fun cell mem => ?_⟩
  obtain ⟨record, listed, rfl⟩ := List.mem_map.mp mem
  have lost : record.lookup name = none :=
    Named.unlisted.mpr fun inside => absent (List.mem_flatMap.mpr ⟨record, listed, inside⟩)
  rw [lost]
  rfl

theorem cellsFound (entering : Entering done before columns) (name : String) :
    ((columns.lookup name).getD (Array.replicate done.length none)).toList =
      textsOf done name ++ (before.lookup name).toList := by
  cases found : columns.lookup name with
  | some cells => exact entering.cells name cells found
  | none =>
    have absent := mt (entering.names.listed name).mpr (Named.unlisted.mp found)
    rw [List.mem_append, not_or] at absent
    rw [textsUnknown absent.1, Named.unlisted.mpr absent.2]
    simp

theorem cellRefused (entering : Entering done before columns) (again : name ∈ before.map Prod.fst) :
    enterCell done.length columns (name, text) = .error (.repeatedColumn done.length name) := by
  obtain ⟨cell, given⟩ := Named.listedFound again
  have size := congrArg List.length (cellsFound entering name)
  rw [given, Array.length_toList] at size
  refine if_pos ?_
  simp only [size, textsOf, List.length_append, List.length_map, Option.toList_some, List.length_singleton]
  exact Nat.lt_succ_self _

theorem cellEntered (entering : Entering done before columns) (fresh : name ∉ before.map Prod.fst)
    (text : Option String) :
    ∃ next, enterCell done.length columns (name, text) = .ok next ∧ Entering done (before ++ [(name, text)]) next := by
  have held := cellsFound entering name
  rw [Named.unlisted.mpr fresh, Option.toList_none, List.append_nil] at held
  have size := congrArg List.length held
  rw [Array.length_toList, textsOf, List.length_map] at size
  refine ⟨_, if_neg (Nat.not_lt_of_le (Nat.le_of_eq size)), ?_, fun other cells found => ?_⟩
  · rw [List.map_append, ← List.append_assoc, Named.namesSet]
    exact seenNext entering.names name
  · by_cases same : other = name
    · subst same
      rw [Named.lookupSelf] at found
      cases Option.some.inj found
      rw [Array.toList_push, held, List.lookup_append, Named.unlisted.mpr fresh]
      simp
    · rw [Named.lookupOther same] at found
      have missed : (other == name) = false := beq_eq_false_iff_ne.mpr same
      rw [entering.cells other cells found, List.lookup_append]
      simp [List.lookup_cons, missed]

theorem cellsEntered (entering : Entering done before columns) (distinct : (before.map Prod.fst).Nodup)
    (after : Record) :
    (((before ++ after).map Prod.fst).Nodup ∧ ∃ next, after.foldlM (enterCell done.length) columns = .ok next ∧
        Entering done (before ++ after) next) ∨
      ∃ name, Repeats (before ++ after) name ∧
        after.foldlM (enterCell done.length) columns = .error (.repeatedColumn done.length name) := by
  induction after generalizing before columns with
  | nil =>
    rw [List.append_nil]
    exact .inl ⟨distinct, columns, rfl, entering⟩
  | cons cell after ih =>
    obtain ⟨name, text⟩ := cell
    by_cases again : name ∈ before.map Prod.fst
    · refine .inr ⟨name, ⟨before, text, after, rfl, distinct, again⟩, ?_⟩
      rw [List.foldlM_cons, cellRefused entering again]
      rfl
    · obtain ⟨next, entered, entering⟩ := cellEntered entering again text
      have longer : ((before ++ [(name, text)]).map Prod.fst).Nodup := by
        simpa using distinct.concat again
      have later := ih entering longer
      rw [List.append_assoc, List.singleton_append] at later
      rw [List.foldlM_cons, entered]
      exact later

theorem filledUp (entering : Entering done before columns) : Entered (done ++ [before]) (fillUp done.length columns) := by
  constructor
  · have names : (fillUp done.length columns).map Prod.fst = columns.map Prod.fst := by
      rw [fillUp, List.map_map]
      rfl
    rw [names, keysOf, List.flatMap_append, List.flatMap_singleton]
    exact entering.names
  · intro name cells found
    have mapped : fillUp done.length columns =
        columns.mapValues fun cells => if cells.size = done.length then cells.push none else cells := rfl
    rw [mapped, Named.lookupMapped, Option.map_eq_some_iff] at found
    obtain ⟨held, found, rfl⟩ := found
    have texts := entering.cells name held found
    have size := congrArg List.length texts
    rw [Array.length_toList, textsOf, List.length_append, List.length_map] at size
    rw [textsOf, List.map_append, ← textsOf]
    cases given : before.lookup name with
    | none =>
      simp only [given, Option.toList_none, List.append_nil, List.length_nil, Nat.add_zero] at texts size
      rw [if_pos size, Array.toList_push, texts]
      simp [given]
    | some cell =>
      simp only [given, Option.toList_some, List.length_singleton] at texts size
      rw [if_neg (by omega), texts]
      simp [given]

theorem recordEntered (entered : Entered done columns) (record : Record) :
    ((record.map Prod.fst).Nodup ∧ ∃ next, enterRecord done.length columns record = .ok next ∧
        Entered (done ++ [record]) next) ∨
      ∃ name, Repeats record name ∧
        enterRecord done.length columns record = .error (.repeatedColumn done.length name) := by
  have entering : Entering done [] columns := by
    refine ⟨by simpa using entered.names, fun name cells found => ?_⟩
    simpa using entered.cells name cells found
  rcases cellsEntered entering List.nodup_nil record with ⟨distinct, next, filled, entering⟩ | ⟨name, again, refused⟩
  · exact .inl ⟨distinct, _, boundOk.mpr ⟨next, filled, rfl⟩, filledUp entering⟩
  · exact .inr ⟨name, again, boundFailed.mpr (.inl refused)⟩

theorem recordsEntered (entered : Entered done columns) (records : List Record) :
    ((∀ record ∈ records, (record.map Prod.fst).Nodup) ∧
        ∃ next, enterRecords done.length columns records = .ok next ∧ Entered (done ++ records) next) ∨
      ∃ row name, FirstRepeat records row name ∧
        enterRecords done.length columns records = .error (.repeatedColumn (done.length + row) name) := by
  induction records generalizing done columns with
  | nil =>
    rw [List.append_nil]
    exact .inl ⟨List.forall_mem_nil _, columns, rfl, entered⟩
  | cons record rest ih =>
    rcases recordEntered entered record with ⟨distinct, next, added, entered⟩ | ⟨name, again, refused⟩
    · have later := ih entered
      rw [List.length_append, List.length_singleton, List.append_assoc, List.singleton_append] at later
      rcases later with ⟨all, last, done, finished⟩ | ⟨row, name, first, refused⟩
      · exact .inl ⟨List.forall_mem_cons.mpr ⟨distinct, all⟩, last, boundOk.mpr ⟨next, added, done⟩, finished⟩
      · refine .inr ⟨row + 1, name, ⟨?_, first.here⟩, ?_⟩
        · exact List.forall_mem_cons.mpr ⟨distinct, first.earlier⟩
        · rw [Nat.add_comm row, ← Nat.add_assoc]
          exact boundFailed.mpr (.inr ⟨next, added, refused⟩)
    · exact .inr ⟨0, name, ⟨List.forall_mem_nil _, record, rfl, again⟩, boundFailed.mpr (.inl refused)⟩

end

structure Tabled (records : List Record) (table : Table) : Prop where
  rows : table.rows = records.length
  names : FirstSeen (keysOf records) table.schema.names
  count : table.columns.length = table.schema.fields.length
  full : ∀ column ∈ table.columns, column.size = table.rows
  texts : ∀ row record, records[row]? = some record → ∀ name, table.text? row name = (record.lookup name).join
  strings : ∀ name ∈ table.schema.names, ∃ info column, table.schema.field? name = some info ∧
    table.column? name = some column ∧ info.fieldType = .string ∧ column.fieldType = .string ∧
    (info.nullable = true ↔ ∃ row < table.rows, column.isNull row)

section

variable {records : List Record} {columns : Named Cells} {name : String} {cells : Cells}

theorem cellsSize (entered : Entered records columns) (found : columns.lookup name = some cells) :
    cells.size = records.length := by
  rw [← Array.length_toList, entered.cells name cells found, textsOf, List.length_map]

theorem cellText (entered : Entered records columns) (found : columns.lookup name = some cells) (row : Nat) :
    (Column.string cells).text? row = records[row]?.bind fun record => (record.lookup name).join := by
  change cells[row]?.join = _
  rw [← Array.getElem?_toList, entered.cells name cells found, textsOf, List.getElem?_map]
  cases records[row]? <;> rfl

theorem cellUnknown (entered : Entered records columns) (lost : columns.lookup name = none) {record : Record}
    (listed : record ∈ records) : record.lookup name = none :=
  Named.unlisted.mpr fun inside => Named.unlisted.mp lost
    ((entered.names.listed name).mpr (List.mem_flatMap.mpr ⟨record, listed, inside⟩))

theorem nullListed {cells : Cells} : cells.any Option.isNone = true ↔ ∃ row < cells.size,
    (Column.string cells).isNull row := by
  rw [Array.any_eq_true]
  refine exists_congr fun row => ⟨fun ⟨bound, null⟩ => ⟨bound, ?_⟩, fun ⟨bound, null⟩ => ⟨bound, ?_⟩⟩
  · simpa [Column.isNull, Column.text?, bound] using null
  · simpa [Column.isNull, Column.text?, bound] using null

def tableOf (columns : Named Cells) (rows : Nat) : Table :=
  assembled (fun _ => .string) (fun cells => cells.any Option.isNone) .string columns rows

theorem tabled (entered : Entered records columns) : Tabled records (tableOf columns records.length) where
  rows := rfl
  names := by
    rw [tableOf, assembledNames]
    exact entered.names
  count := by simp [tableOf, assembled]
  full column mem := by
    obtain ⟨entry, listed, rfl⟩ := List.mem_map.mp mem
    exact cellsSize entered (Named.lookupOf entered.names.distinct listed)
  texts row record here name := by
    rw [Table.text?, tableOf, assembledColumn]
    cases found : columns.lookup name with
    | some cells => exact (cellText entered found row).trans (by rw [here, Option.bind_some])
    | none =>
      rw [cellUnknown entered found (List.mem_of_getElem? here)]
      rfl
  strings name mem := by
    rw [tableOf, assembledNames] at mem
    obtain ⟨cells, found⟩ := Named.listedFound mem
    rw [tableOf, assembledField, assembledColumn, found]
    refine ⟨_, _, rfl, rfl, rfl, rfl, ?_⟩
    rw [← cellsSize entered found]
    exact nullListed

end

theorem recordsTabled (records : List Record) :
    ((∀ record ∈ records, (record.map Prod.fst).Nodup) ∧
        ∃ table, ofRecords records = .ok table ∧ Tabled records table) ∨
      ∃ row name, FirstRepeat records row name ∧ ofRecords records = .error (.repeatedColumn row name) := by
  have start : Entered [] [] := ⟨seenNone, nofun⟩
  rcases recordsEntered start records with ⟨distinct, columns, entered, finished⟩ | ⟨row, name, first, refused⟩
  · refine .inl ⟨distinct, _, boundOk.mpr ⟨columns, entered, ?_⟩, tabled finished⟩
    refine assembledMade (fun _ => .string) (fun cells => cells.any Option.isNone) .string
      finished.names.distinct (fun entry listed => ?_) fun _ _ => rfl
    exact cellsSize finished (Named.lookupOf finished.names.distinct listed)
  · rw [List.length_nil, Nat.zero_add] at refused
    exact .inr ⟨row, name, first, boundFailed.mpr (.inl refused)⟩

end TabularRdf.Table

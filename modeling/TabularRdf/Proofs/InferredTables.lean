import TabularRdf.Proofs.AssembledTables
import TabularRdf.Table.OfJson

/-! Tables of JSON records. The type of a column is the first that fits all its values; a value that fits is stored,
and so no cell is null but where a record has no value. -/
namespace TabularRdf.Table
open Loading
open TabularRdf.Json (Fields)

def Fits : FieldType → Json → Prop
  | .boolean, value => ∃ b, value = .bool b
  | .int64, value => ∃ n : Int, value = .num (.int n) ∧ -9223372036854775808 ≤ n ∧ n < 9223372036854775808
  | .float64, value => ∃ n, value = .num n
  | .string, _ => True

def FieldType.before : FieldType → List FieldType
  | .boolean => []
  | .int64 => [.boolean]
  | .float64 => [.boolean, .int64]
  | .string => [.boolean, .int64, .float64]

structure FirstFit (present : Json → Prop) (type : FieldType) : Prop where
  given : ∃ value, present value
  fits : ∀ value, present value → Fits type value
  first : ∀ other ∈ type.before, ¬ ∀ value, present value → Fits other value

theorem typesOrdered (type other : FieldType) : type = other ∨ type ∈ other.before ∨ other ∈ type.before := by
  cases type <;> cases other <;> decide

theorem fitUnique {present : Json → Prop} {type other : FieldType} (one : FirstFit present type)
    (two : FirstFit present other) : type = other := by
  rcases typesOrdered type other with same | before | after
  · exact same
  · exact absurd one.fits (two.first type before)
  · exact absurd two.fits (one.first other after)

theorem booleanFits {value : Json} : value.bool?.isSome = true ↔ Fits .boolean value := by
  cases value <;> simp [Json.bool?, Fits]

theorem integerFits {value : Json} : (signed64? value).isSome = true ↔ Fits .int64 value := by
  cases value with
  | num n =>
    cases n with
    | int n =>
      simp only [signed64?, Json.Number.signed64?, Option.isSome_ite, Json.Number.isSigned64, Bool.and_eq_true,
        decide_eq_true_eq]
      exact ⟨fun bounds => ⟨n, rfl, bounds⟩, fun ⟨_, same, bounds⟩ => by cases same; exact bounds⟩
    | float x => simp [signed64?, Json.Number.signed64?, Fits]
  | _ => simp [signed64?, Fits]

theorem numberFits {value : Json} : (binary64? value).isSome = true ↔ Fits .float64 value := by
  cases value <;> simp [binary64?, Fits]

theorem nullTold {value : Json} : (!value.isNull) = true ↔ value ≠ .null := by
  cases value <;> simp [Json.isNull]

section

variable {values : List Json}

theorem presentAll {test : Json → Bool} {type : FieldType} (each : ∀ {value}, test value = true ↔ Fits type value) :
    (values.filter fun v => !v.isNull).all test = true ↔
      ∀ value, value ≠ .null ∧ value ∈ values → Fits type value := by
  rw [List.all_eq_true]
  refine forall_congr' fun value => ?_
  rw [List.mem_filter, nullTold, each, and_comm]

theorem typeFirst (given : ∃ value, value ≠ .null ∧ value ∈ values) :
    FirstFit (fun value => value ≠ .null ∧ value ∈ values) (typeOf values) := by
  have some : (values.filter fun v => !v.isNull).isEmpty = false := by
    obtain ⟨value, present, listed⟩ := given
    rw [List.isEmpty_eq_false_iff]
    exact List.ne_nil_of_mem (List.mem_filter.mpr ⟨listed, nullTold.mpr present⟩)
  simp only [typeOf, some, Bool.false_eq_true, if_false]
  split
  · rename_i boolean
    exact ⟨given, (presentAll booleanFits).mp boolean, nofun⟩
  · rename_i boolean
    have notBoolean := mt (presentAll booleanFits).mpr boolean
    split
    · rename_i integer
      exact ⟨given, (presentAll integerFits).mp integer, List.forall_mem_singleton.mpr notBoolean⟩
    · rename_i integer
      have notInteger := mt (presentAll integerFits).mpr integer
      split
      · rename_i number
        exact ⟨given, (presentAll numberFits).mp number, List.forall_mem_cons.mpr ⟨notBoolean,
          List.forall_mem_singleton.mpr notInteger⟩⟩
      · rename_i number
        have notNumber := mt (presentAll numberFits).mpr number
        exact ⟨given, fun _ _ => trivial, List.forall_mem_cons.mpr ⟨notBoolean, List.forall_mem_cons.mpr ⟨notInteger,
          List.forall_mem_singleton.mpr notNumber⟩⟩⟩

theorem typeAbsent (absent : ¬ ∃ value, value ≠ .null ∧ value ∈ values) : typeOf values = .string := by
  have empty : (values.filter fun v => !v.isNull).isEmpty = true := by
    rw [List.isEmpty_iff, List.filter_eq_nil_iff]
    exact fun value listed present => absent ⟨value, nullTold.mp present, listed⟩
  simp only [typeOf, empty, if_true]

theorem typeChosen {type : FieldType} (other : type ≠ .string) :
    typeOf values = type ↔ FirstFit (fun value => value ≠ .null ∧ value ∈ values) type := by
  constructor
  · rintro rfl
    exact typeFirst (by_contra fun absent => other (typeAbsent absent))
  · exact fun fit => fitUnique (typeFirst fit.given) fit

theorem typeFits {value : Json} (present : value ≠ .null) (listed : value ∈ values) : Fits (typeOf values) value :=
  (typeFirst ⟨value, present, listed⟩).fits value ⟨present, listed⟩

theorem columnSize (type : FieldType) : (columnOf type values).size = values.length := by
  cases type <;> simp [columnOf, Column.size]

theorem columnType (type : FieldType) : (columnOf type values).fieldType = type := by
  cases type <;> rfl

/- The text of a value in a column of a type: a number in a column of numbers that are not all integers is written
as the nearest binary64 number, and any other value as it is by itself. -/
def textIn : FieldType → Json → Option String
  | .float64, .num n => some (Decimal.Layout.cell.text n.toBinary64)
  | _, value => cellText? value

theorem truthWritten (b : Bool) : cellText? (.bool b) = some (Column.truthText b) := by
  cases b <;> simp [cellText?, Json.compact, Json.writeChars, Column.truthText]

theorem numberWritten (n : Json.Number) : cellText? (.num n) = some n.text := by
  simp [cellText?, Json.compact, Json.writeChars]

theorem columnText {type : FieldType} {row : Nat} {value : Json} (here : values[row]? = some value)
    (fits : value ≠ .null → Fits type value) : (columnOf type values).text? row = textIn type value := by
  by_cases null : value = .null
  · subst null
    cases type <;> simp [columnOf, Column.text?, here, textIn, cellText?, Json.bool?, signed64?, binary64?]
  · have fit := fits null
    cases type with
    | boolean =>
      obtain ⟨b, rfl⟩ := fit
      simp [columnOf, Column.text?, here, textIn, Json.bool?, truthWritten]
    | int64 =>
      have signed := integerFits.mpr fit
      obtain ⟨n, rfl, _⟩ := fit
      simp only [signed64?, Json.Number.signed64?, Option.isSome_ite] at signed
      simp [columnOf, Column.text?, here, textIn, signed64?, Json.Number.signed64?, signed, numberWritten, Json.Number.text]
    | float64 =>
      obtain ⟨n, rfl⟩ := fit
      simp [columnOf, Column.text?, here, textIn, binary64?]
    | string => simp [columnOf, Column.text?, here, textIn]

theorem textNull {type : FieldType} {value : Json} : textIn type value = none ↔ value = .null := by
  cases type <;> cases value <;> simp [textIn, cellText?]

theorem columnNull {row : Nat} {value : Json} (here : values[row]? = some value) :
    (columnOf (typeOf values) values).isNull row = true ↔ value = .null := by
  rw [Column.isNull, columnText here fun present => typeFits present (List.mem_of_getElem? here), Option.isNone_iff_eq_none,
    textNull]

end

def Present (records : List Fields) (name : String) (value : Json) : Prop :=
  value ≠ .null ∧ ∃ fields ∈ records, fields.lookup name = some value

structure InferredColumn (records : List Fields) (name : String) (info : ColumnInfo) (column : Column) : Prop where
  typed : column.fieldType = info.fieldType
  nulls : ∀ row fields, records[row]? = some fields →
    (column.isNull row = true ↔ fields.lookup name = none ∨ fields.lookup name = some .null)
  nullable : info.nullable = true ↔ ∃ row < records.length, column.isNull row
  chosen : ∀ type ≠ .string, info.fieldType = type ↔ FirstFit (Present records name) type

structure Inferred (records : List Fields) (table : Table) : Prop where
  rows : table.rows = records.length
  names : FirstSeen (records.flatMap fun fields => fields.map Prod.fst) table.schema.names
  count : table.columns.length = table.schema.fields.length
  full : ∀ column ∈ table.columns, column.size = table.rows
  columns : ∀ name ∈ table.schema.names, ∃ info column, table.schema.field? name = some info ∧
    table.column? name = some column ∧ InferredColumn records name info column

section

variable {records : List Fields} {name : String}

theorem presentListed : Present records name = fun value => value ≠ .null ∧ value ∈ fieldValues records name := by
  funext value
  refine propext (and_congr_right fun present => ?_)
  rw [fieldValues, List.mem_map]
  refine exists_congr fun fields => and_congr_right fun _ => ?_
  cases fields.lookup name with
  | some held => exact Option.some_inj
  | none => exact ⟨nofun, fun same => absurd same.symm present⟩

theorem valueAt {row : Nat} {fields : Fields} (here : records[row]? = some fields) :
    (fieldValues records name)[row]? = some ((fields.lookup name).getD .null) := by
  rw [fieldValues, List.getElem?_map, here, Option.map_some]

def columnFor (values : List Json) : Column := columnOf (typeOf values) values

theorem columnInferred : InferredColumn records name
    (infoOf typeOf (fun values => values.any Json.isNull) (name, fieldValues records name))
    (columnFor (fieldValues records name)) := by
  have length : (fieldValues records name).length = records.length := by rw [fieldValues, List.length_map]
  refine ⟨columnType _, fun row fields here => ?_, ?_, fun type other => ?_⟩
  · rw [columnFor, columnNull (valueAt here)]
    cases fields.lookup name <;> simp
  · rw [infoOf, List.any_eq_true, ← length]
    constructor
    · rintro ⟨value, listed, null⟩
      obtain ⟨row, bound, here⟩ := List.getElem_of_mem listed
      refine ⟨row, bound, (columnNull (List.getElem?_eq_some_iff.mpr ⟨bound, here⟩)).mpr ?_⟩
      cases value <;> first | rfl | cases null
    · rintro ⟨row, bound, null⟩
      refine ⟨_, List.getElem_mem bound, ?_⟩
      rw [(columnNull (List.getElem?_eq_getElem bound)).mp null]
      rfl
  · rw [presentListed]
    exact typeChosen other

def valuesByName (records : List Fields) : Named (List Json) :=
  (records.flatMap fun fields => fields.map Prod.fst).eraseDups.map fun name => (name, fieldValues records name)

theorem valuesNamed : (valuesByName records).map Prod.fst =
    (records.flatMap fun fields => fields.map Prod.fst).eraseDups := by
  rw [valuesByName, List.map_map]
  exact List.map_id _

theorem valuesFound (listed : name ∈ (valuesByName records).map Prod.fst) :
    (valuesByName records).lookup name = some (fieldValues records name) := by
  obtain ⟨values, found⟩ := Named.listedFound listed
  obtain ⟨_, _, same⟩ := List.mem_map.mp (Named.foundListed found)
  cases same
  exact found

def tableFor (records : List Fields) : Table :=
  assembled typeOf (fun values => values.any Json.isNull) columnFor (valuesByName records) records.length

theorem valuesLength {entry : String × List Json} (listed : entry ∈ valuesByName records) :
    (columnFor entry.2).size = records.length := by
  obtain ⟨name, _, rfl⟩ := List.mem_map.mp listed
  rw [columnFor, columnSize, fieldValues, List.length_map]

theorem inferred (records : List Fields) : Inferred records (tableFor records) where
  rows := rfl
  names := by
    rw [tableFor, assembledNames, valuesNamed]
    exact seenErased _
  count := by simp [tableFor, assembled]
  full column mem := by
    obtain ⟨entry, listed, rfl⟩ := List.mem_map.mp mem
    exact valuesLength listed
  columns name mem := by
    rw [tableFor, assembledNames] at mem
    rw [tableFor, assembledField, assembledColumn, valuesFound mem]
    exact ⟨_, _, rfl, rfl, columnInferred⟩

theorem tableInferred {items : List Json} (read : objectsOf 0 items = .ok records) :
    ofJson (.arr items) = .ok (tableFor records) := by
  have distinct : ((valuesByName records).map Prod.fst).Nodup := by
    rw [valuesNamed]
    exact (seenErased _).distinct
  refine boundOk.mpr ⟨records, read, ?_⟩
  exact assembledMade typeOf (fun values => values.any Json.isNull) columnFor distinct
    (fun _ listed => valuesLength listed) fun _ _ => columnType _

end

theorem objectsRead (row : Nat) (items : List Json) :
    (∃ records, items = records.map Json.obj ∧ objectsOf row items = .ok records) ∨
      ∃ (before : List Fields) (item : Json) (after : List Json), items = before.map Json.obj ++ item :: after ∧ item.obj? = none ∧
        objectsOf row items = .error (.notAnObject (row + before.length)) := by
  induction items generalizing row with
  | nil => exact .inl ⟨[], rfl, rfl⟩
  | cons item rest ih =>
    cases item with
    | obj fields =>
      rcases ih (row + 1) with ⟨records, same, read⟩ | ⟨before, item, after, same, other, refused⟩
      · exact .inl ⟨fields :: records, congrArg _ same, by rw [objectsOf, read]; rfl⟩
      · refine .inr ⟨fields :: before, item, after, congrArg _ same, other, ?_⟩
        rw [objectsOf, refused, List.length_cons, Nat.add_comm before.length, ← Nat.add_assoc]
        rfl
    | _ => exact .inr ⟨[], _, rest, rfl, rfl, rfl⟩

theorem jsonTabled (value : Json) :
    (∃ records, value = .arr (records.map .obj) ∧ ∃ table, ofJson value = .ok table ∧ Inferred records table) ∨
      (∃ (before : List Fields) (item : Json) (after : List Json), value = .arr (before.map .obj ++ item :: after) ∧ item.obj? = none ∧
        ofJson value = .error (.notAnObject before.length)) ∨
      value.arr? = none ∧ ofJson value = .error .notAnArray := by
  cases value with
  | arr items =>
    rcases objectsRead 0 items with ⟨records, rfl, read⟩ | ⟨before, item, after, same, other, refused⟩
    · exact .inl ⟨records, rfl, _, tableInferred read, inferred records⟩
    · rw [Nat.zero_add] at refused
      refine .inr (.inl ⟨before, item, after, congrArg _ same, other, ?_⟩)
      exact boundFailed.mpr (.inl refused)
  | _ => exact .inr (.inr ⟨rfl, rfl⟩)

end TabularRdf.Table

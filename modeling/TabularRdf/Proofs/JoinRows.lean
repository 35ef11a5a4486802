import TabularRdf.Generation.Generate
import TabularRdf.Proofs.Loading
import TabularRdf.Proofs.SortedKeys

/-! The rows that meet in a join. By its indexes a row finds the same partners, in the same order, as by
comparing it with every row of the other map. -/
namespace TabularRdf.Generation
open Iri Mapping Rdf Loading

def keyText (table : Table) (names : List String) (row : Nat) : Option (List String) :=
  names.mapM fun name => table.text? row name

def meets (condition : JoinCondition) (child : Table) (row : Nat) (parent : Table) (other : Nat) : Bool :=
  condition.keys.all fun key =>
    (child.text? row key.child).isSome && child.text? row key.child = parent.text? other key.parent

def partners (child : Table) (condition : Option JoinCondition) (tables : List Table)
    (position : Position) : List Position :=
  match condition with
  | none => [position]
  | some c => tables.zipIdx.flatMap fun (parent, t) =>
      ((List.range parent.rows).filter fun other => meets c child position.2 parent other).map
        fun other => (t, other)

theorem gatheredCons {α β : Type} (f : α → Option β) (x : α) (xs : List α) :
    (x :: xs).mapM f = (f x).bind fun y => (xs.mapM f).map fun ys => y :: ys := by
  rw [List.mapM_cons]
  cases f x with
  | none => rfl
  | some y => cases xs.mapM f <;> rfl

theorem keyTextCons (table : Table) (name : String) (names : List String) (row : Nat) :
    keyText table (name :: names) row =
      (table.text? row name).bind fun text => (keyText table names row).map fun key => text :: key :=
  gatheredCons _ name names

theorem keyBound {table : Table} {names : List String} {columns : List Table.Column}
    (bound : bindKey table names = .ok columns) (row : Nat) : keyAt columns row = keyText table names row := by
  have pairs := mappedOk.mp bound
  clear bound
  induction pairs with
  | nil => rfl
  | cons head _ ih =>
    rename_i name column names columns _
    have here : table.text? row name = column.text? row := by
      unfold Table.text?
      split at head
      · rename_i found
        cases Except.ok.inj head
        rw [found]
        rfl
      · contradiction
    rw [keyTextCons, ← ih, here]
    exact gatheredCons _ column columns

theorem keyLacking {table : Table} {names : List String} {name : String} (listed : name ∈ names)
    (lacking : table.column? name = none) (row : Nat) : keyText table names row = none := by
  induction names with
  | nil => contradiction
  | cons first names ih =>
    rw [keyTextCons]
    rcases List.mem_cons.mp listed with rfl | later
    · simp [Table.text?, lacking]
    · simp [ih later]

theorem keyUnbound {table : Table} {names : List String} {e : TermFailure}
    (unbound : bindKey table names = .error e) (row : Nat) : keyText table names row = none := by
  obtain ⟨name, listed, failed⟩ := mappedFailure unbound
  split at failed
  · contradiction
  · exact keyLacking listed ‹_› row

theorem meetsKey {condition : JoinCondition} {child parent : Table} {row other : Nat} :
    meets condition child row parent other = true ↔ ∃ key,
      keyText child condition.childColumns row = some key ∧
      keyText parent condition.parentColumns other = some key := by
  obtain ⟨keys⟩ := condition
  simp only [meets, JoinCondition.childColumns, JoinCondition.parentColumns]
  induction keys with
  | nil => simp [keyText]
  | cons first rest ih =>
    rw [List.all_cons, Bool.and_eq_true, ih, List.map_cons, List.map_cons, keyTextCons, keyTextCons]
    constructor
    · rintro ⟨same, key, ofChild, ofParent⟩
      simp only [Bool.and_eq_true, decide_eq_true_eq, Option.isSome_iff_exists] at same
      obtain ⟨⟨text, found⟩, equal⟩ := same
      rw [found] at equal
      exact ⟨text :: key, by simp [found, ofChild], by simp [← equal, ofParent]⟩
    · rintro ⟨key, ofChild, ofParent⟩
      obtain ⟨text, found, tail⟩ := Option.bind_eq_some_iff.mp ofChild
      obtain ⟨key, ofRest, rfl⟩ := Option.map_eq_some_iff.mp tail
      obtain ⟨other, there, tail⟩ := Option.bind_eq_some_iff.mp ofParent
      obtain ⟨_, restThere, same⟩ := Option.map_eq_some_iff.mp tail
      cases same
      exact ⟨by simp [found, there], key, ofRest, restThere⟩

namespace QuoteIndex

theorem enteredAll (entries : List (List String × Position))
    (positions : Std.HashMap (List String) (Array Position)) (key : List String) :
    (((entries.foldl enter positions)[key]?).getD #[]).toList =
      ((positions[key]?).getD #[]).toList ++ (entries.filter fun entry => entry.1 = key).map Prod.snd := by
  induction entries generalizing positions with
  | nil => simp
  | cons entry rest ih =>
    rw [List.foldl_cons, ih, enter, Std.HashMap.getElem?_alter]
    by_cases same : entry.1 = key
    · simp [same, List.append_assoc]
    · simp [same]

theorem keyedTable (columns : List String) (t : Nat) (table : Table) :
    keyedRows columns (t, table) = (List.range table.rows).filterMap fun row =>
      (keyText table columns row).map fun key => (key, (t, row)) := by
  unfold keyedRows
  split
  · rename_i unbound
    simp [keyUnbound unbound]
  · rename_i bound
    simp [keyBound bound]

theorem lookedUp (tables : List Table) (columns key : List String) :
    (build tables columns).lookup key = tables.zipIdx.flatMap fun (table, t) =>
      ((List.range table.rows).filter fun row => keyText table columns row = some key).map
        fun row => (t, row) := by
  unfold lookup build
  rw [enteredAll]
  simp only [Std.HashMap.getElem?_empty, Option.getD_none, List.nil_append, List.flatMap_map,
    List.filter_flatMap, List.map_flatMap]
  congr 1
  funext ⟨table, t⟩
  rw [keyedTable]
  induction List.range table.rows with
  | nil => rfl
  | cons row rest ih =>
    cases found : keyText table columns row with
    | none => simpa [found] using ih
    | some other =>
      by_cases same : other = key
      · simpa [found, same] using ih
      · simpa [found, same] using ih

end QuoteIndex

theorem boundProbe (child : Table) (condition : JoinCondition) :
    (∃ columns, (bindProbe child (some condition)).1 = .keyed columns ∧
      ∀ row, keyAt columns row = keyText child condition.childColumns row) ∨
    ((bindProbe child (some condition)).1 = .unbound ∧
      ∀ row, keyText child condition.childColumns row = none) := by
  simp only [bindProbe, Probe.bind]
  cases bound : bindKey child condition.childColumns with
  | ok columns => exact .inl ⟨columns, by rw [Except.map], keyBound bound⟩
  | error e => exact .inr ⟨by rw [Except.map], keyUnbound bound⟩

section

variable {child : Table} {condition : JoinCondition} {position : Position} {tables : List Table}

theorem partnersOf {key : List String}
    (found : keyText child condition.childColumns position.2 = some key) :
    partners child (some condition) tables position =
      (QuoteIndex.build tables condition.parentColumns).lookup key := by
  rw [QuoteIndex.lookedUp]
  simp only [partners]
  congr 1
  funext ⟨parent, t⟩
  refine congrArg (List.map _) (List.filter_congr fun other _ => ?_)
  rw [Bool.eq_iff_iff, meetsKey, decide_eq_true_iff]
  simp [found]

theorem partnerless (lost : keyText child condition.childColumns position.2 = none) :
    partners child (some condition) tables position = [] := by
  simp only [partners, List.flatMap_eq_nil_iff, List.map_eq_nil_iff, List.filter_eq_nil_iff]
  intro _ _ other _ met
  obtain ⟨key, found, _⟩ := meetsKey.mp met
  rw [lost] at found
  contradiction

end

def subjectsGiven (terms : List CompiledTerm) (tables : List Table) (resolver : Resolver)
    (position : Position) : List Term :=
  match tables[position.1]? with
  | none => []
  | some table =>
    if position.2 < table.rows then
      terms.filterMap fun t => (t.resolve resolver (Row.ofTable table position.2)).toOption
    else []

theorem subjectsBuilt (tables : List Table) (terms : List CompiledTerm) (resolver : Resolver)
    (columns : Option (List String)) (position : Position) :
    (SubjectIndex.build tables terms resolver columns).subjectsAt position =
      subjectsGiven terms tables resolver position := by
  unfold SubjectIndex.subjectsAt SubjectIndex.build subjectsGiven
  cases found : tables[position.1]? with
  | none => simp [found]
  | some table =>
    by_cases bound : position.2 < table.rows
    · simp [found, bound, SubjectIndex.rowSubjects, List.filterMap_map,
        CompiledTerm.atRowBind]
    · simp [found, bound, SubjectIndex.rowSubjects]

theorem subjectsByKey (tables : List Table) (terms : List CompiledTerm) (resolver : Resolver)
    (columns key : List String) :
    (SubjectIndex.build tables terms resolver (some columns)).byKey key =
      ((QuoteIndex.build tables columns).lookup key).flatMap (subjectsGiven terms tables resolver) := by
  have each : (SubjectIndex.build tables terms resolver (some columns)).subjectsAt =
      subjectsGiven terms tables resolver := funext (subjectsBuilt tables terms resolver (some columns))
  rw [← each]
  rfl

end TabularRdf.Generation

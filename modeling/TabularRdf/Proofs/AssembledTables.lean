import Mathlib.Data.List.Induction
import TabularRdf.Proofs.Loading
import TabularRdf.Proofs.NamedUpdates
import TabularRdf.Table.Basic

/-! Tables put together from named columns. When no name comes twice, the columns are of one length and each is of
the type that is declared for it, the checked constructors refuse nothing, and a name leads to its own column. -/
namespace TabularRdf.Table
open Loading

structure FirstSeen (keys names : List String) : Prop where
  listed : ∀ name, name ∈ names ↔ name ∈ keys
  ordered : names.Pairwise fun name later => keys.idxOf name < keys.idxOf later

section

variable {keys names : List String}

theorem FirstSeen.distinct (seen : FirstSeen keys names) : names.Nodup :=
  seen.ordered.imp fun before => ne_of_apply_ne keys.idxOf (Nat.ne_of_lt before)

theorem seenNone : FirstSeen [] [] := ⟨fun _ => Iff.rfl, .nil⟩

theorem seenNext (seen : FirstSeen keys names) (key : String) :
    FirstSeen (keys ++ [key]) (if key ∈ names then names else names ++ [key]) := by
  have kept : names.Pairwise fun name later => (keys ++ [key]).idxOf name < (keys ++ [key]).idxOf later := by
    refine seen.ordered.imp_of_mem fun here there before => ?_
    rwa [List.idxOf_append_of_mem ((seen.listed _).mp here), List.idxOf_append_of_mem ((seen.listed _).mp there)]
  split
  · rename_i known
    refine ⟨fun name => ?_, kept⟩
    rw [List.mem_append, List.mem_singleton, ← seen.listed]
    exact ⟨.inl, fun mem => mem.elim id fun same => same ▸ known⟩
  · rename_i fresh
    refine ⟨fun name => ?_, ?_⟩
    · rw [List.mem_append, List.mem_append, seen.listed]
    · refine List.pairwise_append.mpr ⟨kept, List.pairwise_singleton _ _, fun name mem last same => ?_⟩
      rw [List.mem_singleton.mp same]
      have listed := (seen.listed name).mp mem
      rw [List.idxOf_append_of_mem listed, List.idxOf_append_of_notMem (mt (seen.listed key).mpr fresh)]
      exact Nat.lt_add_right _ (List.idxOf_lt_length_iff.mpr listed)

theorem seenErased (keys : List String) : FirstSeen keys keys.eraseDups := by
  induction keys using List.reverseRecOn with
  | nil => exact seenNone
  | append_singleton keys key ih =>
    have next := seenNext ih key
    have erased : (keys ++ [key]).eraseDups =
        if key ∈ keys.eraseDups then keys.eraseDups else keys.eraseDups ++ [key] := by
      rw [List.eraseDups_append]
      by_cases known : key ∈ keys <;> simp [List.removeAll, known, List.eraseDups_cons]
    rwa [erased]

end

theorem repeatedNone {seen names : List String} :
    Schema.repeated? seen names = none ↔ names.Nodup ∧ ∀ name ∈ names, name ∉ seen := by
  induction names generalizing seen with
  | nil => simp [Schema.repeated?]
  | cons name rest ih =>
    unfold Schema.repeated?
    split
    · rename_i again
      exact ⟨nofun, fun ⟨_, fresh⟩ => absurd again (fresh name List.mem_cons_self)⟩
    · rename_i fresh
      rw [ih, List.nodup_cons, List.forall_mem_cons]
      constructor
      · rintro ⟨distinct, later⟩
        exact ⟨⟨fun mem => later name mem List.mem_cons_self, distinct⟩, fresh,
          fun other mem inside => later other mem (List.mem_cons_of_mem _ inside)⟩
      · rintro ⟨⟨first, distinct⟩, _, later⟩
        refine ⟨distinct, fun other mem inside => ?_⟩
        rcases List.mem_cons.mp inside with rfl | before
        · exact first mem
        · exact later other mem before

theorem matchedNone {rows i : Nat} {pairs : List (Column × ColumnInfo)}
    (each : ∀ p ∈ pairs, p.1.size = rows ∧ p.1.fieldType = p.2.fieldType) : mismatch? rows i pairs = none := by
  induction pairs generalizing i with
  | nil => rfl
  | cons pair rest ih =>
    obtain ⟨⟨full, typed⟩, later⟩ := List.forall_mem_cons.mp each
    rw [mismatch?, if_neg (fun short => short full), if_neg (fun other => other typed)]
    exact ih later

theorem columnsMade {schema : Schema} {columns : List Column} (count : columns.length = schema.fields.length)
    {rows : Nat} (each : ∀ p ∈ columns.zip schema.fields, p.1.size = rows ∧ p.1.fieldType = p.2.fieldType) :
    ∃ held, Table.make schema columns = .ok ⟨schema, columns, held⟩ := by
  have first : ∀ p ∈ columns.zip schema.fields, p.1.size = (columns.head?.map Column.size).getD 0 ∧
      p.1.fieldType = p.2.fieldType := by
    cases columns with
    | nil => exact List.forall_mem_nil _
    | cons head rest =>
      cases fields : schema.fields with
      | nil => simp [fields] at count
      | cons info more =>
        rw [fields] at each
        intro p mem
        have full := (each (head, info) List.mem_cons_self).1
        exact ⟨(each p mem).1.trans full.symm, (each p mem).2⟩
  refine ⟨(columns.head?.map Column.size).getD 0, ?_⟩
  simp only [Table.make, ne_eq, count, not_true_eq_false, if_false, matchedNone first]

section

variable {α : Type} (type : α → FieldType) (nullable : α → Bool) (column : α → Column)

def infoOf (entry : String × α) : ColumnInfo := ⟨entry.1, type entry.2, nullable entry.2⟩

def assembled (entries : Named α) (rows : Nat) : Table where
  schema := ⟨entries.map (infoOf type nullable)⟩
  columns := entries.map fun entry => column entry.2
  rows := rows

variable {entries : Named α} {rows : Nat}

theorem assembledNames : (assembled type nullable column entries rows).schema.names = entries.map Prod.fst := by
  rw [assembled, Schema.names, List.map_map]
  rfl

theorem assembledMade (distinct : (entries.map Prod.fst).Nodup)
    (full : ∀ entry ∈ entries, (column entry.2).size = rows)
    (typed : ∀ entry ∈ entries, (column entry.2).fieldType = type entry.2) : (do
      let schema ← Schema.make (entries.map (infoOf type nullable))
      let table ← Table.make schema (entries.map fun entry : String × α => column entry.2)
      return { table with rows := rows }) = .ok (assembled type nullable column entries rows) := by
  have schema : Schema.make (entries.map (infoOf type nullable)) = .ok ⟨entries.map (infoOf type nullable)⟩ := by
    have names : (entries.map (infoOf type nullable)).map ColumnInfo.name = entries.map Prod.fst := by
      rw [List.map_map]
      rfl
    rw [Schema.make, names, repeatedNone.mpr ⟨distinct, fun _ _ => List.not_mem_nil⟩]
  have each : ∀ p ∈ (entries.map fun entry => column entry.2).zip (entries.map (infoOf type nullable)),
      p.1.size = rows ∧ p.1.fieldType = p.2.fieldType := by
    rw [List.zip_map']
    intro p mem
    obtain ⟨entry, listed, rfl⟩ := List.mem_map.mp mem
    exact ⟨full entry listed, typed entry listed⟩
  obtain ⟨held, made⟩ := columnsMade (by simp) each
  rw [schema]
  exact boundOk.mpr ⟨_, rfl, boundOk.mpr ⟨_, made, rfl⟩⟩

variable {type nullable column}

theorem placedAlike {β : Type} (f : String × α → β) (name : String) :
    (((entries.map Prod.fst).idxOf? name).bind fun i => (entries.map f)[i]?) =
      (entries.lookup name).map fun value => f (name, value) := by
  induction entries with
  | nil => rfl
  | cons entry rest ih =>
    obtain ⟨other, value⟩ := entry
    rw [List.map_cons, List.map_cons, List.idxOf?_cons, List.lookup_cons]
    by_cases here : other = name
    · subst here
      simp
    · have missed : (name == other) = false := beq_eq_false_iff_ne.mpr (Ne.symm here)
      have passed : (other == name) = false := beq_eq_false_iff_ne.mpr here
      rw [missed, passed, ← ih]
      cases (rest.map Prod.fst).idxOf? name <;> rfl

theorem assembledColumn (name : String) :
    (assembled type nullable column entries rows).column? name = (entries.lookup name).map column := by
  rw [column?, Schema.indexOf?, assembledNames]
  exact placedAlike (fun entry => column entry.2) name

theorem assembledField (name : String) : (assembled type nullable column entries rows).schema.field? name =
    (entries.lookup name).map fun value => infoOf type nullable (name, value) := by
  rw [Schema.field?, Schema.indexOf?, assembledNames]
  exact placedAlike (infoOf type nullable) name

end

end TabularRdf.Table

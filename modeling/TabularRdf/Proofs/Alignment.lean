import TabularRdf.Proofs.Preparation
import TabularRdf.Proofs.SourceKeys

/-! Rows that meet by position. Without a condition a map may only refer to one whose sources are, one by one,
the same rows. A set of tables then gives the sources at one place one table if they have one key or stand
under none of their names; sources with two keys can be given two tables. -/
namespace TabularRdf.Mapping

def TriplesMap.MeetsByPosition (m : TriplesMap) (mapping : String) : Prop :=
  (∃ q ∈ m.quotedRefs, q.mapping = mapping ∧ q.condition = none) ∨
    ∃ po ∈ m.predicateObjects, ∃ r, po.object = .reference r ∧ r.mapping = mapping ∧ r.condition = none

end TabularRdf.Mapping

namespace TabularRdf.Generation
open Mapping

namespace TableSet

variable {tables : TableSet} {s t : Source}

def LacksName (tables : TableSet) (s : Source) : Prop := ∀ name, s.name = some name → tables.lookup name = none

theorem lookedUp (tables : TableSet) (s : Source) :
    tables.byNameOrAccess s = (tables.lookup s.key).or (tables.lookup s.access) := by
  unfold byNameOrAccess Source.key
  cases s.name with
  | none => cases found : tables.lookup s.access <;> simp [found]
  | some name => cases found : tables.lookup name <;> simp [found]

theorem lookedUpNameless (lacks : tables.LacksName s) : tables.byNameOrAccess s = tables.lookup s.access := by
  unfold byNameOrAccess
  cases named : s.name with
  | none => rfl
  | some name => rw [Option.bind_some, lacks name named]

theorem sameTable (path : s.access = t.access) (alike : s.key = t.key ∨ tables.LacksName s ∧ tables.LacksName t) :
    tables.byNameOrAccess s = tables.byNameOrAccess t := by
  rcases alike with key | ⟨first, second⟩
  · rw [lookedUp, lookedUp, key, path]
  · rw [lookedUpNameless first, lookedUpNameless second, path]

end TableSet

end TabularRdf.Generation

namespace TabularRdf.Document
open Mapping Loading Generation

variable {options : BuildOptions} {document : Json} {spec : Specification} {m other : TriplesMap} {mapping : String}

theorem meetingRows (built : build options document = .ok spec) (mem : m ∈ spec.maps)
    (meets : m.MeetsByPosition mapping) (found : spec.get? mapping = some other) : m.SameRows other := by
  obtain ⟨_, _, _, reading⟩ := buildReading built
  have allowed := reading.checked m mem
  rcases meets with ⟨q, reference, rfl, plain⟩ | ⟨po, listed, r, reference, rfl, plain⟩
  · exact (quotedAllowed allowed reference found).2 plain
  · exact (namedAllowed allowed listed reference found).2 plain

theorem keysApart {s t : Source} {i : Nat} (first : m.sources[i]? = some s) (second : other.sources[i]? = some t)
    (apart : s.key ≠ t.key) : ∃ (tables : TableSet) (ts us : List Table),
      tablesOf tables.byNameOrAccess m = .ok ts ∧ tablesOf tables.byNameOrAccess other = .ok us ∧
      ts[i]? ≠ us[i]? := by
  let meant (source : Source) : Table := if source.key = s.key then idTable ["1"] else idTable []
  let tables := keyedTables (m.sources ++ other.sources) meant
  have given : ∀ source ∈ m.sources ++ other.sources, tables.byNameOrAccess source = some (meant source) := by
    intro source mem
    have alike : ∀ a ∈ m.sources ++ other.sources, ∀ b ∈ m.sources ++ other.sources, a.key = b.key →
        meant a = meant b := fun a _ b _ same => by simp only [meant, same]
    rw [TableSet.lookedUp, keyedFound alike source mem, Option.some_or]
  refine ⟨tables, m.sources.map meant, other.sources.map meant,
    tablesMeant fun source mem => given source (List.mem_append_left _ mem),
    tablesMeant fun source mem => given source (List.mem_append_right _ mem), fun same => ?_⟩
  rw [List.getElem?_map, List.getElem?_map, first, second] at same
  have rows := congrArg Table.rows (Option.some.inj same)
  simp [meant, Ne.symm apart, idTable] at rows

/-- Maps whose rows meet by position have as many sources, and those at one place get one table from every set
of tables for which they have one key or no name. For no other sources does every set of tables do so. -/
theorem alignedByKey (built : build options document = .ok spec) (mem : m ∈ spec.maps)
    (meets : m.MeetsByPosition mapping) (found : spec.get? mapping = some other) :
    m.sources.length = other.sources.length ∧
    ∀ (i : Nat) s t, m.sources[i]? = some s → other.sources[i]? = some t →
      (∀ (tables : TableSet) (ts us : List Table), tablesOf tables.byNameOrAccess m = .ok ts →
        tablesOf tables.byNameOrAccess other = .ok us →
        s.key = t.key ∨ tables.LacksName s ∧ tables.LacksName t →
        ∃ table, ts[i]? = some table ∧ us[i]? = some table) ∧
      (s.key ≠ t.key → ∃ (tables : TableSet) (ts us : List Table),
        tablesOf tables.byNameOrAccess m = .ok ts ∧ tablesOf tables.byNameOrAccess other = .ok us ∧
        ts[i]? ≠ us[i]?) := by
  have rows := meetingRows built mem meets found
  refine ⟨rows.length_eq, fun i s t first second => ⟨fun tables ts us fetched fetchedOther alike => ?_,
    keysApart first second⟩⟩
  obtain ⟨_, there, same⟩ := pairedAt rows first
  cases Option.some.inj (second.symm.trans there)
  have path : s.access = t.access := by
    simp only [Source.sameRows, Bool.and_eq_true, decide_eq_true_eq] at same
    exact same.1.1.1
  obtain ⟨table, here, given⟩ := pairedAt (tablesPaired fetched) first
  obtain ⟨_, facing, givenOther⟩ := pairedAt (tablesPaired fetchedOther) second
  cases Option.some.inj (given.symm.trans ((TableSet.sameTable path alike).trans givenOther))
  exact ⟨table, here, facing⟩

def nameAndPathDocument : Json := .obj [
  ("sources", .obj [("people", .str "people.csv~csv")]),
  ("mappings", .obj [
    ("person", .obj [
      ("sources", .str "people"),
      ("s", .str "http://example.org/$(id)"),
      ("po", .arr [.arr [.str "a", .str "http://example.org/Person"]])]),
    ("note", .obj [
      ("sources", .arr [.str "people.csv~csv"]),
      ("s", .obj [("quoted", .str "person")]),
      ("po", .arr [.arr [.str "http://example.org/line", .str "$(id)"]])])])]

theorem pathAligned : ∃ spec person note ts us, build .default nameAndPathDocument = .ok spec ∧
    spec.get? "person" = some person ∧ spec.get? "note" = some note ∧ note.MeetsByPosition "person" ∧
    tablesOf (TableSet.byNameOrAccess [("people.csv", idTable ["1"])]) note = .ok ts ∧
    tablesOf (TableSet.byNameOrAccess [("people.csv", idTable ["1"])]) person = .ok us ∧
    ∃ table, ts[0]? = some table ∧ us[0]? = some table := by
  have maps : ((build .default nameAndPathDocument).toOption.bind fun spec => (spec.get? "person").bind fun person =>
      (spec.get? "note").bind fun note =>
      (tablesOf (TableSet.byNameOrAccess [("people.csv", idTable ["1"])]) note).toOption.bind fun _ =>
      (tablesOf (TableSet.byNameOrAccess [("people.csv", idTable ["1"])]) person).toOption.map fun _ =>
        (person.sources.head?, note.sources.head?, note.quotedRefs)) =
      some (some { Source.plain "people.csv" .csv with name := some "people" },
        some (Source.plain "people.csv" .csv), [⟨"person", true, none, .all⟩]) := by decide +kernel
  obtain ⟨spec, read, rest⟩ := Option.bind_eq_some_iff.mp maps
  obtain ⟨person, found, rest⟩ := Option.bind_eq_some_iff.mp rest
  obtain ⟨note, noted, rest⟩ := Option.bind_eq_some_iff.mp rest
  obtain ⟨ts, fetched, rest⟩ := Option.bind_eq_some_iff.mp rest
  obtain ⟨us, fetchedOther, same⟩ := Option.map_eq_some_iff.mp rest
  obtain ⟨declared, both⟩ := Prod.mk.inj same
  obtain ⟨inline, quotes⟩ := Prod.mk.inj both
  have built := optionOk.mp read
  have mem : note ∈ spec.maps := by
    obtain ⟨_, _, _, reading⟩ := buildReading built
    exact (Specification.gotNamed reading.indexed noted).1
  have meets : note.MeetsByPosition "person" := .inl ⟨⟨"person", true, none, .all⟩, by simp [quotes], rfl, rfl⟩
  have nameless : TableSet.LacksName [("people.csv", idTable ["1"])]
      { Source.plain "people.csv" .csv with name := some "people" } := by
    intro name given
    cases given
    rfl
  have pathless : TableSet.LacksName [("people.csv", idTable ["1"])] (Source.plain "people.csv" .csv) := by
    intro name given
    cases given
  rw [List.head?_eq_getElem?] at declared inline
  exact ⟨spec, person, note, ts, us, built, found, noted, meets, optionOk.mp fetched, optionOk.mp fetchedOther,
    ((alignedByKey built mem meets found).2 0 _ _ inline declared).1 _ ts us (optionOk.mp fetched)
      (optionOk.mp fetchedOther) (.inr ⟨pathless, nameless⟩)⟩

theorem nameParts : ∃ spec person note, build .default nameAndPathDocument = .ok spec ∧
    spec.get? "person" = some person ∧ spec.get? "note" = some note ∧ note.MeetsByPosition "person" ∧
    tablesOf (TableSet.byNameOrAccess [("people", idTable ["1"]), ("people.csv", idTable ["2"])]) person =
      .ok [idTable ["1"]] ∧
    tablesOf (TableSet.byNameOrAccess [("people", idTable ["1"]), ("people.csv", idTable ["2"])]) note =
      .ok [idTable ["2"]] ∧ idTable ["1"] ≠ idTable ["2"] := by
  have maps : ((build .default nameAndPathDocument).toOption.bind fun spec => (spec.get? "person").bind fun person =>
      (spec.get? "note").map fun note => (note.quotedRefs,
        (tablesOf (TableSet.byNameOrAccess [("people", idTable ["1"]), ("people.csv", idTable ["2"])])
          person).toOption,
        (tablesOf (TableSet.byNameOrAccess [("people", idTable ["1"]), ("people.csv", idTable ["2"])])
          note).toOption)) =
      some ([⟨"person", true, none, .all⟩], some [idTable ["1"]], some [idTable ["2"]]) := by decide +kernel
  obtain ⟨spec, read, rest⟩ := Option.bind_eq_some_iff.mp maps
  obtain ⟨person, found, rest⟩ := Option.bind_eq_some_iff.mp rest
  obtain ⟨note, noted, same⟩ := Option.map_eq_some_iff.mp rest
  obtain ⟨quotes, both⟩ := Prod.mk.inj same
  obtain ⟨first, second⟩ := Prod.mk.inj both
  exact ⟨spec, person, note, optionOk.mp read, found, noted,
    .inl ⟨⟨"person", true, none, .all⟩, by simp [quotes], rfl, rfl⟩, optionOk.mp first, optionOk.mp second,
    by decide⟩

end TabularRdf.Document


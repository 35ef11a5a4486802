import TabularRdf.Generation.TableSet
import TabularRdf.Proofs.BuiltMaps
import TabularRdf.Proofs.NamedUpdates

/-! What the key of a source tells. A source of a specification is declared under a name, which is then its key,
or stands inline, and its key is its access path alone. So keys tell apart the declared sources, and an inline
one from others only by its path. -/
namespace TabularRdf.Mapping

namespace Specification

def allSources (spec : Specification) : List Source := spec.maps.flatMap TriplesMap.sources

def Declares (spec : Specification) (s : Source) : Prop :=
  ∃ name, s.name = some name ∧ spec.sources.lookup name = some s

theorem declaredOnce {spec : Specification} {s t : Source} (first : spec.Declares s) (second : spec.Declares t)
    (same : s.key = t.key) : s = t := by
  obtain ⟨name, own, found⟩ := first
  obtain ⟨other, its, there⟩ := second
  simp only [Source.key, own, its, Option.getD_some] at same
  subst same
  exact Option.some.inj (found.symm.trans there)

end Specification

namespace Source

/- What two sources with one key have in common: everything when both are declared, the access path when both
are inline, and else the name of the one is the access path of the other. -/
structure SharesKey (s t : Source) : Prop where
  declared : s.name.isSome → t.name.isSome → s = t ∧ s.sameRows t
  inline : s.name = none → t.name = none → s.access = t.access ∧
    (s.sameRows t ↔ s.format = t.format ∧ s.iterator = t.iterator ∧ s.query = t.query)
  mixed : ∀ name, s.name = some name → t.name = none → name = t.access

end Source

end TabularRdf.Mapping

namespace TabularRdf.Generation
open Mapping

def keyedTables (sources : List Source) (meant : Source → Table) : TableSet :=
  sources.map fun s => (s.key, meant s)

theorem keyedFound {sources : List Source} {meant : Source → Table}
    (alike : ∀ s ∈ sources, ∀ t ∈ sources, s.key = t.key → meant s = meant t) :
    ∀ s ∈ sources, (keyedTables sources meant).lookup s.key = some (meant s) := by
  induction sources with
  | nil => exact fun _ mem => absurd mem List.not_mem_nil
  | cons first rest ih =>
    intro s mem
    rw [keyedTables, List.map_cons, List.lookup_cons]
    by_cases same : s.key = first.key
    · rw [beq_iff_eq.mpr same, alike s mem first List.mem_cons_self same]
    · have inside : s ∈ rest := by
        rcases List.mem_cons.mp mem with rfl | inside
        · exact absurd rfl same
        · exact inside
      rw [beq_eq_false_iff_ne.mpr same]
      exact ih (fun a first b second => alike a (.tail _ first) b (.tail _ second)) s inside

end TabularRdf.Generation

namespace TabularRdf.Document
open Mapping Loading Generation

variable {owner : String} {value : Json} {s : Source}

theorem shortcutInline (read : sourceShortcut owner value = .ok s) : s.name = none := by
  unfold sourceShortcut at read
  obtain ⟨_, read⟩ := passedOk.mp read
  dsimp only at read
  split at read
  · split at read
    · cases pureOk.mp read
      rfl
    · simp only [boundOk, pureOk] at read
      obtain ⟨_, _, rfl⟩ := read
      rfl
  · cases read

theorem longInline {written : Section} (read : longSource written = .ok s) : s.name = none := by
  simp only [longSource, boundOk] at read
  obtain ⟨access, _, read⟩ := read
  cases access with
  | none => cases read
  | some access =>
    simp only [boundOk] at read
    obtain ⟨formulation, _, read⟩ := read
    cases formulation <;>
    · simp only [boundOk, pureOk] at read
      obtain ⟨_, _, _, _, _, _, _, _, rfl⟩ := read
      rfl

theorem writtenInline (read : sourceOf owner value = .ok s) : s.name = none := by
  unfold sourceOf at read
  split at read
  · exact longInline read
  · exact shortcutInline read
  · exact shortcutInline read
  · cases read

theorem itemRead {named : Named Source} (read : sourceItem owner named value = .ok s) :
    s.name = none ∨ ∃ name, named.lookup name = some s := by
  unfold sourceItem at read
  split at read
  · rename_i text
    split at read
    · rename_i source found
      exact .inr ⟨text, found.trans (congrArg some (Except.ok.inj read))⟩
    · split at read
      · exact .inl (shortcutInline read)
      · cases read
  · exact .inl (writtenInline read)

theorem sourcesRead {named : Named Source} {sources : List Source}
    (read : mappingSources owner value named = .ok sources) :
    ∀ s ∈ sources, s.name = none ∨ ∃ name, named.lookup name = some s := by
  simp only [mappingSources, boundOk] at read
  obtain ⟨_, mapped, read⟩ := read
  obtain ⟨_, same⟩ := passedOk.mp read
  cases pureOk.mp same
  intro s mem
  obtain ⟨_, _, item⟩ := mappedOrigin mapped mem
  exact itemRead item

theorem mapSources {context : Context} {name : String} {m : TriplesMap}
    (parsed : parseMapping context name value = .ok m) :
    ∀ s ∈ m.sources, s.name = none ∨ ∃ name, context.sources.lookup name = some s := by
  simp only [parseMapping, boundOk] at parsed
  obtain ⟨_, _, written, _, parsed⟩ := parsed
  cases written with
  | none => cases parsed
  | some written =>
    simp only [boundOk, pureOk] at parsed
    obtain ⟨sources, read, _, _, _, _, _, _, _, _, _, _, _, _, rfl⟩ := parsed
    exact sourcesRead read

theorem declaredNames {root : Section} {named : Named Source}
    (read : descriptorTable root .sources namedSource = .ok named) {name : String}
    (found : named.lookup name = some s) : s.name = some name := by
  simp only [descriptorTable, boundOk] at read
  obtain ⟨written, _, read⟩ := read
  split at read
  · cases pureOk.mp read
    contradiction
  · obtain ⟨⟨key, value⟩, _, entry⟩ := mappedOrigin read (Named.foundListed found)
    simp only [boundOk, pureOk] at entry
    obtain ⟨source, given, same⟩ := entry
    cases same
    unfold namedSource at given
    cases plain : sourceOf name value with
    | error e =>
      rw [plain] at given
      cases given
    | ok inner =>
      rw [plain] at given
      cases Except.ok.inj given
      rfl
  · cases read

variable {options : BuildOptions} {document : Json} {spec : Specification}

theorem sourcesKnown (built : build options document = .ok spec) :
    ∀ s ∈ spec.allSources, s.name = none ∨ spec.Declares s := by
  unfold build at built
  cases document with
  | obj root =>
    simp only [Json.obj?, boundOk, pureOk] at built
    obtain ⟨_, _, _, _, _, _, _, _, named, declared, _, _, _, _, maps, mapped, ⟨⟩, _, _, plans, ⟨⟩, _, rfl⟩ := built
    simp only [Specification.make, boundOk, pureOk] at plans
    obtain ⟨_, _, rfl⟩ := plans
    intro s mem
    obtain ⟨m, listed, own⟩ := List.mem_flatMap.mp mem
    obtain ⟨_, _, parsed⟩ := mappedOrigin mapped listed
    rcases mapSources parsed s own with inline | ⟨name, found⟩
    · exact .inl inline
    · exact .inr ⟨name, declaredNames declared found, found⟩
  | _ => cases built

theorem keysShared (built : build options document = .ok spec) {t : Source} (first : s ∈ spec.allSources)
    (second : t ∈ spec.allSources) (same : s.key = t.key) : s.SharesKey t := by
  refine ⟨fun named other => ?_, fun inline other => ?_, fun name named other => ?_⟩
  · have once : s = t := Specification.declaredOnce
      ((sourcesKnown built s first).resolve_left (Option.isSome_iff_ne_none.mp named))
      ((sourcesKnown built t second).resolve_left (Option.isSome_iff_ne_none.mp other)) same
    subst once
    exact ⟨rfl, by simp [Source.sameRows]⟩
  · have path : s.access = t.access := by simpa [Source.key, inline, other] using same
    exact ⟨path, by simp [Source.sameRows, path, and_assoc]⟩
  · simpa [Source.key, named, other] using same

/-- Among the declared sources a key stands for one source, so a table can be given to each of them whatever
the others get. In general, tables can be given by key exactly when sources with one key are to get one table. -/
theorem declaredKeysFaithful (built : build options document = .ok spec) :
    (∀ s ∈ spec.allSources, ∀ t ∈ spec.allSources, s.key = t.key → s.SharesKey t) ∧
    (∀ meant : Source → Table, ∃ tables : TableSet, ∀ s ∈ spec.allSources, s.name.isSome →
      tables.byKey s = some (meant s)) ∧
    ∀ meant : Source → Table,
      (∃ tables : TableSet, ∀ s ∈ spec.allSources, tables.byKey s = some (meant s)) ↔
        ∀ s ∈ spec.allSources, ∀ t ∈ spec.allSources, s.key = t.key → meant s = meant t := by
  refine ⟨fun s first t second same => keysShared built first second same, fun meant => ?_, fun meant => ?_⟩
  · let declared := spec.allSources.filter fun s => s.name.isSome
    have alike : ∀ s ∈ declared, ∀ t ∈ declared, s.key = t.key → meant s = meant t := by
      intro s first t second same
      obtain ⟨first, named⟩ := List.mem_filter.mp first
      obtain ⟨second, other⟩ := List.mem_filter.mp second
      exact congrArg meant ((keysShared built first second same).declared named other).1
    exact ⟨keyedTables declared meant, fun s mem named => keyedFound alike s (List.mem_filter.mpr ⟨mem, named⟩)⟩
  · constructor
    · rintro ⟨tables, given⟩ s first t second same
      refine Option.some.inj ((given s first).symm.trans (Eq.trans ?_ (given t second)))
      simp only [TableSet.byKey, same]
    · exact fun alike => ⟨keyedTables spec.allSources meant, keyedFound alike⟩

def sharedPathDocument : Json := .obj [
  ("sources", .obj [
    ("data.json", .arr [.str "staff.json~jsonpath", .str "$.staff[*]"]),
    ("guests", .arr [.str "staff.json~jsonpath", .str "$.guests[*]"])]),
  ("mappings", .obj [
    ("person", .obj [
      ("sources", .arr [.str "data.json~jsonpath", .str "$.people[*]"]), ("s", .str "http://example.org/p/$(id)")]),
    ("company", .obj [
      ("sources", .arr [.str "data.json~jsonpath", .str "$.companies[*]"]), ("s", .str "http://example.org/c/$(id)")]),
    ("staff", .obj [("sources", .str "data.json"), ("s", .str "http://example.org/s/$(id)")]),
    ("guest", .obj [("sources", .str "guests"), ("s", .str "http://example.org/g/$(id)")])])]

def jsonRows (name : Option String) (access iterator : String) : Source :=
  { Source.plain access .jsonPath with name, iterator := some iterator }

def idTable (ids : List String) : Table where
  schema := ⟨[⟨"id", .string, false⟩]⟩
  columns := [.string (ids.map some).toArray]
  rows := ids.length

theorem declaredApart : ∃ spec, build .default sharedPathDocument = .ok spec ∧ ∃ tables : TableSet,
    tables.byKey (jsonRows (some "data.json") "staff.json" "$.staff[*]") = some (idTable ["1", "2"]) ∧
    tables.byKey (jsonRows (some "guests") "staff.json" "$.guests[*]") = some (idTable ["3"]) := by
  have sources : (build .default sharedPathDocument).toOption.map (fun spec => spec.allSources.drop 2) =
      some [jsonRows (some "data.json") "staff.json" "$.staff[*]",
        jsonRows (some "guests") "staff.json" "$.guests[*]"] := by decide +kernel
  obtain ⟨spec, read, listed⟩ := Option.map_eq_some_iff.mp sources
  have built := optionOk.mp read
  have staff : jsonRows (some "data.json") "staff.json" "$.staff[*]" ∈ spec.allSources.drop 2 := by simp [listed]
  have guests : jsonRows (some "guests") "staff.json" "$.guests[*]" ∈ spec.allSources.drop 2 := by simp [listed]
  obtain ⟨tables, given⟩ := (declaredKeysFaithful built).2.1 fun s =>
    if s.name = some "guests" then idTable ["3"] else idTable ["1", "2"]
  exact ⟨spec, built, tables, given _ (List.mem_of_mem_drop staff) rfl, given _ (List.mem_of_mem_drop guests) rfl⟩

theorem pathsCollide : ∃ spec, build .default sharedPathDocument = .ok spec ∧
    spec.allSources = [jsonRows none "data.json" "$.people[*]", jsonRows none "data.json" "$.companies[*]",
      jsonRows (some "data.json") "staff.json" "$.staff[*]", jsonRows (some "guests") "staff.json" "$.guests[*]"] ∧
    (∀ s ∈ spec.allSources.take 3, s.key = "data.json") ∧
    (spec.allSources.take 3).Pairwise (fun s t => s.sameRows t = false) ∧
    ∀ tables : TableSet, ∀ s ∈ spec.allSources.take 3, ∀ t ∈ spec.allSources.take 3,
      tables.byKey s = tables.byKey t := by
  have sources : (build .default sharedPathDocument).toOption.map Specification.allSources =
      some [jsonRows none "data.json" "$.people[*]", jsonRows none "data.json" "$.companies[*]",
        jsonRows (some "data.json") "staff.json" "$.staff[*]",
        jsonRows (some "guests") "staff.json" "$.guests[*]"] := by decide +kernel
  obtain ⟨spec, read, listed⟩ := Option.map_eq_some_iff.mp sources
  have keys : ∀ s ∈ spec.allSources.take 3, s.key = "data.json" := by rw [listed]; decide
  refine ⟨spec, optionOk.mp read, listed, keys, by rw [listed]; decide, fun tables s first t second => ?_⟩
  rw [TableSet.byKey, TableSet.byKey, keys s first, keys t second]

end TabularRdf.Document

import TabularRdf.Document.Build
import TabularRdf.Proofs.RespelledMaps

/-! A document with respelled keys. It is refused when it was refused before, and read into the same
specification, up to the payloads of what is carried unevaluated. -/
namespace TabularRdf.Mapping
open Loading

theorem planSealed (maps : List TriplesMap) : Plan.build (maps.map TriplesMap.sealed) = Plan.build maps :=
  Plan.buildAlike (List.forall₂_map_left_iff.mpr (List.forall₂_same.mpr fun m _ => ⟨rfl, sealedRefs m⟩))

theorem makeSealed (maps : List TriplesMap) (prefixes : Named String) (sources : Named Source)
    (targets : Named Target) : Specification.make (maps.map TriplesMap.sealed) prefixes sources targets =
      (Specification.make maps prefixes sources targets).map Specification.sealed := by
  have names : (maps.map TriplesMap.sealed).zipIdx.foldl Specification.indexName [] =
      maps.zipIdx.foldl Specification.indexName [] := by
    rw [List.zipIdx_map, List.foldl_map]
    rfl
  have keys : (maps.map TriplesMap.sealed).foldl Specification.indexSources [] =
      maps.foldl Specification.indexSources [] := by
    rw [List.foldl_map]
    rfl
  rw [Specification.make, Specification.make, planSealed, names, keys]
  cases Plan.build maps <;> rfl

theorem getSealed (spec : Specification) (name : String) :
    spec.sealed.get? name = (spec.get? name).map TriplesMap.sealed := by
  simp only [Specification.get?, Specification.sealed, List.getElem?_map]
  cases spec.index.lookup name <;> rfl

end TabularRdf.Mapping

namespace TabularRdf.Document
open Mapping Loading Layout

inductive MappingTable : Json → Json → Prop where
  | table {fields others : Json.Fields}
      (each : List.Forall₂ (fun a b => a.1 = b.1 ∧ mappingLevel.Respelled a.2 b.2) fields others) :
      MappingTable (.obj fields) (.obj others)
  | other (value : Json) (plain : value.obj? = none) : MappingTable value value

def documentLevel : Layout :=
  ⟨.mappings :: aliases, fun k => if k = .mappings then MappingTable else Eq, by decide⟩

theorem knownSealed (names : List String) (m : TriplesMap) : checkKnown names m.sealed = checkKnown names m := by
  simp only [checkKnown, TriplesMap.sealed, List.forM_eq_forM, List.forM_map, PredicateObject.sealed,
    sealedReference]

theorem referencesSealed (spec : Specification) (m : TriplesMap) :
    checkReferences spec.sealed m.sealed = checkReferences spec m := by
  have entries : m.sealed.predicateObjects = m.predicateObjects.map PredicateObject.sealed := rfl
  simp only [checkReferences, sealedRefs, entries, List.forM_eq_forM, List.forM_map, PredicateObject.sealed,
    sealedReference]
  refine congrArg₂ (fun quotes references => quotes >>= fun _ => references)
    (congrArg _ (funext fun q => ?_)) (congrArg _ (funext fun po => ?_))
  · rw [getSealed]
    cases spec.get? q.mapping <;> rfl
  · cases po.object.reference? with
    | none => rfl
    | some r =>
      dsimp only
      rw [getSealed]
      cases spec.get? r.mapping <;> rfl

section

variable {maps others : List TriplesMap} (same : maps.map TriplesMap.sealed = others.map TriplesMap.sealed)
include same

theorem knownAlike : maps.forM (checkKnown (maps.map TriplesMap.name)) =
    others.forM (checkKnown (others.map TriplesMap.name)) := by
  have through (maps : List TriplesMap) : maps.forM (checkKnown (maps.map TriplesMap.name)) =
      (maps.map TriplesMap.sealed).forM (checkKnown ((maps.map TriplesMap.sealed).map TriplesMap.name)) := by
    have names : (maps.map TriplesMap.sealed).map TriplesMap.name = maps.map TriplesMap.name :=
      List.map_map
    simp only [names, List.forM_eq_forM, List.forM_map, knownSealed]
  rw [through, same, ← through]

theorem madeAlike (prefixes : Named String) (sources : Named Source) (targets : Named Target) :
    Together (fun a b => a.sealed = b.sealed) (Specification.make maps prefixes sources targets)
      (Specification.make others prefixes sources targets) :=
  togetherImages (by rw [← makeSealed, same, makeSealed])

end

theorem describedAlike {spec other : Specification} (same : spec.sealed = other.sealed) (base : Option String)
    (authors : List Author) (external : Named String) :
    Specification.sealed { spec with base, authors, external } =
      Specification.sealed { other with base, authors, external } := by
  simp only [Specification.sealed, Specification.mk.injEq] at same ⊢
  tauto

theorem checkedAlike {spec other : Specification} (same : spec.sealed = other.sealed) :
    spec.maps.forM (checkReferences spec) = other.maps.forM (checkReferences other) := by
  have through (spec : Specification) :
      spec.maps.forM (checkReferences spec) = spec.sealed.maps.forM (checkReferences spec.sealed) := by
    simp only [Specification.sealed, List.forM_eq_forM, List.forM_map]
    exact congrArg _ (funext fun m => (referencesSealed spec m).symm)
  rw [through, same, ← through]

theorem mappingsSealed (context : Context) {fields others : Json.Fields}
    (each : List.Forall₂ (fun a b => a.1 = b.1 ∧ mappingLevel.Respelled a.2 b.2) fields others) :
    Together (fun a b => a.map TriplesMap.sealed = b.map TriplesMap.sealed)
      (fields.mapM fun (name, value) => parseMapping context name value)
      (others.mapM fun (name, value) => parseMapping context name value) := by
  refine togetherWeaker (togetherMapped each ?_) fun _ _ => imagesEqual.mp
  rintro ⟨name, value⟩ ⟨_, other⟩ ⟨rfl, respelled⟩
  exact mappingSealed context name respelled

theorem tableFound {fields others : Json.Fields} (respelled : documentLevel.Fields fields others) :
    Together (List.Forall₂ fun a b => a.1 = b.1 ∧ mappingLevel.Respelled a.2 b.2)
      (mappingsOf ⟨documentOwner, fields⟩) (mappingsOf ⟨documentOwner, others⟩) := by
  obtain ⟨found, other, one, two, related⟩ :=
    getRelated respelled documentOwner (k := .mappings) (by decide)
  simp only [mappingsOf, one, two, boundLoaded]
  cases related with
  | none => exact .failed _ _
  | @some table _ related =>
    cases related with
    | table each => exact .loaded each
    | other _ plain =>
      cases table with
      | obj => cases plain
      | _ => exact .failed _ _

theorem builtTogether (options : BuildOptions) {document other : Json}
    (respelled : documentLevel.Respelled document other) :
    Together (fun a b => a.sealed = b.sealed) (build options document) (build options other) := by
  cases respelled with
  | other => exact togetherView _
  | object whole =>
    have plain {k : Keyword} (apart : ∀ key ∈ k.spellings, ∀ g ∈ documentLevel.groups, key ∉ g.spellings) :=
      getUnlisted whole documentOwner apart
    have listed {k : Keyword} (mem : k ∈ documentLevel.groups) (apart : k ≠ .mappings) :=
      getSame whole documentOwner mem (if_neg apart)
    have prefixes := plain (k := .prefixes) (by decide)
    have base := plain (k := .base) (by decide)
    have external := plain (k := .external) (by decide)
    have authors := listed (k := .authors) (by decide) (by decide)
    have sources := listed (k := .sources) (by decide) (by decide)
    have targets := listed (k := .targets) (by decide) (by decide)
    simp only [build, Json.obj?, prefixesOf, textTable, Section.text?, parseAuthors, descriptorTable, prefixes, base,
      external, authors, sources, targets]
    refine sameLoaded rfl fun prefixes => sameLoaded rfl fun base => sameLoaded rfl fun external => ?_
    refine sameLoaded rfl fun authors => sameLoaded rfl fun sources => sameLoaded rfl fun targets => ?_
    refine togetherBound (tableFound whole) fun fields others each => ?_
    refine togetherBound (mappingsSealed _ each) fun maps others same => ?_
    refine sameLoaded (knownAlike same) fun _ => ?_
    refine togetherBound (madeAlike same prefixes sources targets) fun spec other same => ?_
    have whole := describedAlike same base authors external
    have checked := checkedAlike whole
    exact sameLoaded checked fun _ => .loaded whole

theorem spellingsImmaterial (options : BuildOptions) {document other : Json}
    (respelled : documentLevel.Respelled document other) :
    ((∃ e, build options other = .error e) ↔ ∃ e, build options document = .error e) ∧
    ∀ spec result, build options document = .ok spec → build options other = .ok result →
      result.sealed = spec.sealed := by
  have both := builtTogether options respelled
  refine ⟨(togetherFails both).symm, fun spec result built rebuilt => ?_⟩
  obtain ⟨_, again, same⟩ := togetherOk both built
  cases Except.ok.inj (rebuilt.symm.trans again)
  exact same.symm

def friendsWritten : Json := .obj [("mappings", .obj [("person", .obj [
  ("sources", .arr [.str "people.csv~csv"]),
  ("subjects", .arr [.obj [("value", .str "http://example.org/$(id)")]]),
  ("predicateobjects", .arr [.obj [
    ("predicates", .str "http://example.org/knows"),
    ("objects", .arr [
      .obj [("mapping", .str "person"), ("condition", .obj [("function", .str "equal"),
        ("parameters", .arr [.obj [("parameter", .str "str1"), ("value", .str "$(friend)")],
          .arr [.str "str2", .str "$(id)"]])])],
      .obj [("function", .str "slug"), ("condition", .obj [("parameters", .arr [])])]])]])])])]

def friendsAbbreviated : Json := .obj [("mapping", .obj [("person", .obj [
  ("source", .arr [.str "people.csv~csv"]),
  ("s", .arr [.obj [("v", .str "http://example.org/$(id)")]]),
  ("po", .arr [.obj [
    ("p", .str "http://example.org/knows"),
    ("o", .arr [
      .obj [("mapping", .str "person"), ("conditions", .obj [("fn", .str "equal"),
        ("pms", .arr [.obj [("pm", .str "str1"), ("v", .str "$(friend)")], .arr [.str "str2", .str "$(id)"]])])],
      .obj [("f", .str "slug"), ("conditions", .obj [("pms", .arr [])])]])]])])])]

theorem friendsRespelled : documentLevel.Respelled friendsWritten friendsAbbreviated := by
  refine .object ⟨.cons (.respelled (k := .mappings) (by decide) (by decide) (by decide) ?_) .nil, by decide⟩
  refine .table (.cons ⟨rfl, .object ⟨?_, by decide⟩⟩ .nil)
  refine .cons (.respelled (k := .sources) (by decide) (by decide) (by decide) rfl) ?_
  refine .cons (.respelled (k := .subjects) (by decide) (by decide) (by decide) ?subject) ?_
  case subject =>
    refine .list (.cons (.object ⟨?_, by decide⟩) .nil)
    exact .cons (.respelled (k := .value) (by decide) (by decide) (by decide) rfl) .nil
  refine .cons (.respelled (k := .predicateObjects) (by decide) (by decide) (by decide) ?_) .nil
  refine .list (.cons (.object ⟨?_, by decide⟩) .nil)
  refine .cons (.respelled (k := .predicates) (by decide) (by decide) (by decide) rfl) ?_
  refine .cons (.respelled (k := .objects) (by decide) (by decide) (by decide) ?_) .nil
  refine .list (.cons (.object ⟨?reference, by decide⟩) (.cons (.object ⟨?function, by decide⟩) .nil))
  case reference =>
    refine .cons (.kept _ (by decide)) ?_
    refine .cons (.respelled (k := .condition) (by decide) (by decide) (by decide) ?_) .nil
    refine .single rfl (.object ⟨?_, by decide⟩)
    refine .cons (.respelled (k := .function) (by decide) (by decide) (by decide) rfl) ?_
    refine .cons (.respelled (k := .parameters) (by decide) (by decide) (by decide) ?_) .nil
    refine .list (.cons (.object ⟨?_, by decide⟩) (.cons (.other _ rfl) .nil))
    refine .cons (.respelled (k := .parameter) (by decide) (by decide) (by decide) rfl) ?_
    exact .cons (.respelled (k := .value) (by decide) (by decide) (by decide) rfl) .nil
  case function =>
    refine .cons (.respelled (k := .function) (by decide) (by decide) (by decide) rfl) ?_
    refine .cons (.respelled (k := .condition) (by decide) (by decide) (by decide) ?_) .nil
    refine .single rfl (.object ⟨?_, by decide⟩)
    exact .cons (.respelled (k := .parameters) (by decide) (by decide) (by decide) (.list .nil)) .nil

theorem friendsImmaterial : ∃ spec result, build .default friendsWritten = .ok spec ∧
    build .default friendsAbbreviated = .ok result ∧ result.sealed = spec.sealed ∧
    spec.maps.map (fun m => m.predicateObjects.length) = [2] := by
  have given : ((build .default friendsWritten).toOption.bind fun spec =>
      (build .default friendsAbbreviated).toOption.map fun _ =>
        spec.maps.map fun m => m.predicateObjects.length) = some [2] := by decide +kernel
  obtain ⟨spec, read, rest⟩ := Option.bind_eq_some_iff.mp given
  obtain ⟨result, reread, entries⟩ := Option.map_eq_some_iff.mp rest
  have built := optionOk.mp read
  have rebuilt := optionOk.mp reread
  have same := (spellingsImmaterial .default friendsRespelled).2 spec result built rebuilt
  exact ⟨spec, result, built, rebuilt, same, entries⟩

end TabularRdf.Document

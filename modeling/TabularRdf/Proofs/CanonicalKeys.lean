import Mathlib.Data.List.Nodup
import Mathlib.Data.List.Pairwise
import TabularRdf.Mapping.Expression
import TabularRdf.Proofs.Loading

/-! Payloads with every keyword spelled out. A value is carried exactly when no object in it writes one keyword
twice, and what is carried is the value itself with other keys. -/
namespace TabularRdf.Json

inductive Within (inner : Json) : Json → Prop where
  | self : Within inner inner
  | item {item : Json} {items : List Json} (listed : item ∈ items) (deep : Within inner item) :
      Within inner (.arr items)
  | field {field : String × Json} {fields : Fields} (listed : field ∈ fields) (deep : Within inner field.2) :
      Within inner (.obj fields)

@[elab_as_elim]
theorem nested {P : Json → Prop} (null : P .null) (bool : ∀ b, P (.bool b)) (num : ∀ n, P (.num n))
    (str : ∀ s, P (.str s)) (arr : ∀ items : List Json, (∀ item ∈ items, P item) → P (.arr items))
    (obj : ∀ fields : Fields, (∀ field ∈ fields, P field.2) → P (.obj fields)) (v : Json) : P v :=
  @Json.rec P (fun items => ∀ item ∈ items, P item) (fun fields => ∀ field ∈ fields, P field.2)
    (fun field => P field.2) null bool num str arr obj (fun _ => (absurd · List.not_mem_nil))
    (fun _ _ head tail => List.forall_mem_cons.mpr ⟨head, tail⟩) (fun _ => (absurd · List.not_mem_nil))
    (fun _ _ head tail => List.forall_mem_cons.mpr ⟨head, tail⟩) (fun _ _ value => value) v

end TabularRdf.Json

namespace TabularRdf.Mapping

namespace Keyword

variable {groups : List Keyword} {key : String} {k : Keyword}

def canonicalAmong (groups : List Keyword) (key : String) : String :=
  match groups.find? fun k => k.spellings.contains key with
  | some k => k.canonical
  | none => key

theorem payloadAmong (key : String) : canonicalOf key = canonicalAmong payload key := rfl

theorem payloadDistinct : (payload.flatMap spellings).Nodup := by decide

theorem amongCases (groups : List Keyword) (key : String) :
    (∃ k ∈ groups, key ∈ k.spellings ∧ canonicalAmong groups key = k.canonical) ∨
      (∀ k ∈ groups, key ∉ k.spellings) ∧ canonicalAmong groups key = key := by
  cases found : groups.find? fun k => k.spellings.contains key with
  | some k =>
    refine .inl ⟨k, List.mem_of_find?_eq_some found, by simpa using List.find?_some found, ?_⟩
    rw [canonicalAmong, found]
  | none =>
    refine .inr ⟨by simpa using List.find?_eq_none.mp found, ?_⟩
    rw [canonicalAmong, found]

variable (distinct : (groups.flatMap spellings).Nodup)
include distinct

theorem spelledOnce {first second : Keyword} (one : first ∈ groups) (two : second ∈ groups)
    (here : key ∈ first.spellings) (there : key ∈ second.spellings) : first = second := by
  by_contra different
  have symmetric : Std.Symm (Function.onFun List.Disjoint spellings) :=
    ⟨fun _ _ apart _ here there => apart there here⟩
  exact (List.nodup_flatMap.mp distinct).2.forall one two different here there

theorem amongSpelled (listed : k ∈ groups) (spelled : key ∈ k.spellings) :
    canonicalAmong groups key = k.canonical := by
  rcases amongCases groups key with ⟨other, member, here, same⟩ | ⟨absent, _⟩
  · rw [same, spelledOnce distinct listed member spelled here]
  · exact absurd spelled (absent k listed)

theorem amongPlain (listed : k ∈ groups) : canonicalAmong groups key ∉ k.shortcuts := by
  intro short
  rcases amongCases groups key with ⟨other, member, _, same⟩ | ⟨absent, same⟩
  · rw [same] at short
    cases spelledOnce distinct listed member (List.mem_cons_of_mem _ short) List.mem_cons_self
    exact (List.nodup_cons.mp ((List.nodup_flatMap.mp distinct).1 k listed)).1 short
  · exact absent k listed (List.mem_cons_of_mem _ (same ▸ short))

theorem amongTwice : canonicalAmong groups (canonicalAmong groups key) = canonicalAmong groups key := by
  rcases amongCases groups key with ⟨k, listed, _, same⟩ | ⟨_, same⟩
  · rw [same, amongSpelled distinct listed List.mem_cons_self]
  · rw [same, same]

omit distinct

theorem canonicalPlain (listed : k ∈ payload) : canonicalOf key ∉ k.shortcuts := amongPlain payloadDistinct listed

theorem canonicalTwice : canonicalOf (canonicalOf key) = canonicalOf key := amongTwice payloadDistinct

end Keyword

open Json Loading

mutual

def respell : Json → Json
  | .obj fields => .obj (respellFields fields)
  | .arr items => .arr (respellItems items)
  | scalar => scalar

def respellItems : List Json → List Json
  | [] => []
  | item :: rest => respell item :: respellItems rest

def respellFields : List (String × Json) → List (String × Json)
  | [] => []
  | (key, value) :: rest => (Keyword.canonicalOf key, respell value) :: respellFields rest

end

def respellField (field : String × Json) : String × Json := (Keyword.canonicalOf field.1, respell field.2)

theorem itemsRespelt (items : List Json) : respellItems items = items.map respell := by
  induction items with
  | nil => rfl
  | cons item rest ih => rw [respellItems, ih, List.map_cons]

theorem fieldsRespelt (fields : Fields) : respellFields fields = fields.map respellField := by
  induction fields with
  | nil => rfl
  | cons field rest ih => rw [respellFields, ih, List.map_cons, respellField]

def canonicalKeys (fields : Fields) : List String := fields.map fun field => Keyword.canonicalOf field.1

def SpelledApart (v : Json) : Prop := ∀ fields, Within (.obj fields) v → (canonicalKeys fields).Nodup

theorem arrApart {items : List Json} : SpelledApart (.arr items) ↔ ∀ item ∈ items, SpelledApart item := by
  constructor
  · exact fun apart item listed fields deep => apart fields (.item listed deep)
  · intro each fields deep
    cases deep with
    | item listed deep => exact each _ listed fields deep

theorem objApart {fields : Fields} :
    SpelledApart (.obj fields) ↔ (canonicalKeys fields).Nodup ∧ ∀ field ∈ fields, SpelledApart field.2 := by
  constructor
  · exact fun apart => ⟨apart fields .self, fun field listed inner deep => apart inner (.field listed deep)⟩
  · rintro ⟨own, each⟩ inner deep
    cases deep with
    | self => exact own
    | field listed deep => exact each _ listed inner deep

theorem scalarApart {v : Json} (items : v.arr? = none) (fields : v.obj? = none) : SpelledApart v := by
  intro inner deep
  cases deep with
  | self => cases fields
  | item => cases items
  | field => cases fields

theorem fieldsCarriedExactly {fields : Fields}
    (values : ∀ field ∈ fields, ∀ r, canonicalizeKeys field.2 = .ok r ↔ SpelledApart field.2 ∧ r = respell field.2)
    (seen : List String) (result : Fields) : canonicalizeFields seen fields = .ok result ↔
      ((canonicalKeys fields).Nodup ∧ (∀ key ∈ canonicalKeys fields, key ∉ seen) ∧
        ∀ field ∈ fields, SpelledApart field.2) ∧ result = fields.map respellField := by
  induction fields generalizing seen result with
  | nil => simp [canonicalizeFields, canonicalKeys, eq_comm]
  | cons field rest ih =>
    obtain ⟨key, value⟩ := field
    obtain ⟨here, later⟩ := List.forall_mem_cons.mp values
    have keys : canonicalKeys ((key, value) :: rest) = Keyword.canonicalOf key :: canonicalKeys rest := rfl
    simp only [canonicalizeFields]
    by_cases met : Keyword.canonicalOf key ∈ seen
    · rw [if_pos met, keys]
      refine iff_of_false nofun fun ⟨⟨_, fresh, _⟩, _⟩ => ?_
      exact fresh _ List.mem_cons_self met
    · -- a later key is new when it is neither this one nor one met before
      have fresh : (∀ other ∈ canonicalKeys rest, other ∉ Keyword.canonicalOf key :: seen) ↔
          Keyword.canonicalOf key ∉ canonicalKeys rest ∧ ∀ other ∈ canonicalKeys rest, other ∉ seen := by
        simp only [List.mem_cons, not_or, forall_and]
        refine and_congr_left fun _ => ⟨fun new listed => new _ listed rfl, ?_⟩
        rintro new _ listed rfl
        exact new listed
      rw [if_neg met]
      simp only [boundOk, pureOk, here, ih later, fresh, keys, List.nodup_cons, List.forall_mem_cons,
        List.map_cons, respellField]
      constructor
      · rintro ⟨_, ⟨apart, rfl⟩, _, ⟨⟨distinct, ⟨new, unmet⟩, each⟩, rfl⟩, rfl⟩
        exact ⟨⟨⟨new, distinct⟩, ⟨met, unmet⟩, apart, each⟩, rfl⟩
      · rintro ⟨⟨⟨new, distinct⟩, ⟨_, unmet⟩, apart, each⟩, rfl⟩
        exact ⟨_, ⟨apart, rfl⟩, _, ⟨⟨distinct, ⟨new, unmet⟩, each⟩, rfl⟩, rfl⟩

theorem itemsCarriedExactly {items : List Json}
    (values : ∀ item ∈ items, ∀ r, canonicalizeKeys item = .ok r ↔ SpelledApart item ∧ r = respell item)
    (result : List Json) : canonicalizeItems items = .ok result ↔
      (∀ item ∈ items, SpelledApart item) ∧ result = items.map respell := by
  induction items generalizing result with
  | nil => simp [canonicalizeItems, eq_comm]
  | cons item rest ih =>
    obtain ⟨here, later⟩ := List.forall_mem_cons.mp values
    simp only [canonicalizeItems, boundOk, pureOk, here, ih later, List.forall_mem_cons, List.map_cons]
    constructor
    · rintro ⟨_, ⟨apart, rfl⟩, _, ⟨each, rfl⟩, rfl⟩
      exact ⟨⟨apart, each⟩, rfl⟩
    · rintro ⟨⟨apart, each⟩, rfl⟩
      exact ⟨_, ⟨apart, rfl⟩, _, ⟨each, rfl⟩, rfl⟩

theorem carriedExactly (v r : Json) : canonicalizeKeys v = .ok r ↔ SpelledApart v ∧ r = respell v := by
  induction v using nested generalizing r with
  | arr items ih =>
    simp only [canonicalizeKeys, imageOk, itemsCarriedExactly ih, arrApart, respell, itemsRespelt]
    constructor
    · rintro ⟨_, ⟨each, rfl⟩, rfl⟩
      exact ⟨each, rfl⟩
    · rintro ⟨each, rfl⟩
      exact ⟨_, ⟨each, rfl⟩, rfl⟩
  | obj fields ih =>
    simp only [canonicalizeKeys, imageOk, fieldsCarriedExactly ih, objApart, respell, fieldsRespelt]
    constructor
    · rintro ⟨_, ⟨⟨distinct, _, each⟩, rfl⟩, rfl⟩
      exact ⟨⟨distinct, each⟩, rfl⟩
    · rintro ⟨⟨distinct, each⟩, rfl⟩
      exact ⟨_, ⟨⟨distinct, fun _ _ => List.not_mem_nil, each⟩, rfl⟩, rfl⟩
  | _ =>
    refine ⟨fun same => ⟨scalarApart rfl rfl, (Except.ok.inj same).symm⟩, ?_⟩
    rintro ⟨_, rfl⟩
    rfl

theorem respeltTwice (v : Json) : respell (respell v) = respell v := by
  induction v using nested with
  | arr items ih =>
    simp only [respell, itemsRespelt, List.map_map]
    exact congrArg Json.arr (List.map_congr_left ih)
  | obj fields ih =>
    simp only [respell, fieldsRespelt, List.map_map]
    refine congrArg Json.obj (List.map_congr_left fun field listed => ?_)
    simp only [Function.comp_apply, respellField, Keyword.canonicalTwice, ih field listed]
  | _ => rfl

theorem respeltOrigin {v : Json} {fields : Fields} (deep : Within (.obj fields) (respell v)) :
    ∃ original, Within (.obj original) v ∧ fields = original.map respellField := by
  induction v using nested with
  | arr items ih =>
    rw [respell, itemsRespelt] at deep
    cases deep with
    | item listed deep =>
      obtain ⟨item, mem, rfl⟩ := List.mem_map.mp listed
      obtain ⟨original, inside, same⟩ := ih item mem deep
      exact ⟨original, .item mem inside, same⟩
  | obj own ih =>
    rw [respell, fieldsRespelt] at deep
    cases deep with
    | self => exact ⟨own, .self, rfl⟩
    | field listed deep =>
      obtain ⟨field, mem, rfl⟩ := List.mem_map.mp listed
      obtain ⟨original, inside, same⟩ := ih field mem deep
      exact ⟨original, .field mem inside, same⟩
  | _ => cases deep

theorem respeltApart {v : Json} (apart : SpelledApart v) : SpelledApart (respell v) := by
  intro fields deep
  obtain ⟨original, inside, rfl⟩ := respeltOrigin deep
  have keys : canonicalKeys (original.map respellField) = canonicalKeys original := by
    simp only [canonicalKeys, List.map_map, Function.comp_def, respellField, Keyword.canonicalTwice]
  exact keys ▸ apart original inside

theorem keysSpelledOut (v : Json) :
    ((∃ e, canonicalizeKeys v = .error e) ↔
      ∃ fields, Within (.obj fields) v ∧ ¬ (fields.map fun field => Keyword.canonicalOf field.1).Nodup) ∧
    ∀ result, canonicalizeKeys v = .ok result →
      result = respell v ∧
      (∀ fields, Within (.obj fields) result → ∀ field ∈ fields, ∀ k ∈ Keyword.payload, field.1 ∉ k.shortcuts) ∧
      canonicalizeKeys result = .ok result := by
  constructor
  · have failed : (∃ e, canonicalizeKeys v = .error e) ↔ ¬ SpelledApart v := by
      cases carried : canonicalizeKeys v with
      | error e =>
        refine iff_of_true ⟨e, rfl⟩ fun apart => ?_
        cases carried.symm.trans ((carriedExactly v _).mpr ⟨apart, rfl⟩)
      | ok result => exact iff_of_false nofun (not_not_intro ((carriedExactly v result).mp carried).1)
    rw [failed, SpelledApart]
    push Not
    rfl
  · intro result carried
    obtain ⟨apart, rfl⟩ := (carriedExactly v result).mp carried
    refine ⟨rfl, fun fields deep field listed k member => ?_, ?_⟩
    · obtain ⟨original, _, rfl⟩ := respeltOrigin deep
      obtain ⟨other, _, rfl⟩ := List.mem_map.mp listed
      exact Keyword.canonicalPlain member
    · exact (carriedExactly _ _).mpr ⟨respeltApart apart, (respeltTwice v).symm⟩

def shortCheck : Json := .obj [("fn", .str "ex:isSet"), ("pms", .arr [
  .obj [("pm", .str "ex:input"), ("v", .str "$(ID)")], .arr [.str "ex:other", .str "$(x)"]])]

def fullCheck : Json := .obj [("function", .str "ex:isSet"), ("parameters", .arr [
  .obj [("parameter", .str "ex:input"), ("value", .str "$(ID)")], .arr [.str "ex:other", .str "$(x)"]])]

def doubledCheck : Json := .obj [("fn", .str "ex:isSet"), ("pms", .arr [
  .obj [("value", .str "$(ID)"), ("v", .str "$(id)")]])]

theorem checkSpelledOut : canonicalizeKeys shortCheck = .ok fullCheck ∧ fullCheck = respell shortCheck ∧
    (∀ fields, Within (.obj fields) fullCheck → ∀ field ∈ fields, ∀ k ∈ Keyword.payload, field.1 ∉ k.shortcuts) ∧
    canonicalizeKeys fullCheck = .ok fullCheck ∧ ∃ e, canonicalizeKeys doubledCheck = .error e := by
  have carried : canonicalizeKeys shortCheck = .ok fullCheck := rfl
  obtain ⟨same, plain, again⟩ := (keysSpelledOut shortCheck).2 fullCheck carried
  refine ⟨carried, same, plain, again, (keysSpelledOut doubledCheck).1.mpr ?_⟩
  refine ⟨[("value", .str "$(ID)"), ("v", .str "$(id)")], ?_, by decide⟩
  exact @Within.field _ ("pms", _) _ (.tail _ (.head _)) (.item (.head _) .self)

end TabularRdf.Mapping

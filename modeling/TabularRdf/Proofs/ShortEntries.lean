import TabularRdf.Document.PredicateObject
import TabularRdf.Proofs.Loading
import TabularRdf.Proofs.TemplateGrammar

/-! Entries in short form and the long form that each stands for. A modifier of the whole entry is that of each of its
objects, and a modifier is the datatype, the language or the kind that the long form names. -/
namespace TabularRdf.Loading

variable {α β γ ε : Type}

theorem mappedTwice {f : α → Except ε β} {g : β → Except ε γ} {xs : List α} {zs : List γ} :
    (xs.mapM fun x => f x >>= g) = .ok zs ↔ ∃ ys, xs.mapM f = .ok ys ∧ ys.mapM g = .ok zs := by
  simp only [mappedOk]
  constructor
  · intro pairs
    induction pairs with
    | nil => exact ⟨[], .nil, .nil⟩
    | cons head _ ih =>
      obtain ⟨y, first, second⟩ := boundOk.mp head
      obtain ⟨ys, firsts, seconds⟩ := ih
      exact ⟨y :: ys, .cons first firsts, .cons second seconds⟩
  · rintro ⟨ys, firsts, seconds⟩
    induction firsts generalizing zs with
    | nil =>
      cases seconds
      exact .nil
    | cons first _ ih =>
      cases seconds with
      | cons second seconds => exact .cons (boundOk.mpr ⟨_, first, second⟩) (ih seconds)

theorem mappedEmpty {f : α → Except ε β} {xs : List α} {ys : List β} (mapped : xs.mapM f = .ok ys) :
    ys.isEmpty = xs.isEmpty := by
  cases mappedOk.mp mapped <;> rfl

theorem followedAlike {x y : Except ε α} (same : ∀ a, x = .ok a ↔ y = .ok a) (f : α → Except ε β) :
    (x >>= f).toOption = (y >>= f).toOption := by
  ext b
  simp only [optionOk, boundOk, same]

end TabularRdf.Loading

namespace TabularRdf

def Json.IsScalar : Json → Prop
  | .arr _ | .obj _ => False
  | _ => True

def Json.listed : Json → List Json
  | .arr items => items
  | value => [value]

end TabularRdf

namespace TabularRdf.Document
open Mapping Loading

def pairsOf (context : Context) (owner : String) (value : Json) : Except MappingError (List PredicateObject) :=
  parseEntry context owner value >>= Entry.expand owner

def longForm (predicates objects : Json) : Json := .obj [("predicates", predicates), ("objects", objects)]

def withModifier (modifier : String) (object : Json) : Json := .arr [object, .str modifier]

/-- The objects of a list, or the only one, each with the modifier. A single pair stands in a list as well, since a
bare list of two is two objects. -/
def eachModified (modifier : String) (objects : Json) : Json := .arr (objects.listed.map (withModifier modifier))

section

variable {context : Context} {owner : String}

def sharedText (owner : String) (shared : Option Modifier) (item : Json) : Except MappingError CompactObject := do
  let object ← CompactObject.parse owner item
  object.share owner shared

def plainEntry (predicates : List Predicate) (objects : List EntryObject) : Entry := ⟨predicates, objects, [], [], none⟩

theorem longPlain {predicates objects : Json} {entry : Entry} :
    parseEntry context owner (longForm predicates objects) = .ok entry ↔ ∃ ps os,
      (itemsOf predicates).mapM (entryPredicate context owner) = .ok ps ∧
      (itemsOf objects).mapM (entryObject context owner) = .ok os ∧
      ¬ (ps.isEmpty || os.isEmpty) ∧ plainEntry ps os = entry := by
  have read : parseEntry context owner (longForm predicates objects) = do
      let ps ← (itemsOf predicates).mapM (entryPredicate context owner)
      let os ← (itemsOf objects).mapM (entryObject context owner)
      if ps.isEmpty || os.isEmpty then throw (.validation owner .entryWithoutParts)
      return plainEntry ps os := rfl
  rw [read, boundOk]
  refine exists_congr fun ps => ?_
  rw [boundOk, exists_and_left]
  refine and_congr_right fun _ => exists_congr fun os => and_congr_right fun _ => ?_
  exact passedOk.trans (and_congr_right fun _ => pureOk)

theorem shortParts {first second : Json} {third : Option Json} {entry : CompactEntry} :
    CompactEntry.parse owner (first :: second :: third.toList) = .ok entry ↔ ∃ shared,
      third.mapM (modifierOf owner) = .ok shared ∧
      (itemsOf first).mapM (scalarOr owner .predicateNotAString) = .ok entry.predicates ∧
      (itemsOf second).mapM (sharedText owner shared) = .ok entry.objects ∧
      ¬ (entry.predicates.isEmpty || entry.objects.isEmpty) := by
  have read : CompactEntry.parse owner (first :: second :: third.toList) = do
      let predicates ← (itemsOf first).mapM (scalarOr owner .predicateNotAString)
      let shared ← third.mapM (modifierOf owner)
      let objects ← (itemsOf second).mapM (sharedText owner shared)
      if predicates.isEmpty || objects.isEmpty then throw (.validation owner .shortcutWithoutParts)
      return { predicates, objects } := by
    cases third <;> rfl
  rw [read, boundOk]
  constructor
  · rintro ⟨predicates, texts, more⟩
    obtain ⟨shared, modifier, more⟩ := boundOk.mp more
    obtain ⟨objects, listed, more⟩ := boundOk.mp more
    obtain ⟨some, same⟩ := passedOk.mp more
    cases pureOk.mp same
    exact ⟨shared, modifier, texts, listed, some⟩
  · rintro ⟨shared, modifier, texts, listed, some⟩
    exact ⟨_, texts, boundOk.mpr ⟨shared, modifier, boundOk.mpr ⟨_, listed, passedOk.mpr ⟨some, rfl⟩⟩⟩⟩

theorem shortPlain {first second : Json} {third : Option Json} {entry : Entry} :
    parseEntry context owner (.arr (first :: second :: third.toList)) = .ok entry ↔ ∃ shared,
      third.mapM (modifierOf owner) = .ok shared ∧ ∃ ps os,
      (itemsOf first).mapM (entryPredicate context owner) = .ok ps ∧
      (itemsOf second).mapM (fun item => sharedText owner shared item >>= compactTerm context owner) = .ok os ∧
      ¬ (ps.isEmpty || os.isEmpty) ∧ plainEntry ps os = entry := by
  simp only [parseEntry, compactEntry, boundOk, pureOk, shortParts]
  constructor
  · rintro ⟨written, ⟨shared, modifier, texts, listed, some⟩, ps, predicates, os, objects, rfl⟩
    rw [← mappedEmpty predicates, ← mappedEmpty objects] at some
    exact ⟨shared, modifier, ps, os, mappedTwice.mpr ⟨_, texts, predicates⟩, mappedTwice.mpr ⟨_, listed, objects⟩,
      some, rfl⟩
  · rintro ⟨shared, modifier, ps, os, predicates, objects, some, rfl⟩
    obtain ⟨texts, read, predicates⟩ := mappedTwice.mp predicates
    obtain ⟨items, listed, objects⟩ := mappedTwice.mp objects
    rw [mappedEmpty predicates, mappedEmpty objects] at some
    exact ⟨⟨texts, items⟩, ⟨shared, modifier, read, listed, some⟩, ps, predicates, os, objects, rfl⟩

theorem plainAlike {predicates objects second : Json} (third : Option Json)
    (alike : ∀ os, os.isEmpty = false → ((itemsOf objects).mapM (entryObject context owner) = .ok os ↔
      ∃ shared, third.mapM (modifierOf owner) = .ok shared ∧ (itemsOf second).mapM (fun item =>
        sharedText owner shared item >>= compactTerm context owner) = .ok os)) :
    (pairsOf context owner (.arr (predicates :: second :: third.toList))).toOption =
      (pairsOf context owner (longForm predicates objects)).toOption := by
  refine followedAlike (fun entry => ?_) _
  rw [shortPlain, longPlain]
  constructor
  · rintro ⟨shared, modifier, ps, os, read, listed, some, same⟩
    have filled : os.isEmpty = false := by simp_all
    exact ⟨ps, os, read, (alike os filled).mpr ⟨shared, modifier, listed⟩, some, same⟩
  · rintro ⟨ps, os, read, listed, some, same⟩
    have filled : os.isEmpty = false := by simp_all
    obtain ⟨shared, modifier, listed⟩ := (alike os filled).mp listed
    exact ⟨shared, modifier, ps, os, read, listed, some, same⟩

theorem sharedPlain {item : Json} (objectless : item.obj? = none) :
    entryObject context owner item = sharedText owner none item >>= compactTerm context owner := by
  have kept : sharedText owner none item = CompactObject.parse owner item := by
    unfold sharedText
    cases CompactObject.parse owner item <;> rfl
  rw [kept]
  cases item with
  | obj _ => cases objectless
  | _ => rfl

theorem pairParsed (item : Json) (written : String) : CompactObject.parse owner (withModifier written item) = do
    let value ← scalarOr owner .objectNotAString item
    let text ← ObjectText.parse owner value
    let modifier ← Modifier.parse owner written
    return ⟨text, some modifier⟩ := rfl

theorem sharedModified {item : Json} (scalar : item.IsScalar) {written : String} {modifier : Modifier}
    (read : Modifier.parse owner written = .ok modifier) :
    entryObject context owner (withModifier written item) =
      sharedText owner (some modifier) item >>= compactTerm context owner := by
  have single : CompactObject.parse owner item = do
      let value ← scalarOr owner .objectNotAString item
      let text ← ObjectText.parse owner value
      return ⟨text, none⟩ := by
    cases item <;> first | rfl | contradiction
  have given : CompactObject.parse owner (withModifier written item) = sharedText owner (some modifier) item := by
    rw [pairParsed, read, sharedText, single]
    cases scalarOr owner .objectNotAString item with
    | error _ => rfl
    | ok value =>
      simp only [bind, Except.bind]
      cases ObjectText.parse owner value <;> rfl
  rw [← given]
  rfl

theorem modifiedParsed {item : Json} {written : String} {object : EntryObject}
    (read : entryObject context owner (withModifier written item) = .ok object) :
    ∃ modifier, Modifier.parse owner written = .ok modifier := by
  have parts : (CompactObject.parse owner (withModifier written item) >>= compactTerm context owner) =
      .ok object := read
  obtain ⟨_, pair, _⟩ := boundOk.mp parts
  simp only [pairParsed, boundOk] at pair
  obtain ⟨_, _, _, _, modifier, parsed, _⟩ := pair
  exact ⟨modifier, parsed⟩

theorem shortUnmodified {objects : Json} (predicates : Json) (objectless : ∀ item ∈ objects.listed, item.obj? = none) :
    (pairsOf context owner (.arr [predicates, objects])).toOption =
      (pairsOf context owner (longForm predicates objects)).toOption := by
  have each : ∀ item ∈ itemsOf objects, item.obj? = none := by
    cases objects with
    | null => exact List.forall_mem_nil _
    | _ => exact objectless
  refine plainAlike none fun os _ => ?_
  rw [mappedAlike fun item mem => sharedPlain (each item mem)]
  refine ⟨fun listed => ⟨none, rfl, listed⟩, fun ⟨shared, absent, listed⟩ => ?_⟩
  cases pureOk.mp absent
  exact listed

theorem listedModified {items : List Json} (scalars : ∀ item ∈ items, item.IsScalar) {written : String}
    {modifier : Modifier} (read : Modifier.parse owner written = .ok modifier) :
    (items.map (withModifier written)).mapM (entryObject context owner) =
      items.mapM fun item => sharedText owner (some modifier) item >>= compactTerm context owner := by
  rw [List.mapM_map]
  exact mappedAlike fun item mem => sharedModified (scalars item mem) read

theorem shortModified {objects : Json} (predicates : Json) (scalars : ∀ item ∈ objects.listed, item.IsScalar)
    (written : String) :
    (pairsOf context owner (.arr [predicates, objects, .str written])).toOption =
      (pairsOf context owner (longForm predicates (eachModified written objects))).toOption := by
  refine plainAlike (some (.str written)) fun os filled => ?_
  have parsed {items : List Json}
      (listed : (items.map (withModifier written)).mapM (entryObject context owner) = .ok os) :
      ∃ modifier, Modifier.parse owner written = .ok modifier := by
    obtain ⟨object, mem⟩ := List.exists_mem_of_ne_nil os (by simpa using filled)
    obtain ⟨_, inside, read⟩ := mappedOrigin listed mem
    obtain ⟨item, _, rfl⟩ := List.mem_map.mp inside
    exact modifiedParsed read
  by_cases absent : objects = .null
  · -- null is no object of the short entry, and no value of a pair
    subst absent
    constructor
    · intro listed
      obtain ⟨modifier, read⟩ := parsed listed
      cases (listedModified scalars read).symm.trans listed
    · rintro ⟨_, _, listed⟩
      cases pureOk.mp listed
      contradiction
  · have same : itemsOf objects = objects.listed := by cases objects <;> first | rfl | contradiction
    rw [same]
    constructor
    · intro listed
      obtain ⟨modifier, read⟩ := parsed listed
      refine ⟨some modifier, boundOk.mpr ⟨modifier, read, rfl⟩, ?_⟩
      rw [← listedModified scalars read]
      exact listed
    · rintro ⟨shared, third, listed⟩
      obtain ⟨modifier, read, chosen⟩ := boundOk.mp third
      cases pureOk.mp chosen
      rw [← listedModified scalars read] at listed
      exact listed

theorem datatypeParsed {text : String} (trimmed : Text.trimmed text = text) (filled : text ≠ "")
    (iri : text.toLower ≠ "iri") (tilde : text.toList.head? ≠ some '~') (language : ¬ languageSuffix <:+ text.toList) :
    Modifier.parse owner text = .ok (.datatype text) := by
  have whole : Text.dropTail? languageSuffix text.toList = none :=
    Option.eq_none_iff_forall_ne_some.mpr fun tag cut => language ⟨tag, (Text.dropTailExactly.mp cut).symm⟩
  have chars : ¬ text.toList.isEmpty := by simpa using filled
  simp only [Modifier.parse, Text.trimmedChars trimmed, whole, String.ofList_toList, if_neg chars, if_neg tilde,
    if_neg iri]

theorem languageParsed {tag : String} (trimmed : Text.trimmed tag = tag) (filled : tag ≠ "") :
    Modifier.parse owner (tag ++ "~lang") = .ok (.language tag) := by
  have chars : tag.toList ≠ [] := by simpa using filled
  have whole : Text.trim (tag ++ "~lang").toList = tag.toList ++ languageSuffix := by
    have suffix : Text.trim languageSuffix = languageSuffix := by decide
    have around := Text.trimmedAround (Text.trimmedChars trimmed) suffix chars (by decide) []
    rw [List.append_nil] at around
    rw [String.toList_append]
    exact around
  have cut : Text.dropTail? languageSuffix (tag.toList ++ languageSuffix) = some tag.toList :=
    Text.dropTailExactly.mpr rfl
  have some : ¬ (tag.toList ++ languageSuffix).isEmpty := by simp [chars]
  have tagged : ¬ tag.toList.isEmpty := by simpa using chars
  simp only [Modifier.parse, whole, cut, if_neg some, if_neg tagged, String.ofList_toList]

def Modifier.field : Modifier → String × Json
  | .language tag => ("language", .str tag)
  | .iri => ("type", .str "iri")
  | .datatype type => ("datatype", .str type)

theorem modifierNamed {written : String} {modifier : Modifier} (parsed : Modifier.parse owner written = .ok modifier)
    (value : String) : entryObject context owner (withModifier written (.str value)) =
      entryObject context owner (.obj [("value", .str value), modifier.field]) := by
  have short : entryObject context owner (withModifier written (.str value)) =
      ObjectText.parse owner value >>= fun text => compactTerm context owner ⟨text, some modifier⟩ := by
    have parts : entryObject context owner (withModifier written (.str value)) =
        CompactObject.parse owner (withModifier written (.str value)) >>= compactTerm context owner := rfl
    rw [parts, pairParsed, parsed]
    change (ObjectText.parse owner value >>= fun text => _) >>= _ = _
    cases ObjectText.parse owner value <;> rfl
  have long : entryObject context owner (.obj [("value", .str value), modifier.field]) =
      ObjectText.parse owner value >>= fun text => compactTerm context owner ⟨text, some modifier⟩ := by
    have alone : entryObject context owner (.obj [("value", .str value), modifier.field]) =
        valueObject context ⟨owner, [("value", .str value), modifier.field]⟩ := by
      cases modifier <;> rfl
    have text : Section.text? ⟨owner, [("value", .str value), modifier.field]⟩ .value = .ok (some value) := by
      cases modifier <;> rfl
    rw [alone, valueObject, text]
    change (ObjectText.parse owner value >>= fun text => _) = _
    cases ObjectText.parse owner value with
    | error _ => rfl
    | ok text =>
      -- the kind of a term is known once it is known whether its text is marked
      rcases text with ⟨text, _ | _⟩
      all_goals
        cases modifier with
        | iri => rfl
        | language tag =>
          change (some <$> context.template tag >>= fun _ => _) = (context.template tag >>= fun _ => _) >>= _
          cases context.template tag <;> rfl
        | datatype type =>
          change (some <$> context.template type >>= fun _ => _) = (context.template type >>= fun _ => _) >>= _
          cases context.template type <;> rfl
  rw [short, long]

end

def readEntries (context : Context) (owner : String) (entries : List Json) : Option (List PredicateObject) :=
  (parsePredicateObjects context ⟨owner, [("predicateobjects", .arr entries)]⟩).toOption

theorem entriesAlike {context : Context} {owner : String} {short long : Json}
    (same : (pairsOf context owner short).toOption = (pairsOf context owner long).toOption) (before after : List Json) :
    readEntries context owner (before ++ short :: after) = readEntries context owner (before ++ long :: after) := by
  have read (entries : List Json) : readEntries context owner entries =
      (entries.mapM (pairsOf context owner) >>= fun pairs => pure pairs.flatten).toOption := rfl
  have given (pairs : List PredicateObject) : pairsOf context owner short = .ok pairs ↔
      pairsOf context owner long = .ok pairs := by
    rw [← optionOk, same, optionOk]
  rw [read, read]
  refine followedAlike (fun all => ?_) _
  simp only [List.mapM_append, List.mapM_cons, boundOk, given]

theorem shortMeansLong (context : Context) (owner : String) :
    (∀ before after predicates objects, (∀ item ∈ objects.listed, item.obj? = none) →
      readEntries context owner (before ++ .arr [predicates, objects] :: after) =
        readEntries context owner (before ++ longForm predicates objects :: after)) ∧
    (∀ before after predicates objects modifier, (∀ item ∈ objects.listed, item.IsScalar) →
      readEntries context owner (before ++ .arr [predicates, objects, .str modifier] :: after) =
        readEntries context owner (before ++ longForm predicates (eachModified modifier objects) :: after)) ∧
    (∀ value datatype : String, Text.trimmed datatype = datatype → datatype ≠ "" → datatype.toLower ≠ "iri" →
      datatype.toList.head? ≠ some '~' → ¬ "~lang".toList <:+ datatype.toList →
      entryObject context owner (.arr [.str value, .str datatype]) =
        entryObject context owner (.obj [("value", .str value), ("datatype", .str datatype)])) ∧
    ∀ value tag : String, Text.trimmed tag = tag → tag ≠ "" →
      entryObject context owner (.arr [.str value, .str (tag ++ "~lang")]) =
        entryObject context owner (.obj [("value", .str value), ("language", .str tag)]) := by
  refine ⟨?_, ?_, ?_, ?_⟩
  · intro before after predicates objects objectless
    exact entriesAlike (shortUnmodified predicates objectless) before after
  · intro before after predicates objects modifier scalars
    exact entriesAlike (shortModified predicates scalars modifier) before after
  · intro value datatype trimmed filled iri tilde language
    exact modifierNamed (datatypeParsed trimmed filled iri tilde language) value
  · intro value tag trimmed filled
    exact modifierNamed (languageParsed trimmed filled) value

def spellingContext : Context := ⟨[], [], [], ⟨[("ex", "http://example.org/")], none, .percent⟩⟩

theorem namesSpelled :
    (readEntries spellingContext "person"
        [.arr [.str "ex:name", .arr [.str "$(page)~iri", .arr [.str "$(name)", .str "en~lang"]]]] =
      readEntries spellingContext "person"
        [longForm (.str "ex:name") (.arr [.str "$(page)~iri", .arr [.str "$(name)", .str "en~lang"]])]) ∧
    (readEntries spellingContext "person"
        [.arr [.str "ex:name", .arr [.str "$(first)", .str "$(last)"], .str "en~lang"]] =
      readEntries spellingContext "person"
        [longForm (.str "ex:name")
          (.arr [.arr [.str "$(first)", .str "en~lang"], .arr [.str "$(last)", .str "en~lang"]])]) ∧
    (readEntries spellingContext "person" [.arr [.str "ex:name", .arr [.str "$(first)", .str "$(last)"],
      .str "en~lang"]]).isSome ∧
    entryObject spellingContext "person" (.arr [.str "$(age)", .str "xsd:integer"]) =
      entryObject spellingContext "person" (.obj [("value", .str "$(age)"), ("datatype", .str "xsd:integer")]) ∧
    entryObject spellingContext "person" (.arr [.str "$(name)", .str ("$(lang)" ++ "~lang")]) =
      entryObject spellingContext "person" (.obj [("value", .str "$(name)"), ("language", .str "$(lang)")]) := by
  obtain ⟨unmodified, modified, datatype, language⟩ := shortMeansLong spellingContext "person"
  refine ⟨unmodified [] [] _ _ ?_, modified [] [] _ _ _ ?_, by decide +kernel, ?_, ?_⟩
  · simp [Json.listed, Json.obj?]
  · simp [Json.listed, Json.IsScalar]
  · exact datatype _ _ (by decide +kernel) (by decide) (by decide +kernel) (by decide) (by decide)
  · exact language _ _ (by decide +kernel) (by decide)

end TabularRdf.Document

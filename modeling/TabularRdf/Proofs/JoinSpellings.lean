import TabularRdf.Document.Subject
import TabularRdf.Proofs.InlineCalls
import TabularRdf.Proofs.Loading
import TabularRdf.Proofs.SortedKeys

/-! The two ways of writing a subject that joins on columns: a call on one line, and an object with conditions. Both
come down to the same keys, whose order and number do not count. -/
namespace TabularRdf.Document
open Mapping Loading InlineCall

structure Bare (name : String) : Prop where
  filled : name ≠ ""
  trimmed : Text.trimmed name = name
  unmarked : ∀ c ∈ name.toList, c ∉ ['(', ')', ',', '=']

instance (name : String) : Decidable (Bare name) :=
  decidable_of_iff (name ≠ "" ∧ Text.trimmed name = name ∧ name.toList.all fun c => c ∉ ['(', ')', ',', '='])
    ⟨fun ⟨filled, trimmed, unmarked⟩ => ⟨filled, trimmed, by simpa using unmarked⟩,
      fun ⟨filled, trimmed, unmarked⟩ => ⟨filled, trimmed, by simpa using unmarked⟩⟩

def placeholder (column : String) : String := "$(" ++ column ++ ")"

def equalText (key : JoinKey) : String :=
  "equal(str1=" ++ placeholder key.child ++ ", str2=" ++ placeholder key.parent ++ ")"

def quotedKeyword (asserted : Bool) : Keyword := if asserted then .quoted else .quotedNonAsserted

def joinText (asserted : Bool) (mapping : String) (keys : List JoinKey) : String :=
  "join(" ++ (quotedKeyword asserted).canonical ++ "=" ++ mapping ++
    String.join (keys.map fun key => ", " ++ equalText key) ++ ")"

def inlineJoin (asserted : Bool) (mapping : String) (keys : List JoinKey) : Json :=
  .obj [("function", .str (joinText asserted mapping keys))]

def sideParameter (name column : String) : Json := .arr [.str name, .str (placeholder column)]

def keyParameters (swapped : Bool) (key : JoinKey) : List Json :=
  if swapped then [sideParameter "str2" key.parent, sideParameter "str1" key.child]
  else [sideParameter "str1" key.child, sideParameter "str2" key.parent]

def equalItem (swapped : Bool) (key : JoinKey) : Json :=
  .obj [("function", .str "equal"), ("parameters", .arr (keyParameters swapped key))]

def longFields (asserted : Bool) (mapping : String) (condition : Json) : Json.Fields :=
  [((quotedKeyword asserted).canonical, .str mapping), ("condition", condition)]

def longJoin (asserted : Bool) (mapping : String) (terms : List (Bool × JoinKey)) : Json :=
  .obj (longFields asserted mapping (.arr (terms.map fun (swapped, key) => equalItem swapped key)))

def readSubject (context : Context) (owner : String) (value : Json) : Except MappingError SubjectSpec :=
  parseSubjects context ⟨owner, [("subjects", value)]⟩

section

variable {owner name : String}

theorem Bare.lacks (bare : Bare name) {c : Char} (mark : c ∈ ['(', ')', ',', '=']) : c ∉ name.toList :=
  fun mem => bare.unmarked c mem mark

theorem Bare.chars (bare : Bare name) : name.toList ≠ [] := by simpa using bare.filled

theorem Bare.whole (bare : Bare name) : Text.trim name.toList = name.toList := Text.trimmedChars bare.trimmed

theorem Bare.nested (bare : Bare name) {bound : Nat} {plain : Char → Prop}
    (apart : ∀ c, c ∉ ['(', ')', ',', '='] → plain c) : Nested bound plain name.toList :=
  nestedPlain fun c mem => ⟨apart c (bare.unmarked c mem), by have := bare.unmarked c mem; simp_all⟩

theorem columnRead (bare : Bare name) : columnOf owner (placeholder name) = .ok name := by
  have scanned : Template.scan none (placeholder name).toList = .ok [.column name.toList] := by
    have source : (placeholder name).toList = '$' :: '(' :: (name.toList ++ ')' :: []) := by simp [placeholder]
    have visible : ¬ name.toList.all Text.isBlank := by
      rw [← Text.trimmedNone, bare.whole]
      exact bare.chars
    rw [source, Template.scanPlaceholder (bare.lacks (by decide)), if_neg visible, bare.whole]
    rfl
  simp [columnOf, Template.parse, scanned, Template.gather, Template.flush, Template.singleColumn?, boundOk, pureOk]

theorem placeholderChars (name : String) : (placeholder name).toList = ['$', '('] ++ name.toList ++ [')'] := by
  simp [placeholder]

theorem placeholderWhole (name : String) : Text.trim (placeholder name).toList = (placeholder name).toList := by
  rw [placeholderChars]
  exact Text.trimmedAround (by decide) (by decide) (by decide) (by decide) _

theorem placeholderNested (bare : Bare name) {bound : Nat} {plain : Char → Prop} (dollar : plain '$') :
    Nested (bound + 1) plain (placeholder name).toList := by
  rw [placeholderChars]
  exact .char dollar (by decide) (by decide) (.group (bare.nested fun _ _ => trivial) .nil)

end

def setTo (word value : String) : List Char := word.toList ++ '=' :: value.toList

section

variable {word value : String}

theorem setRead (bare : Bare word) (whole : Text.trim value.toList = value.toList) (filled : value ≠ "") :
    argumentOf (setTo word value) = some (some word, value) := by
  have flat : Nested 0 (· ≠ '=') word.toList := bare.nested (by simp_all)
  have read := keyedRead bare.whole whole bare.chars (by simpa using filled) flat (by decide)
  rwa [String.ofList_toList, String.ofList_toList] at read

theorem setNested {bound : Nat} {plain : Char → Prop} (bare : Bare word)
    (apart : ∀ c, c ∉ ['(', ')', ',', '='] → plain c) (sign : plain '=') (nested : Nested bound plain value.toList) :
    Nested bound plain (setTo word value) :=
  nestedAppend (bare.nested apart) (.char sign (by decide) (by decide) nested)

end

theorem bareSides : Bare "str1" ∧ Bare "str2" := by decide

theorem bareKeyword (asserted : Bool) : Bare (quotedKeyword asserted).canonical := by
  cases asserted <;> decide

section

variable {owner : String} {key : JoinKey}

theorem equalChars (key : JoinKey) : (equalText key).toList = "equal".toList ++ '(' ::
    (setTo "str1" (placeholder key.child) ++ [' ' :: setTo "str2" (placeholder key.parent)].flatMap (',' :: ·) ++
      [')']) := by
  simp [equalText, setTo]

theorem equalNested {plain : Char → Prop} (child : Bare key.child) (parent : Bare key.parent)
    (name : ∀ c ∈ "equal".toList, plain c) : Nested 2 plain (equalText key).toList := by
  have first : Nested 1 (fun _ => True) (setTo "str1" (placeholder key.child)) :=
    setNested bareSides.1 (fun _ _ => trivial) trivial (placeholderNested child trivial)
  have second : Nested 1 (fun _ => True) (setTo "str2" (placeholder key.parent)) :=
    setNested bareSides.2 (fun _ _ => trivial) trivial (placeholderNested parent trivial)
  have inside := nestedAppend first (.char (c := ',') trivial (by decide) (by decide)
    (.char (c := ' ') trivial (by decide) (by decide) second))
  have outside : ∀ c ∈ "equal".toList, c ≠ '(' ∧ c ≠ ')' := by simp
  have opening : Nested 2 plain "equal".toList := nestedPlain fun c mem => ⟨name c mem, outside c mem⟩
  have whole := nestedAppend opening (.group inside .nil)
  simpa [equalChars] using whole

theorem equalWhole (key : JoinKey) : Text.trim (equalText key).toList = (equalText key).toList := by
  have whole (middle : List Char) : Text.trim ("equal".toList ++ middle ++ [')']) = "equal".toList ++ middle ++ [')'] :=
    Text.trimmedAround (by decide) (by decide) (by decide) (by decide) middle
  have around := whole ('(' :: (setTo "str1" (placeholder key.child) ++
    [' ' :: setTo "str2" (placeholder key.parent)].flatMap (',' :: ·)))
  simpa only [equalChars, List.append_assoc, List.cons_append] using around

theorem equalParsed (child : Bare key.child) (parent : Bare key.parent) : InlineCall.parse (equalText key) =
    some ⟨"equal", [(some "str1", placeholder key.child), (some "str2", placeholder key.parent)]⟩ := by
  have first : Nested 1 (· ≠ ',') (setTo "str1" (placeholder key.child)) :=
    setNested bareSides.1 (by simp_all) (by decide) (placeholderNested child (by decide))
  have second : Nested 1 (· ≠ ',') (' ' :: setTo "str2" (placeholder key.parent)) :=
    .char (by decide) (by decide) (by decide)
      (setNested bareSides.2 (by simp_all) (by decide) (placeholderNested parent (by decide)))
  have filled (name : String) : placeholder name ≠ "" := by simp [placeholder]
  rw [← String.ofList_toList (s := equalText key), equalChars,
    parseListed (by decide) (by decide) (by decide) (by decide) first (List.forall_mem_singleton.mpr second)]
  simp only [List.filterMap_cons, setRead bareSides.1 (placeholderWhole key.child) (filled key.child),
    setRead bareSides.2 (placeholderWhole key.parent) (filled key.parent), blankRead (show Text.isBlank ' ' by decide),
    List.filterMap_nil]
  rfl

theorem positionalKey (child : Bare key.child) (parent : Bare key.parent) :
    argumentOf (' ' :: (equalText key).toList) = some (none, equalText key) := by
  have filled : (equalText key).toList ≠ [] := by simp [equalChars]
  rw [blankRead (by decide), positionalRead (equalWhole key) filled (equalNested child parent (by simp)) (by decide),
    String.ofList_toList]

theorem argumentKey (child : Bare key.child) (parent : Bare key.parent) :
    joinArgument owner (equalText key) = .ok key := by
  have named : isEqual "equal" := by decide
  rw [joinArgument, equalParsed child parent, Option.filter_some, if_pos named]
  change (do
    let child ← columnOf owner (placeholder key.child)
    let parent ← columnOf owner (placeholder key.parent)
    return (⟨child, parent⟩ : JoinKey)) = _
  rw [columnRead child, columnRead parent]
  rfl

end

section

variable {mapping : String} {keys : List JoinKey}
  (columns : ∀ key ∈ keys, Bare key.child ∧ Bare key.parent)

theorem joinChars (asserted : Bool) (mapping : String) (keys : List JoinKey) :
    (joinText asserted mapping keys).toList = "join".toList ++ '(' ::
      (setTo (quotedKeyword asserted).canonical mapping ++
        (keys.map fun key => ' ' :: (equalText key).toList).flatMap (',' :: ·) ++ [')']) := by
  simp [joinText, setTo, String.toList_join, List.flatMap_map]

def naming (word mapping : String) (texts : List String) : InlineCall :=
  ⟨"join", (some word, mapping) :: texts.map fun text => (none, text)⟩

include columns in
theorem joinParsed (asserted : Bool) (named : Bare mapping) : InlineCall.parse (joinText asserted mapping keys) =
    some (naming (quotedKeyword asserted).canonical mapping (keys.map equalText)) := by
  have first : Nested 2 (· ≠ ',') (setTo (quotedKeyword asserted).canonical mapping) :=
    setNested (bareKeyword asserted) (by simp_all) (by decide) (named.nested (by simp_all))
  have each : ∀ piece ∈ keys.map (fun key => ' ' :: (equalText key).toList), Nested 2 (· ≠ ',') piece := by
    simp only [List.forall_mem_map]
    intro key mem
    obtain ⟨child, parent⟩ := columns key mem
    exact .char (by decide) (by decide) (by decide) (equalNested child parent (by simp))
  have read : (keys.map fun key => ' ' :: (equalText key).toList).filterMap argumentOf =
      (keys.map equalText).map fun text => (none, text) := by
    rw [List.filterMap_map, List.map_map]
    refine foundPaired ?_
    rw [List.forall₂_map_right_iff, List.forall₂_same]
    intro key mem
    rw [Function.comp_apply, positionalKey (columns key mem).1 (columns key mem).2]
    rfl
  rw [← String.ofList_toList (s := joinText asserted mapping keys), joinChars,
    parseListed (by decide) (by decide) (by decide) (by decide) first each, List.filterMap_cons,
    setRead (bareKeyword asserted) named.whole named.filled, read]
  rfl

theorem namingPositional (word mapping : String) (texts : List String) :
    (naming word mapping texts).positional = texts := by
  simp [naming, InlineCall.positional, List.filter_map, Function.comp_def]

theorem namingArg (word mapping key : String) (texts : List String) :
    (naming word mapping texts).arg? key = if word = key then some mapping else none := by
  by_cases same : word = key <;> simp [naming, InlineCall.arg?, same]

theorem namingName (owner mapping : String) (asserted : Bool) (texts : List String) :
    calledName owner (naming (quotedKeyword asserted).canonical mapping texts) = .ok (mapping, asserted) := by
  rw [calledName, namingArg, namingArg]
  cases asserted <;> rfl

include columns in
theorem namingJoins (owner : String) (asserted : Bool) (mapping : String) :
    joinCall owner (naming (quotedKeyword asserted).canonical mapping (keys.map equalText)) =
      .ok ⟨mapping, asserted, JoinCondition.ofKeys? keys, .all⟩ := by
  have read : (keys.map equalText).mapM (joinArgument owner) = .ok keys := by
    rw [mappedOk, List.forall₂_map_left_iff, List.forall₂_same]
    exact fun key mem => argumentKey (columns key mem).1 (columns key mem).2
  simp only [joinCall, namingName, namingPositional, read, bind, Except.bind]
  rfl

end

section

variable {context : Context} {owner mapping : String} {place : Nat} {keys : List JoinKey}

def quoting (quoted : QuotedRef) : SubjectSpec := ⟨[], some quoted, [], []⟩

theorem subjectRead {fields : Json.Fields} {quoted : QuotedRef}
    (added : subjectEntry context ⟨owner, fields⟩ SubjectSpec.empty = .ok (quoting quoted)) :
    readSubject context owner (.obj fields) = .ok (quoting quoted) := by
  have given : Section.get? ⟨owner, [("subjects", .obj fields)]⟩ .subjects = .ok (some (.obj fields)) := rfl
  have listed : itemsOf (.obj fields) = [.obj fields] := rfl
  have folded : (itemsOf (.obj fields)).foldlM (addSubject context owner) SubjectSpec.empty = .ok (quoting quoted) := by
    rw [listed, List.foldlM_cons, addSubject, added]
    rfl
  rw [readSubject, parseSubjects, given]
  change (itemsOf (.obj fields)).foldlM (addSubject context owner) SubjectSpec.empty >>= _ = _
  rw [folded]
  rfl

theorem callAdded {text : String} {call : InlineCall} {quoted : QuotedRef}
    (found : joinOf (some (.str text)) = some call) (joined : joinCall owner call = .ok quoted) :
    subjectEntry context ⟨owner, [("function", .str text)]⟩ SubjectSpec.empty = .ok (quoting quoted) := by
  have one : Section.exclusive ⟨owner, [("function", .str text)]⟩ [.value, .quoted, .quotedNonAsserted, .function] =
      .ok (some .function) := rfl
  have given : Section.get? ⟨owner, [("function", .str text)]⟩ .function = .ok (some (.str text)) := rfl
  have graphs : addGraphs context ⟨owner, [("function", .str text)]⟩ SubjectSpec.empty = .ok SubjectSpec.empty := rfl
  simp only [subjectEntry, graphs, one, given, bind, Except.bind, found, joined]
  rfl

theorem inlineRead (columns : ∀ key ∈ keys, Bare key.child ∧ Bare key.parent) (asserted : Bool)
    (named : Bare mapping) : readSubject context owner (inlineJoin asserted mapping keys) =
      .ok (quoting ⟨mapping, asserted, JoinCondition.ofKeys? keys, .all⟩) := by
  have found : joinOf (some (.str (joinText asserted mapping keys))) =
      some (naming (quotedKeyword asserted).canonical mapping (keys.map equalText)) := by
    simp [joinOf, Json.str?, joinParsed columns asserted named, Option.filter, naming]
  exact subjectRead (callAdded found (namingJoins columns owner asserted mapping))

theorem parameterRead {column name : String} (bare : Bare column) {side : Side}
    (sided : Parameter.sideAt owner place ⟨some name, some (placeholder column), none⟩ = .ok side) (parts : KeyParts)
    (rest : List Json) : keyParts owner place parts (sideParameter name column :: rest) =
      parts.enter owner side column >>= fun parts => keyParts owner (place + 1) parts rest := by
  have parsed : Parameter.ofJson owner (sideParameter name column) =
      .ok ⟨some name, some (placeholder column), none⟩ := rfl
  rw [keyParts, parsed]
  change Parameter.sideAt owner place ⟨some name, some (placeholder column), none⟩ >>= _ = _
  rw [sided]
  change columnOf owner (placeholder column) >>= _ = _
  rw [columnRead bare]
  rfl

theorem parametersRead {key : JoinKey} (child : Bare key.child) (parent : Bare key.parent) (swapped : Bool) :
    equalKey owner (.arr (keyParameters swapped key)) = .ok key := by
  have left (place : Nat) : Parameter.sideAt owner place ⟨some "str1", some (placeholder key.child), none⟩ =
      .ok .child := rfl
  have right (place : Nat) : Parameter.sideAt owner place ⟨some "str2", some (placeholder key.parent), none⟩ =
      .ok .parent := rfl
  rw [equalKey, itemsOf, keyParameters]
  cases swapped with
  | false =>
    rw [if_neg (by decide), parameterRead child (left 0)]
    change keyParts _ _ _ _ >>= _ = _
    rw [parameterRead parent (right 1)]
    rfl
  | true =>
    rw [if_pos rfl, parameterRead parent (right 0)]
    change keyParts _ _ _ _ >>= _ = _
    rw [parameterRead child (left 1)]
    rfl

theorem itemKey {key : JoinKey} (child : Bare key.child) (parent : Bare key.parent) (swapped : Bool) :
    conditionItem context owner (equalItem swapped key) = .ok ⟨some key, [], []⟩ := by
  have read (parameters : List Json) :
      conditionKey ⟨owner, [("function", .str "equal"), ("parameters", .arr parameters)]⟩ =
        equalKey owner (.arr parameters) >>= fun key => pure (some key) := rfl
  have filtered (parameters : List Json) :
      conditionItem context owner (.obj [("function", .str "equal"), ("parameters", .arr parameters)]) =
        conditionKey ⟨owner, [("function", .str "equal"), ("parameters", .arr parameters)]⟩ >>= fun key =>
          pure ⟨key, [], []⟩ := rfl
  rw [equalItem, filtered, read, parametersRead child parent]
  rfl

end

section

variable {context : Context} {owner mapping : String} {terms : List (Bool × JoinKey)}

theorem itemsKeys (columns : ∀ term ∈ terms, Bare term.2.child ∧ Bare term.2.parent) :
    joinCondition context owner (.arr (terms.map fun (swapped, key) => equalItem swapped key)) =
      .ok (JoinCondition.ofKeys? (terms.map Prod.snd), .all) := by
  have read : (terms.map fun (swapped, key) => equalItem swapped key).mapM (conditionItem context owner) =
      .ok (terms.map fun (_, key) => ⟨some key, [], []⟩) := by
    rw [mappedOk, List.forall₂_map_left_iff, List.forall₂_map_right_iff, List.forall₂_same]
    exact fun (swapped, key) mem => itemKey (columns _ mem).1 (columns _ mem).2 swapped
  rw [joinCondition, itemsOf, read]
  simp [bind, Except.bind, pure, Except.pure, List.filterMap_map, List.flatMap_map, QuoteFilter.all]

theorem conditionsRead (columns : ∀ term ∈ terms, Bare term.2.child ∧ Bare term.2.parent) (asserted : Bool)
    (mapping : String) : readSubject context owner (longJoin asserted mapping terms) =
      .ok (quoting ⟨mapping, asserted, JoinCondition.ofKeys? (terms.map Prod.snd), .all⟩) := by
  have reference (condition : Json) : quotedRef context ⟨owner, longFields asserted mapping condition⟩ =
      joinCondition context owner condition >>= fun read =>
        pure (some ⟨mapping, asserted, read.1, read.2⟩) := by
    cases asserted <;> rfl
  have one (condition : Json) : Section.exclusive ⟨owner, longFields asserted mapping condition⟩
      [.value, .quoted, .quotedNonAsserted, .function] = .ok (some (quotedKeyword asserted)) := by
    cases asserted <;> rfl
  have graphs (condition : Json) : addGraphs context ⟨owner, longFields asserted mapping condition⟩
      SubjectSpec.empty = .ok SubjectSpec.empty := by
    cases asserted <;> rfl
  refine subjectRead ?_
  simp only [subjectEntry, graphs, one, reference, itemsKeys columns, bind, Except.bind]
  cases asserted <;> rfl

end

theorem joinsSpelledAlike (context : Context) (owner : String) (asserted : Bool) {mapping : String}
    (named : Bare mapping) {keys : List JoinKey} (columns : ∀ key ∈ keys, Bare key.child ∧ Bare key.parent)
    {others : List JoinKey} (sameOthers : ∀ key, key ∈ others ↔ key ∈ keys)
    {terms : List (Bool × JoinKey)} (sameTerms : ∀ key, key ∈ terms.map Prod.snd ↔ key ∈ keys) :
    readSubject context owner (inlineJoin asserted mapping others) =
        .ok (quoting ⟨mapping, asserted, JoinCondition.ofKeys? keys, .all⟩) ∧
      readSubject context owner (longJoin asserted mapping terms) =
        .ok (quoting ⟨mapping, asserted, JoinCondition.ofKeys? keys, .all⟩) := by
  have bareOthers : ∀ key ∈ others, Bare key.child ∧ Bare key.parent :=
    fun key mem => columns key ((sameOthers key).mp mem)
  have bareTerms : ∀ term ∈ terms, Bare term.2.child ∧ Bare term.2.parent :=
    fun term mem => columns term.2 ((sameTerms term.2).mp (List.mem_map_of_mem mem))
  have inline : readSubject context owner (inlineJoin asserted mapping others) = _ :=
    inlineRead bareOthers asserted named
  have long : readSubject context owner (longJoin asserted mapping terms) = _ :=
    conditionsRead bareTerms asserted mapping
  rw [JoinCondition.sameMembers sameOthers] at inline
  rw [JoinCondition.sameMembers sameTerms] at long
  exact ⟨inline, long⟩

def nameKey : JoinKey := ⟨"name", "person"⟩

def townKey : JoinKey := ⟨"town", "place"⟩

def joiningContext : Context := ⟨[], [], [], ⟨[], none, .percent⟩⟩

theorem neighboursJoined : joinText false "person" [townKey, nameKey, townKey] =
      "join(quotedNonAsserted=person, equal(str1=$(town), str2=$(place)), equal(str1=$(name), str2=$(person)), " ++
        "equal(str1=$(town), str2=$(place)))" ∧
    readSubject joiningContext "note" (inlineJoin false "person" [townKey, nameKey, townKey]) =
      .ok (quoting ⟨"person", false, some ⟨[⟨"name", "person"⟩, ⟨"town", "place"⟩]⟩, .all⟩) ∧
    readSubject joiningContext "note" (longJoin false "person" [(true, townKey), (false, nameKey)]) =
      .ok (quoting ⟨"person", false, some ⟨[⟨"name", "person"⟩, ⟨"town", "place"⟩]⟩, .all⟩) := by
  have sorted : [nameKey, townKey].mergeSort JoinKey.le = [nameKey, townKey] :=
    List.mergeSort_of_pairwise (by decide +kernel)
  have condition : JoinCondition.ofKeys? [nameKey, townKey] = some ⟨[⟨"name", "person"⟩, ⟨"town", "place"⟩]⟩ := by
    rw [JoinCondition.ofKeys?, sorted]
    decide +kernel
  rw [← condition]
  exact ⟨by decide, joinsSpelledAlike joiningContext "note" false (by decide) (by decide)
    (fun key => by simp; tauto) (fun key => by simp [or_comm])⟩

end TabularRdf.Document

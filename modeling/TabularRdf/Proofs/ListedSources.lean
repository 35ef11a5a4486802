import TabularRdf.Document.Source
import TabularRdf.Proofs.Loading

/-! The sources and targets that a list of texts stands for. Each text is a declared name or an access path with a tag,
but some lists are one source or target with its further parts. -/
namespace TabularRdf.Document
open Mapping Loading

structure Tagged (text access tag : String) : Prop where
  whole : text.toList = access.toList ++ '~' :: tag.toList
  last : '~' ∉ tag.toList
  path : access ≠ ""
  filled : tag ≠ ""

def IsTagged (text : String) : Prop := ∃ access tag, Tagged text access tag

theorem tagExactly {text access tag : String} : splitTag text = (access, some tag) ↔ Tagged text access tag := by
  constructor
  · intro split
    unfold splitTag at split
    split at split
    · rename_i before after found
      obtain ⟨whole, last⟩ := Text.splitLastExactly.mp found
      split at split
      · cases split
      · rename_i both
        cases split
        simp only [Bool.or_eq_true, List.isEmpty_iff, not_or] at both
        refine ⟨?_, ?_, ?_, ?_⟩
        · simpa using whole
        · simpa using last
        · simpa using both.1
        · simpa using both.2
    · cases split
  · rintro ⟨whole, last, path, filled⟩
    have found := Text.splitLastExactly.mpr ⟨whole, last⟩
    have both : ¬ (access.toList.isEmpty || tag.toList.isEmpty) := by simp [path, filled]
    simp only [splitTag, found, if_neg both, String.ofList_toList]

theorem inlineExactly {text : String} : isInline text ↔ IsTagged text := by
  unfold isInline IsTagged
  simp only [← tagExactly]
  cases split : splitTag text with
  | mk access tag => cases tag <;> simp

section

variable {α : Type} {owner : String} {named : Named α} {made : String → String → α} {text : String}

inductive Designates (named : Named α) (made : String → String → α) (text : String) : α → Prop where
  | declared {found : α} (listed : named.lookup text = some found) : Designates named made text found
  | tagged {access tag : String} (undeclared : named.lookup text = none) (cut : Tagged text access tag) :
      Designates named made text (made access tag)

def Known (named : Named α) (text : String) : Prop := (∃ found, named.lookup text = some found) ∨ IsTagged text

theorem knownDesignates (known : Known named text) : ∃ found, Designates named made text found := by
  cases listed : named.lookup text with
  | some found => exact ⟨found, .declared listed⟩
  | none =>
    rcases known with ⟨_, found⟩ | ⟨access, tag, cut⟩
    · cases found.symm.trans listed
    · exact ⟨made access tag, .tagged listed cut⟩

theorem designatesExactly {item : Except MappingError α}
    (listed : ∀ found, named.lookup text = some found → item = .ok found)
    (parsed : named.lookup text = none → ∀ access tag, Tagged text access tag → item = .ok (made access tag))
    (unknown : named.lookup text = none → ¬ IsTagged text → ∃ e, item = .error e) {a : α} :
    item = .ok a ↔ Designates named made text a := by
  constructor
  · intro read
    cases found : named.lookup text with
    | some declared =>
      cases (listed declared found).symm.trans read
      exact .declared found
    | none =>
      by_cases tagged : IsTagged text
      · obtain ⟨access, tag, cut⟩ := tagged
        cases (parsed found access tag cut).symm.trans read
        exact .tagged found cut
      · obtain ⟨_, failed⟩ := unknown found tagged
        cases failed.symm.trans read
  · rintro (found | ⟨undeclared, cut⟩)
    · exact listed a found
    · exact parsed undeclared _ _ cut

end

def textList (texts : List String) : Json := .arr (texts.map .str)

def SourceShortcut : List String → Prop
  | [first] => IsTagged first
  | [first, second] => IsTagged first ∧ ¬ IsTagged second
  | _ => False

def TargetShortcut : List String → Prop
  | first :: second :: rest => IsTagged first ∧ ∀ text ∈ second :: rest, ¬ IsTagged text
  | _ => False

def inlineSource (access tag : String) : Source := .plain access (.ofTag tag)

def inlineTarget (access tag : String) : Target := ⟨none, access, some tag, none, none⟩

variable {owner : String} {sources : Named Source} {targets : Named Target} {texts : List String}

theorem sourceShortcutExactly : isSourceShortcut (texts.map .str) ↔ SourceShortcut texts := by
  match texts with
  | [] => simp [isSourceShortcut, SourceShortcut]
  | [first] => simp [isSourceShortcut, SourceShortcut, inlineExactly]
  | [first, second] => simp [isSourceShortcut, SourceShortcut, ← inlineExactly]
  | _ :: _ :: _ :: _ => simp [isSourceShortcut, SourceShortcut]

theorem targetShortcutExactly : isTargetShortcut (textList texts) ↔ TargetShortcut texts := by
  match texts with
  | [] => simp [isTargetShortcut, TargetShortcut, textList]
  | [first] => simp [isTargetShortcut, TargetShortcut, textList]
  | first :: second :: rest => simp [isTargetShortcut, TargetShortcut, textList, ← inlineExactly]

theorem textsRead {problem : Problem} : (texts.map Json.str).mapM (scalarOr owner problem) = .ok texts := by
  rw [mappedOk, List.forall₂_map_left_iff, List.forall₂_same]
  exact fun _ _ => rfl

theorem sourceMade {first access tag : String} (cut : Tagged first access tag) (rest : List String)
    (short : rest.length ≤ 1) : sourceShortcut owner (textList (first :: rest)) =
      .ok { inlineSource access tag with iterator := rest.head? } := by
  have split := tagExactly.mpr cut
  match rest with
  | [] => simp [sourceShortcut, textList, itemsOf, split, formatOf, inlineSource, Source.plain, pure, Except.pure]
  | [text] =>
    simp [sourceShortcut, textList, itemsOf, split, formatOf, inlineSource, Source.plain, scalarOr, scalarText?, bind,
      Except.bind, pure, Except.pure]

theorem targetMade {first access tag : String} (cut : Tagged first access tag) (rest : List String) :
    targetShortcut owner (textList (first :: rest)) = if rest.length ≤ 2 then
      .ok { inlineTarget access tag with serialization := rest[0]?, compression := rest[1]? }
      else .error (.validation owner .targetShortcutSize) := by
  have split := tagExactly.mpr cut
  have size : (itemsOf (textList (first :: rest))).length = rest.length + 1 := by
    rw [textList, itemsOf, List.length_map, List.length_cons]
  by_cases short : rest.length ≤ 2
  · rw [if_pos short]
    unfold targetShortcut
    refine passedOk.mpr ⟨?_, ?_⟩
    · rw [size, Bool.or_eq_true, decide_eq_true_eq, List.isEmpty_iff_length_eq_zero, size]
      omega
    · refine boundOk.mpr ⟨first :: rest, textsRead, ?_⟩
      simp [split, inlineTarget, pure, Except.pure]
  · rw [if_neg short]
    have long : 3 < (itemsOf (textList (first :: rest))).length := by omega
    simp [targetShortcut, long, throw, throwThe, MonadExceptOf.throw, bind, Except.bind]

theorem sourceItemExactly {text : String} {source : Source} :
    sourceItem owner sources (.str text) = .ok source ↔ Designates sources inlineSource text source := by
  refine designatesExactly (fun found listed => ?_) (fun undeclared access tag cut => ?_)
    fun undeclared plain => ⟨.unknownSource owner text, ?_⟩
  · simp only [sourceItem, listed]
  · simp only [sourceItem, undeclared, inlineExactly.mpr ⟨access, tag, cut⟩, if_true]
    exact sourceMade cut [] (Nat.zero_le 1)
  · simp only [sourceItem, undeclared, if_neg fun inline => plain (inlineExactly.mp inline)]

theorem targetItemExactly {text : String} {target : Target} :
    targetItem owner targets (.str text) = .ok target ↔ Designates targets inlineTarget text target := by
  refine designatesExactly (fun found listed => ?_) (fun undeclared access tag cut => ?_)
    fun undeclared plain => ⟨.unknownTarget owner text, ?_⟩
  · simp only [targetItem, listed]
  · simp only [targetItem, undeclared, inlineExactly.mpr ⟨access, tag, cut⟩, if_true]
    exact targetMade cut []
  · simp only [targetItem, undeclared, if_neg fun inline => plain (inlineExactly.mp inline)]

theorem itemsDesignate {α : Type} {named : Named α} {made : String → String → α} {item : Json → Except MappingError α}
    (reads : ∀ text a, item (.str text) = .ok a ↔ Designates named made text a) {found : List α} :
    (texts.map Json.str).mapM item = .ok found ↔ List.Forall₂ (Designates named made) texts found := by
  simp only [mappedOk, List.forall₂_map_left_iff, reads]

theorem eachKnown {α : Type} {named : Named α} {made : String → String → α}
    (known : ∀ text ∈ texts, Known named text) : ∃ found, List.Forall₂ (Designates named made) texts found :=
  pairedChosen fun text listed => knownDesignates (known text listed)

theorem sourcesListed (some : texts ≠ []) (several : ¬ SourceShortcut texts) {found : List Source}
    (pairs : List.Forall₂ (Designates sources inlineSource) texts found) :
    mappingSources owner (textList texts) sources = .ok found := by
  have plain : ¬ isSourceShortcut (texts.map .str) := fun short => several (sourceShortcutExactly.mp short)
  have filled : ¬ found.isEmpty := by
    rw [List.isEmpty_iff_length_eq_zero, ← pairs.length_eq]
    simpa using some
  simp only [mappingSources, textList, if_neg plain]
  exact boundOk.mpr ⟨found, (itemsDesignate fun _ _ => sourceItemExactly).mpr pairs, passedOk.mpr ⟨filled, rfl⟩⟩

theorem sourceBare {text : String} {found : Source} (one : Designates sources inlineSource text found) :
    mappingSources owner (.str text) sources = .ok [found] := by
  have mapped : (itemsOf (.str text)).mapM (sourceItem owner sources) = .ok [found] :=
    mappedOk.mpr (.cons (sourceItemExactly.mpr one) .nil)
  exact boundOk.mpr ⟨[found], mapped, passedOk.mpr ⟨Bool.false_ne_true, rfl⟩⟩

theorem sourceShort {first access tag : String} {rest : List String} (short : SourceShortcut (first :: rest))
    (cut : Tagged first access tag) : mappingSources owner (textList (first :: rest)) sources =
      .ok [{ inlineSource access tag with iterator := rest.head? }] := by
  have shortest : rest.length ≤ 1 := by
    match rest with
    | [] => exact Nat.zero_le 1
    | [_] => exact Nat.le_refl 1
    | _ :: _ :: _ => exact short.elim
  have mapped : [textList (first :: rest)].mapM (sourceItem owner sources) =
      .ok [{ inlineSource access tag with iterator := rest.head? }] :=
    mappedOk.mpr (.cons (sourceMade cut rest shortest) .nil)
  simp only [mappingSources, textList, if_pos (sourceShortcutExactly.mpr short)]
  exact boundOk.mpr ⟨_, mapped, passedOk.mpr ⟨Bool.false_ne_true, rfl⟩⟩

theorem targetsListed (several : ¬ TargetShortcut texts) {found : List Target}
    (pairs : List.Forall₂ (Designates targets inlineTarget) texts found) :
    mappingTargets owner (textList texts) targets = .ok found := by
  rw [mappingTargets, if_neg fun short => several (targetShortcutExactly.mp short)]
  exact (itemsDesignate fun _ _ => targetItemExactly).mpr pairs

theorem targetBare {text : String} {found : Target} (one : Designates targets inlineTarget text found) :
    mappingTargets owner (.str text) targets = .ok [found] :=
  mappedOk.mpr (.cons (targetItemExactly.mpr one) .nil)

theorem targetShort {first access tag : String} {rest : List String} (short : TargetShortcut (first :: rest))
    (cut : Tagged first access tag) : mappingTargets owner (textList (first :: rest)) targets =
      if rest.length ≤ 2 then
        .ok [{ inlineTarget access tag with serialization := rest[0]?, compression := rest[1]? }]
      else .error (.validation owner .targetShortcutSize) := by
  rw [mappingTargets, if_pos (targetShortcutExactly.mpr short), targetMade cut]
  split <;> rfl

structure ListsRead {α : Type} (named : Named α) (made : String → String → α)
    (read : Json → Except MappingError (List α)) (shortcut : List String → Prop) (doubtful : String → Prop) : Prop where
  each : ∀ texts, texts ≠ [] → (∀ text ∈ texts, Known named text) → ¬ shortcut texts →
    ∃ found, read (textList texts) = .ok found ∧ List.Forall₂ (Designates named made) texts found
  bare : ∀ text found, Designates named made text found → read (.str text) = .ok [found]
  single : ∀ text found, Designates named made text found → ¬ doubtful text → read (textList [text]) = .ok [found]

/-- The sources of a mapping are those that its texts stand for, in order, unless the list is a shortcut: then its first
text is the one source and the second the iterator. So are its targets; a shortcut there has a serialization and a
compression behind its first text. Only a declared name with a tag is another source in a list of its own. -/
theorem listsInOrder (owner : String) (sources : Named Source) (targets : Named Target) :
    ListsRead sources inlineSource (fun value => mappingSources owner value sources) SourceShortcut
      (fun text => IsTagged text ∧ ∃ found, sources.lookup text = some found) ∧
    (∀ first rest access tag, SourceShortcut (first :: rest) → Tagged first access tag →
      mappingSources owner (textList (first :: rest)) sources =
        .ok [{ inlineSource access tag with iterator := rest.head? }]) ∧
    ListsRead targets inlineTarget (fun value => mappingTargets owner value targets) TargetShortcut (fun _ => False) ∧
    ∀ first rest access tag, TargetShortcut (first :: rest) → Tagged first access tag →
      mappingTargets owner (textList (first :: rest)) targets =
        if rest.length ≤ 2 then
          .ok [{ inlineTarget access tag with serialization := rest[0]?, compression := rest[1]? }]
        else .error (.validation owner .targetShortcutSize) := by
  refine ⟨⟨fun texts some known several => ?_, fun _ _ => sourceBare, fun text found one plain => ?_⟩,
    fun _ _ _ _ => sourceShort, ⟨fun texts _ known several => ?_, fun _ _ => targetBare, fun text found one _ => ?_⟩,
    fun _ _ _ _ => targetShort⟩
  · obtain ⟨found, pairs⟩ := eachKnown known
    exact ⟨found, sourcesListed some several pairs, pairs⟩
  · cases one with
    | tagged undeclared cut => exact sourceShort ⟨_, _, cut⟩ cut
    | declared listed =>
      have several : ¬ SourceShortcut [text] := fun tagged => plain ⟨tagged, found, listed⟩
      exact sourcesListed (List.cons_ne_nil _ _) several (.cons (.declared listed) .nil)
  · obtain ⟨found, pairs⟩ := eachKnown known
    exact ⟨found, targetsListed several pairs, pairs⟩
  · exact targetsListed id (.cons one .nil)

instance (text : String) : Decidable (IsTagged text) := decidable_of_iff _ inlineExactly

instance (texts : List String) : Decidable (SourceShortcut texts) := decidable_of_iff _ sourceShortcutExactly

def productSource : Source := { inlineSource "products.csv" "csv" with name := some "products" }

def oddSource : Source := { inlineSource "odd.csv" "csv" with name := some "odd~csv" }

def storeTarget : Target := { inlineTarget "store.nq" "void" with name := some "store" }

def declaredSources : Named Source := [("products", productSource), ("odd~csv", oddSource)]

def declaredTargets : Named Target := [("store", storeTarget)]

theorem peopleCut : Tagged "people.csv~csv" "people.csv" "csv" := tagExactly.mp (by decide +kernel)

theorem productsListed : ∃ found,
    mappingSources "item" (textList ["products", "people.csv~csv"]) declaredSources = .ok found ∧
    List.Forall₂ (Designates declaredSources inlineSource) ["products", "people.csv~csv"] found := by
  obtain ⟨inOrder, _⟩ := listsInOrder "item" declaredSources declaredTargets
  refine inOrder.each _ (List.cons_ne_nil _ _) ?_ (by decide +kernel)
  exact List.forall_mem_cons.mpr ⟨.inl ⟨_, rfl⟩, List.forall_mem_singleton.mpr (.inr ⟨_, _, peopleCut⟩)⟩

theorem namesBehindTags :
    (∀ text ∈ ["people.csv~csv", "products"], Known declaredSources text) ∧
    mappingSources "item" (textList ["people.csv~csv", "products"]) declaredSources =
      .ok [{ inlineSource "people.csv" "csv" with iterator := some "products" }] ∧
    mappingSources "item" (.str "odd~csv") declaredSources = .ok [oddSource] ∧
    mappingSources "item" (textList ["odd~csv"]) declaredSources = .ok [inlineSource "odd" "csv"] ∧
    mappingTargets "item" (textList ["people.csv~csv", "store"]) declaredTargets =
      .ok [{ inlineTarget "people.csv" "csv" with serialization := some "store" }] := by
  have odd : Tagged "odd~csv" "odd" "csv" := tagExactly.mp (by decide +kernel)
  refine ⟨?_, sourceShort (by decide +kernel) peopleCut, sourceBare (.declared rfl), sourceShort ⟨_, _, odd⟩ odd, ?_⟩
  · exact List.forall_mem_cons.mpr ⟨.inr ⟨_, _, peopleCut⟩, List.forall_mem_singleton.mpr (.inl ⟨_, rfl⟩)⟩
  · exact targetShort ⟨⟨_, _, peopleCut⟩, List.forall_mem_singleton.mpr (by decide +kernel)⟩ peopleCut

end TabularRdf.Document

import Mathlib.Data.List.Chain
import Mathlib.Data.List.DropRight
import Mathlib.Data.List.TakeWhile
import TabularRdf.Proofs.FilledTemplates

/-! The grammar of templates. A source is read from left to right in one way, and what it is read as, written out,
is the source again. Scanning fails on the first thing of this reading that is no proper placeholder, and otherwise
keeps all of it but the blanks around the names of columns. -/
namespace TabularRdf.Text

theorem trimmedWithin (cs : List Char) : trim cs <+: trimLeft cs := List.rdropWhile_prefix isBlank _

theorem trimmedInside (cs : List Char) : trim cs <:+: cs :=
  (trimmedWithin cs).isInfix.trans (List.dropWhile_suffix isBlank).isInfix

theorem trimmedMem {cs : List Char} {c : Char} (mem : c ∈ trim cs) : c ∈ cs := (trimmedInside cs).mem mem

theorem trimmedNone {cs : List Char} : trim cs = [] ↔ cs.all isBlank := by
  rw [List.all_eq_true]
  refine List.rdropWhile_eq_nil_iff.trans ⟨fun blank c mem => ?_, fun blank c mem => ?_⟩
  · rw [← List.takeWhile_append_dropWhile (p := isBlank) (l := cs), List.mem_append] at mem
    exact mem.elim List.mem_takeWhile_imp (blank c)
  · exact blank c ((List.dropWhile_suffix isBlank).mem mem)

theorem trimmedTwice (cs : List Char) : trim (trim cs) = trim cs := by
  have left : trimLeft (trim cs) = trim cs := by
    refine List.dropWhile_eq_self_iff.mpr fun given => ?_
    have some : trimLeft cs ≠ [] := List.length_pos_iff.mp (given.trans_le (trimmedWithin cs).length_le)
    rw [(trimmedWithin cs).getElem given, ← List.head_eq_getElem some]
    exact Bool.eq_false_iff.mp (List.head_dropWhile_not isBlank some)
  exact (congrArg trimRight left).trans (List.rdropWhile_idempotent isBlank _)

theorem trimmedIff {cs : List Char} :
    trim cs = cs ↔ (∀ c ∈ cs.head?, ¬ isBlank c) ∧ ∀ c ∈ cs.getLast?, ¬ isBlank c := by
  have left : trimLeft cs = cs ↔ ∀ c ∈ cs.head?, ¬ isBlank c := by
    cases cs with
    | nil => simp [trimLeft]
    | cons c rest => simp [trimLeft, List.dropWhile_eq_self_iff]
  have right : trimRight cs = cs ↔ ∀ c ∈ cs.getLast?, ¬ isBlank c := by
    refine (List.rdropWhile_eq_self_iff (p := isBlank) (l := cs)).trans ?_
    rcases List.eq_nil_or_concat cs with rfl | ⟨rest, c, rfl⟩ <;> simp
  rw [← left, ← right]
  constructor
  · intro whole
    have first : trimLeft cs = cs := by
      refine (List.dropWhile_suffix isBlank).eq_of_length_le ?_
      calc cs.length = (trim cs).length := by rw [whole]
        _ ≤ (trimLeft cs).length := (trimmedWithin cs).length_le
    rw [trim, first] at whole
    exact ⟨first, whole⟩
  · rintro ⟨first, last⟩
    rw [trim, first, last]

theorem trimmedAround {before after : List Char} (one : trim before = before) (two : trim after = after)
    (some : before ≠ []) (other : after ≠ []) (middle : List Char) :
    trim (before ++ middle ++ after) = before ++ middle ++ after := by
  rw [trimmedIff] at *
  refine ⟨?_, ?_⟩
  · rw [List.append_assoc, List.head?_append_of_ne_nil _ some]
    exact one.1
  · rw [List.getLast?_append_of_ne_nil _ other]
    exact two.2

theorem trimmedChars {text : String} (whole : trimmed text = text) : trim text.toList = text.toList := by
  simpa [trimmed] using congrArg String.toList whole

theorem trimmedBlank {c : Char} (blank : isBlank c) (rest : List Char) : trim (c :: rest) = trim rest := by
  rw [trim, trimLeft, List.dropWhile_cons_of_pos blank]
  rfl

end TabularRdf.Text

namespace TabularRdf.Mapping

def Segment.escapes : Segment → Bool
  | .text t => t.toList.getLast? = some '\\'
  | .column _ => false

def Segment.Precedes (s t : Segment) : Prop := (s.text? = none ∨ t.text? = none) ∧ (s.escapes → t.column? = none)

namespace Template

inductive Item where
  | char (c : Char)
  | opening
  | placeholder (name : List Char)
  | unclosed (name : List Char)
  deriving DecidableEq, Repr

namespace Item

def written : Item → List Char
  | .char c => [c]
  | .opening => ['\\', '$', '(']
  | .placeholder name => '$' :: '(' :: (name ++ [')'])
  | .unclosed name => '$' :: '(' :: name

def trimmed : Item → Item
  | .placeholder name => .placeholder (Text.trim name)
  | item => item

def tokens : Item → List Token
  | .char c => [.char c]
  | .opening => [.char '$', .char '(']
  | .placeholder name => [.column (Text.trim name)]
  | .unclosed _ => []

def fault? : Item → Option TemplateProblem
  | .placeholder name => if name.all Text.isBlank then some .emptyPlaceholder else none
  | .unclosed _ => some .unterminated
  | .char _ | .opening => none

end Item

/- How a source is read from left to right. Only what opens nothing and escapes no opening is a character of its
own. -/
inductive Reads : List Char → List Item → Prop where
  | done : Reads [] []
  | opening {source : List Char} {items : List Item} (rest : Reads source items) :
      Reads ('\\' :: '$' :: '(' :: source) (.opening :: items)
  | placeholder {name source : List Char} {items : List Item} (ends : ')' ∉ name) (rest : Reads source items) :
      Reads ('$' :: '(' :: (name ++ ')' :: source)) (.placeholder name :: items)
  | unclosed {name : List Char} (ends : ')' ∉ name) : Reads ('$' :: '(' :: name) [.unclosed name]
  | char {c : Char} {source : List Char} {items : List Item} (opens : ¬ ['$', '('] <+: c :: source)
      (escapes : ¬ ['\\', '$', '('] <+: c :: source) (rest : Reads source items) :
      Reads (c :: source) (.char c :: items)

theorem readsSome (source : List Char) : ∃ items, Reads source items := by
  -- a placeholder takes several characters at once, so the induction is on how many are left
  induction size : source.length using Nat.strongRecOn generalizing source with
  | ind n ih =>
    subst size
    cases source with
    | nil => exact ⟨[], .done⟩
    | cons c source =>
      by_cases opens : ['$', '('] <+: c :: source
      · obtain ⟨inside, same⟩ := opens
        cases same
        by_cases closed : ')' ∈ inside
        · obtain ⟨name, rest, rfl, ends⟩ := List.eq_append_cons_of_mem closed
          obtain ⟨items, read⟩ := ih rest.length (by simp; omega) rest rfl
          exact ⟨_, .placeholder ends read⟩
        · exact ⟨_, .unclosed closed⟩
      · by_cases escapes : ['\\', '$', '('] <+: c :: source
        · obtain ⟨rest, same⟩ := escapes
          cases same
          obtain ⟨items, read⟩ := ih rest.length (by simp; omega) rest rfl
          exact ⟨_, .opening read⟩
        · obtain ⟨items, read⟩ := ih source.length (by simp) source rfl
          exact ⟨_, .char opens escapes read⟩

theorem readsOnce {source : List Char} {items others : List Item} (read : Reads source items)
    (again : Reads source others) : items = others := by
  induction read generalizing others with
  | done =>
    cases again
    rfl
  | opening _ ih =>
    cases again with
    | opening rest => rw [ih rest]
    | char _ escapes _ => exact absurd ⟨_, rfl⟩ escapes
  | @placeholder name _ _ ends _ ih =>
    generalize same : name ++ ')' :: _ = inside at again
    cases again with
    | placeholder other rest =>
      obtain ⟨rfl, rfl⟩ := Text.cutUniqueAt ends other same
      rw [ih rest]
    | unclosed other => exact absurd (same ▸ List.mem_append_right _ List.mem_cons_self) other
    | char opens _ _ => exact absurd ⟨_, rfl⟩ opens
  | @unclosed inside ends =>
    generalize same : inside = name at again
    cases again with
    | placeholder _ _ => exact absurd (same ▸ List.mem_append_right _ List.mem_cons_self) ends
    | unclosed _ => rfl
    | char opens _ _ => exact absurd ⟨_, rfl⟩ opens
  | char opens escapes _ ih =>
    cases again with
    | opening _ => exact absurd ⟨_, rfl⟩ escapes
    | placeholder _ _ => exact absurd ⟨_, rfl⟩ opens
    | unclosed _ => exact absurd ⟨_, rfl⟩ opens
    | char _ _ rest => rw [ih rest]

theorem readsWhole {source : List Char} {items : List Item} (read : Reads source items) :
    items.flatMap Item.written = source := by
  induction read with
  | done => rfl
  | opening _ ih | char _ _ _ ih => rw [List.flatMap_cons, ih]; rfl
  | placeholder _ _ ih => rw [List.flatMap_cons, ih, Item.written]; simp
  | unclosed => simp [Item.written]

def tokensOf (items : List Item) : Except TemplateProblem (List Token) :=
  match items.findSome? Item.fault? with
  | some problem => .error problem
  | none => .ok (items.flatMap Item.tokens)

theorem tokensNext {item : Item} {items : List Item} (sound : item.fault? = none) :
    tokensOf (item :: items) = (tokensOf items).map (item.tokens ++ ·) := by
  unfold tokensOf
  rw [List.findSome?_cons, sound]
  cases items.findSome? Item.fault? <;> rfl

theorem tokensFaulty {item : Item} {items : List Item} {problem : TemplateProblem}
    (faulty : item.fault? = some problem) : tokensOf (item :: items) = .error problem := by
  unfold tokensOf
  rw [List.findSome?_cons, faulty]

theorem scanName {name : List Char} (ends : ')' ∉ name) (taken rest : List Char) :
    scan (some taken) (name ++ rest) = scan (some (name.reverse ++ taken)) rest := by
  induction name generalizing taken with
  | nil => rfl
  | cons c name ih =>
    obtain ⟨other, ends⟩ := not_or.mp (List.mem_cons.not.mp ends)
    rw [List.cons_append, scan, if_neg (Ne.symm other), ih ends, List.reverse_cons, List.append_assoc,
      List.singleton_append]

theorem scanPlaceholder {name : List Char} (ends : ')' ∉ name) (rest : List Char) :
    scan none ('$' :: '(' :: (name ++ ')' :: rest)) = if name.all Text.isBlank then .error .emptyPlaceholder
      else (scan none rest).map (.column (Text.trim name) :: ·) := by
  rw [scan, scanName ends, scan, if_pos rfl, List.append_nil, List.reverse_reverse]
  simp only [List.isEmpty_iff, Text.trimmedNone]

theorem scanChar {c : Char} {rest : List Char} (opens : ¬ ['$', '('] <+: c :: rest)
    (escapes : ¬ ['\\', '$', '('] <+: c :: rest) : scan none (c :: rest) = (scan none rest).map (.char c :: ·) :=
  scan.eq_6 c rest (fun more here same => escapes ⟨more, here ▸ same ▸ rfl⟩)
    fun more here same => opens ⟨more, here ▸ same ▸ rfl⟩

theorem scanRead {source : List Char} {items : List Item} (read : Reads source items) :
    scan none source = tokensOf items := by
  induction read with
  | done => rfl
  | opening _ ih => rw [scan, ih, tokensNext rfl]; rfl
  | @placeholder name _ _ ends _ ih =>
    rw [scanPlaceholder ends, ih]
    by_cases blank : name.all Text.isBlank
    · have faulty : (Item.placeholder name).fault? = some .emptyPlaceholder := if_pos blank
      rw [if_pos blank, tokensFaulty faulty]
    · have sound : (Item.placeholder name).fault? = none := if_neg blank
      rw [if_neg blank, tokensNext sound]; rfl
  | @unclosed name ends =>
    have whole := scanName ends [] []
    rw [List.append_nil] at whole
    rw [scan, whole, scan, tokensFaulty rfl]
  | char opens escapes _ ih => rw [scanChar opens escapes, ih, tokensNext rfl]; rfl

/-! What is written back. -/

def spell : Segment → List Token
  | .text t => t.toList.map .char
  | .column name => [.column name.toList]

def write : List Token → List Char
  | [] => []
  | .char '$' :: .char '(' :: rest => '\\' :: '$' :: '(' :: write rest
  | .char c :: rest => c :: write rest
  | .column name :: rest => '$' :: '(' :: (name ++ ')' :: write rest)

def Unescaped (segments : List Segment) : Prop := segments.IsChain fun s t => s.escapes → t.column? = none

/-- Segments as they come from a source: no text is empty or stands beside another, names of columns are trimmed,
not empty and closed by their parenthesis, and no text escapes the placeholder behind it. -/
structure Normal (segments : List Segment) : Prop where
  filled : .text "" ∉ segments
  merged : Merged segments
  names : ∀ name, .column name ∈ segments → name ≠ "" ∧ Text.trimmed name = name ∧ ')' ∉ name.toList
  unescaped : Unescaped segments

theorem flushCases (pending : List Char) :
    pending = [] ∧ flush pending = [] ∨ flush pending = [.text (String.ofList pending.reverse)] := by
  unfold flush
  split
  · rename_i empty
    exact .inl ⟨List.isEmpty_iff.mp empty, rfl⟩
  · exact .inr rfl

theorem gatherText (text pending : List Char) (rest : List Token) :
    gather pending (text.map .char ++ rest) = gather (text.reverse ++ pending) rest := by
  induction text generalizing pending with
  | nil => rfl
  | cons c text ih =>
    refine (ih (c :: pending)).trans ?_
    rw [List.reverse_cons, List.append_assoc, List.singleton_append]

theorem gatherSpells (pending : List Char) (tokens : List Token) :
    (gather pending tokens).flatMap spell = pending.reverse.map .char ++ tokens := by
  have flushed (pending : List Char) : (flush pending).flatMap spell = pending.reverse.map .char := by
    rcases flushCases pending with ⟨rfl, empty⟩ | single
    · rw [empty]
      rfl
    · simp [single, spell]
  induction tokens generalizing pending with
  | nil => rw [gather, flushed, List.append_nil]
  | cons token rest ih =>
    cases token with
    | char c => rw [gather, ih]; simp
    | column name => rw [gather, List.flatMap_append, flushed, List.flatMap_cons, ih]; simp [spell]

theorem readFirst {source : List Char} {items : List Item} (read : Reads source items) {more : List Token}
    (first : items.flatMap Item.tokens = .char '(' :: more) : ∃ rest, source = '(' :: rest := by
  cases read with
  | done | placeholder | unclosed => simp [Item.tokens] at first
  | opening => simp [Item.tokens] at first
  | char =>
    cases (List.cons.inj first).1
    exact ⟨_, rfl⟩

theorem writtenRead {source : List Char} {items : List Item} (read : Reads source items)
    (sound : items.findSome? Item.fault? = none) :
    write (items.flatMap Item.tokens) = (items.map Item.trimmed).flatMap Item.written := by
  induction read with
  | done => rfl
  | opening _ ih =>
    rw [List.flatMap_cons, List.map_cons, List.flatMap_cons, ← ih sound]
    rfl
  | @placeholder name _ _ _ _ ih =>
    rw [List.findSome?_cons] at sound
    split at sound
    · contradiction
    · rw [List.flatMap_cons, List.map_cons, List.flatMap_cons, ← ih sound]
      simp [Item.tokens, Item.trimmed, Item.written, write]
  | unclosed => simp [Item.fault?] at sound
  | @char c _ items opens _ rest ih =>
    have apart (more : List Token) (first : items.flatMap Item.tokens = .char '(' :: more) (here : c = '$') :
        False := by
      obtain ⟨source, rfl⟩ := readFirst rest first
      exact opens ⟨source, here ▸ rfl⟩
    refine (write.eq_3 c (items.flatMap Item.tokens) apart).trans ?_
    rw [ih sound]
    rfl

theorem escapeWrites {text : List Char} {rest : List Token} (apart : ∀ more, rest ≠ .char '(' :: more) :
    write (text.map .char ++ rest) = escapeOpening text ++ write rest := by
  induction text using escapeOpening.induct with
  | case1 => rfl
  | case2 text ih => exact congrArg ('\\' :: '$' :: '(' :: ·) ih
  | case3 c text opens ih =>
    have next (more : List Token) (first : text.map .char ++ rest = .char '(' :: more) (here : c = '$') : False := by
      cases text with
      | nil => exact apart more first
      | cons d text =>
        cases (List.cons.inj first).1
        exact opens text here rfl
    rw [escapeOpening.eq_3 c text opens, List.cons_append, ← ih]
    exact write.eq_3 c _ next

theorem renderWrites {segments : List Segment} (merged : Merged segments) :
    (render segments).toList = write (segments.flatMap spell) := by
  induction segments with
  | nil => rfl
  | cons segment rest ih =>
    obtain ⟨first, merged⟩ := List.isChain_cons.mp merged
    rw [render, List.map_cons, String.join_cons, String.toList_append, List.flatMap_cons]
    refine (congrArg (_ ++ ·) (ih merged)).trans ?_
    cases segment with
    | text t =>
      have apart (more : List Token) (here : rest.flatMap spell = .char '(' :: more) : False := by
        cases rest with
        | nil => cases here
        | cons next _ =>
          cases next with
          | text u => simpa [Segment.text?] using first _ rfl
          | column name => cases (List.cons.inj here).1
      rw [renderSegment, String.toList_ofList, spell, escapeWrites apart]
    | column name => simp [renderSegment, spell, write]

def Guarded (tokens : List Token) : Prop :=
  tokens.IsChain fun a b => a = .char '\\' → ∀ name, b ≠ .column name

theorem readColumn {source : List Char} {items : List Item} (read : Reads source items) {name : List Char}
    {more : List Token} (first : items.flatMap Item.tokens = .column name :: more) : ['$', '('] <+: source := by
  cases read with
  | done | unclosed => cases first
  | opening | char => cases (List.cons.inj first).1
  | placeholder => exact ⟨_, rfl⟩

theorem readGuarded {source : List Char} {items : List Item} (read : Reads source items) :
    Guarded (items.flatMap Item.tokens) := by
  induction read with
  | done | unclosed => exact .nil
  | opening _ ih => exact List.isChain_cons.mpr ⟨nofun, List.isChain_cons.mpr ⟨nofun, ih⟩⟩
  | placeholder _ _ ih => exact List.isChain_cons.mpr ⟨nofun, ih⟩
  | @char c source items _ escapes rest ih =>
    refine List.isChain_cons.mpr ⟨fun token first here name column => escapes ?_, ih⟩
    obtain ⟨more, first⟩ := List.head?_eq_some_iff.mp first
    obtain ⟨source, rfl⟩ := readColumn rest (column ▸ first)
    exact ⟨source, Token.char.inj here ▸ rfl⟩

theorem readNames {source : List Char} {items : List Item} (read : Reads source items)
    (sound : items.findSome? Item.fault? = none) {name : List Char} (mem : .column name ∈ items.flatMap Item.tokens) :
    name ≠ [] ∧ Text.trim name = name ∧ ')' ∉ name := by
  induction read with
  | done => cases mem
  | opening _ ih | char _ _ _ ih => exact ih sound (by simpa [Item.tokens] using mem)
  | @placeholder raw _ _ ends _ ih =>
    rw [List.findSome?_cons] at sound
    split at sound
    · contradiction
    · rename_i proper
      rcases List.mem_cons.mp mem with here | later
      · cases here
        have given : ¬ raw.all Text.isBlank := fun blank => by simp [Item.fault?, blank] at proper
        exact ⟨mt Text.trimmedNone.mp given, Text.trimmedTwice raw, fun inside => ends (Text.trimmedMem inside)⟩
      · exact ih sound later
  | unclosed => cases mem

theorem gatherChain {pending : List Char} {tokens : List Token}
    (guarded : Guarded (pending.reverse.map .char ++ tokens)) : (gather pending tokens).IsChain Segment.Precedes := by
  induction tokens generalizing pending with
  | nil =>
    rw [gather]
    rcases flushCases pending with ⟨_, empty⟩ | single
    · exact empty ▸ .nil
    · exact single ▸ .singleton _
  | cons token rest ih =>
    cases token with
    | char c => exact ih (by simpa using guarded)
    | column name =>
      -- the tokens of the text before the column, and the column with what is behind it
      obtain ⟨_, after, boundary⟩ := List.isChain_append.mp guarded
      have tail : (gather [] rest).IsChain Segment.Precedes := ih (List.isChain_cons.mp after).2
      have behind : (Segment.column (String.ofList name) :: gather [] rest).IsChain Segment.Precedes :=
        List.isChain_cons.mpr ⟨fun _ _ => ⟨.inl rfl, fun escapes => absurd escapes Bool.false_ne_true⟩, tail⟩
      rw [gather]
      rcases flushCases pending with ⟨_, empty⟩ | single
      · rwa [empty]
      · rw [single]
        refine List.isChain_cons.mpr ⟨fun next first => ?_, behind⟩
        cases Option.some.inj first
        refine ⟨.inr rfl, fun escapes => ?_⟩
        have last : pending.head? = some '\\' := by simpa [Segment.escapes] using escapes
        exact absurd rfl (boundary (.char '\\') (by simp [last]) _ rfl rfl name)

theorem parsedReading {source : String} {t : Template} (parsed : parse source = .ok t) : ∃ items,
    Reads source.toList items ∧ items.findSome? Item.fault? = none ∧
      t = ⟨source, gather [] (items.flatMap Item.tokens)⟩ := by
  obtain ⟨items, read⟩ := readsSome source.toList
  rw [parse, scanRead read, tokensOf] at parsed
  cases fault : items.findSome? Item.fault? with
  | some problem =>
    rw [fault] at parsed
    cases parsed
  | none =>
    rw [fault] at parsed
    exact ⟨items, read, fault, (Except.ok.inj parsed).symm⟩

theorem parsedNormal {source : String} {t : Template} (parsed : parse source = .ok t) : Normal t.segments := by
  obtain ⟨items, read, sound, same⟩ := parsedReading parsed
  have chain : (gather [] (items.flatMap Item.tokens)).IsChain Segment.Precedes := gatherChain (readGuarded read)
  have spelled := gatherSpells [] (items.flatMap Item.tokens)
  have filled := parsedFilled parsed
  subst same
  refine ⟨filled, chain.imp fun _ _ => And.left, fun name mem => ?_, chain.imp fun _ _ => And.right⟩
  have inside : .column name.toList ∈ items.flatMap Item.tokens := by
    have spelt : Token.column name.toList ∈ (gather [] (items.flatMap Item.tokens)).flatMap spell :=
      List.mem_flatMap.mpr ⟨_, mem, List.mem_singleton_self _⟩
    rwa [spelled] at spelt
  obtain ⟨some, trimmed, ends⟩ := readNames read sound inside
  exact ⟨by simpa using some, by rw [Text.trimmed, trimmed, String.ofList_toList], ends⟩

structure Keeps (source : String) (items : List Item) (t : Template) : Prop where
  source : t.source = source
  normal : Normal t.segments
  spelled : t.segments.flatMap spell = items.flatMap Item.tokens
  rendered : (render t.segments).toList = (items.map Item.trimmed).flatMap Item.written

theorem parsedKeeps {source : String} {items : List Item} (read : Reads source.toList items) {t : Template}
    (parsed : parse source = .ok t) : Keeps source items t := by
  have normal := parsedNormal parsed
  obtain ⟨others, again, sound, rfl⟩ := parsedReading parsed
  cases readsOnce read again
  have spelled := gatherSpells [] (items.flatMap Item.tokens)
  exact ⟨rfl, normal, spelled, by rw [renderWrites normal.merged, spelled]; exact writtenRead read sound⟩

theorem parseFollowsGrammar (source : String) : ∃ items, (∀ others, Reads source.toList others ↔ others = items) ∧
    items.flatMap Item.written = source.toList ∧
    (∀ e, parse source = .error e ↔
      ∃ problem, items.findSome? Item.fault? = some problem ∧ e = .invalidTemplate source problem) ∧
    ∀ t, parse source = .ok t → Keeps source items t := by
  obtain ⟨items, read⟩ := readsSome source.toList
  refine ⟨items, fun others => ⟨fun again => readsOnce again read, fun same => same ▸ read⟩, readsWhole read, ?_,
    fun t => parsedKeeps read⟩
  intro e
  rw [parse, scanRead read, tokensOf]
  cases items.findSome? Item.fault? with
  | none => simp
  | some problem => simp [eq_comm]

theorem priceKept : ∃ items t, Reads "cost \\$(usd) $( amount )".toList items ∧
    parse "cost \\$(usd) $( amount )" = .ok t ∧ t.segments = [.text "cost $(usd) ", .column "amount"] ∧
    Keeps "cost \\$(usd) $( amount )" items t := by
  obtain ⟨items, once, -, -, keeps⟩ := parseFollowsGrammar "cost \\$(usd) $( amount )"
  have parsed : parse "cost \\$(usd) $( amount )" =
      .ok ⟨"cost \\$(usd) $( amount )", [.text "cost $(usd) ", .column "amount"]⟩ := by decide +kernel
  exact ⟨items, _, (once items).mpr rfl, parsed, rfl, keeps _ parsed⟩

end Template

end TabularRdf.Mapping

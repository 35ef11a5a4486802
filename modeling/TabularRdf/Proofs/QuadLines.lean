import TabularRdf.Proofs.TermOrigins

/-! Quads as lines of text. When no IRI, datatype or language has a blank in it, the line of a quad is read word
by word, and no two quads have the same line; and a line breaks only where one of these does. -/
namespace TabularRdf.Text

def Lacks (c : Char) (text : String) : Prop := c ∉ text.toList

instance (c : Char) (text : String) : Decidable (Lacks c text) := inferInstanceAs (Decidable (¬ _))

theorem lacksAppend {c : Char} {a b : String} : Lacks c (a ++ b) ↔ Lacks c a ∧ Lacks c b := by
  simp [Lacks]

end TabularRdf.Text

namespace TabularRdf.Rdf
open Text

namespace Literal

theorem escapeUnique {c d : Char} {rest more : List Char} (same : escapeChar c ++ rest = escapeChar d ++ more) :
    c = d ∧ rest = more := by
  unfold escapeChar at same
  split_ifs at same <;> grind

theorem quoteEscaped {c : Char} {rest more : List Char} (same : '\x22' :: rest = escapeChar c ++ more) : False := by
  unfold escapeChar at same
  split_ifs at same <;> grind

theorem valueUnique {value other rest more : List Char}
    (same : value.flatMap escapeChar ++ '\x22' :: rest = other.flatMap escapeChar ++ '\x22' :: more) :
    value = other ∧ rest = more := by
  induction value generalizing other with
  | nil =>
    cases other with
    | nil => exact ⟨rfl, (List.cons.inj same).2⟩
    | cons d other =>
      rw [List.flatMap_cons, List.append_assoc] at same
      exact (quoteEscaped same).elim
  | cons c value ih =>
    cases other with
    | nil =>
      rw [List.flatMap_cons, List.append_assoc] at same
      exact (quoteEscaped same.symm).elim
    | cons d other =>
      simp only [List.flatMap_cons, List.append_assoc] at same
      obtain ⟨rfl, later⟩ := escapeUnique same
      obtain ⟨rfl, rfl⟩ := ih later
      exact ⟨rfl, rfl⟩

theorem suffixUnique {l m : Literal} (one : l.datatype = none ∨ l.language = none)
    (other : m.datatype = none ∨ m.language = none) (same : l.suffix = m.suffix) :
    l.datatype = m.datatype ∧ l.language = m.language := by
  obtain ⟨_, datatype, language⟩ := l
  obtain ⟨_, type, tag⟩ := m
  cases datatype <;> cases language <;> cases type <;> cases tag <;>
    simp_all [suffix, String.toList_inj]

theorem suffixLacks {c : Char} {l : Literal} (plain : c ∉ ['@', '^', '<', '>'])
    (typed : ∀ d ∈ l.datatype, Lacks c d) (tagged : ∀ t ∈ l.language, Lacks c t) : c ∉ l.suffix := by
  obtain ⟨_, datatype, language⟩ := l
  unfold suffix Lacks at *
  cases language <;> cases datatype <;> simp_all

end Literal

def Term.Lacks (c : Char) : Term → Prop
  | .iri name => Text.Lacks c name
  | .literal l => (∀ d ∈ l.datatype, Text.Lacks c d) ∧ ∀ t ∈ l.language, Text.Lacks c t
  | .quoted s p o => s.Lacks c ∧ p.Lacks c ∧ o.Lacks c

namespace Term

theorem iriText (name : String) : (iri name).text.toList = '<' :: (name.toList ++ ['>']) := by
  simp [text]

theorem literalText (l : Literal) :
    (literal l).text.toList = '\x22' :: (l.value.toList.flatMap Literal.escapeChar ++ '\x22' :: l.suffix) := by
  simp [text, Literal.text, Literal.chars]

theorem quotedText (s p o : Term) : (quoted s p o).text.toList = ['<', '<'] ++ ' ' :: (s.text.toList ++
    ' ' :: (p.text.toList ++ ' ' :: (o.text.toList ++ [' ', '>', '>']))) := by
  simp [text]

theorem iriLacks {c : Char} {name : String} (plain : c ∉ ['<', '>']) (lacks : Text.Lacks c name) :
    c ∉ '<' :: (name.toList ++ ['>']) := by
  unfold Text.Lacks at lacks
  simp_all

theorem plainUnique {t u : Term} (plain : t.isQuoted = false) (other : u.isQuoted = false) (formed : t.WellFormed)
    (whole : u.WellFormed) (lacks : t.Lacks ' ') (free : u.Lacks ' ') {rest more : List Char}
    (same : t.text.toList ++ ' ' :: rest = u.text.toList ++ ' ' :: more) : t = u ∧ rest = more := by
  cases t with
  | iri name =>
    cases u with
    | iri another =>
      rw [iriText, iriText] at same
      obtain ⟨word, later⟩ := cutUniqueAt (iriLacks (by decide) lacks) (iriLacks (by decide) free) same
      have names := List.append_cancel_right (List.cons.inj word).2
      exact ⟨congrArg iri (String.toList_inj.mp names), later⟩
    | literal m =>
      rw [iriText, literalText] at same
      simp at same
    | quoted => cases other
  | literal l =>
    cases u with
    | iri another =>
      rw [iriText, literalText] at same
      simp at same
    | literal m =>
      simp only [literalText, List.cons_append, List.append_assoc, List.cons.injEq, true_and] at same
      -- a value may hold blanks, so only what follows its quotation mark is read as a word
      obtain ⟨value, behind⟩ := Literal.valueUnique same
      obtain ⟨suffix, later⟩ := cutUniqueAt (Literal.suffixLacks (by decide) lacks.1 lacks.2)
        (Literal.suffixLacks (by decide) free.1 free.2) behind
      obtain ⟨datatype, language⟩ := Literal.suffixUnique formed.one whole.one suffix
      obtain ⟨value₁, _, _⟩ := l
      obtain ⟨value₂, _, _⟩ := m
      cases String.toList_inj.mp value
      cases datatype
      cases language
      exact ⟨rfl, later⟩
    | quoted => cases other
  | quoted => cases plain

theorem iriUnique {t u : Term} (iri : t.isIri) (other : u.isIri) (lacks : t.Lacks ' ') (free : u.Lacks ' ')
    {rest more : List Char} (same : t.text.toList ++ ' ' :: rest = u.text.toList ++ ' ' :: more) :
    t = u ∧ rest = more :=
  plainUnique (iriPlain iri).1 (iriPlain other).1 (iriPlain iri).2 (iriPlain other).2 lacks free same

theorem plainNotQuoted {t : Term} (plain : t.isQuoted = false) (lacks : t.Lacks ' ') {rest more : List Char} :
    t.text.toList ++ ' ' :: rest ≠ ['<', '<'] ++ ' ' :: more := by
  intro same
  cases t with
  | iri name =>
    rw [iriText] at same
    have word := (cutUniqueAt (iriLacks (by decide) lacks) (by decide) same).1
    have last := congrArg List.getLast? (List.cons.inj word).2
    simp at last
  | literal l =>
    rw [literalText] at same
    simp at same
  | quoted => cases plain

theorem quotedUnique {t u : Term} (quoted : t.isQuoted) (other : u.isQuoted) (formed : t.WellFormed)
    (whole : u.WellFormed) (lacks : t.Lacks ' ') (free : u.Lacks ' ') {rest more : List Char}
    (same : t.text.toList ++ ' ' :: rest = u.text.toList ++ ' ' :: more) : t = u ∧ rest = more := by
  cases t with
  | quoted s p o =>
    cases u with
    | quoted s' p' o' =>
      simp only [quotedText, List.append_assoc, List.cons_append, List.nil_append, List.cons.injEq, true_and] at same
      obtain ⟨subject, predicate, plain, object⟩ := formed
      obtain ⟨subject', predicate', plain', object'⟩ := whole
      obtain ⟨rfl, second⟩ := iriUnique subject subject' lacks.1 free.1 same
      obtain ⟨rfl, third⟩ := iriUnique predicate predicate' lacks.2.1 free.2.1 second
      obtain ⟨rfl, last⟩ := plainUnique plain plain' object object' lacks.2.2 free.2.2 third
      simpa using last
    | _ => cases other
  | _ => cases quoted

theorem textUnique {t u : Term} (formed : t.WellFormed) (whole : u.WellFormed) (lacks : t.Lacks ' ')
    (free : u.Lacks ' ') {rest more : List Char}
    (same : t.text.toList ++ ' ' :: rest = u.text.toList ++ ' ' :: more) : t = u ∧ rest = more := by
  cases first : t.isQuoted <;> cases second : u.isQuoted
  · exact plainUnique first second formed whole lacks free same
  · cases u with
    | quoted s p o =>
      rw [quotedText, List.append_assoc] at same
      exact (plainNotQuoted first lacks same).elim
    | _ => cases second
  · cases t with
    | quoted s p o =>
      rw [quotedText, List.append_assoc] at same
      exact (plainNotQuoted second free same.symm).elim
    | _ => cases first
  · exact quotedUnique first second formed whole lacks free same

theorem valueLacks {c : Char} (raw : c ∈ ['\n', '\r', '\t']) (value : List Char) :
    c ∉ value.flatMap Literal.escapeChar := by
  intro mem
  obtain ⟨d, _, inside⟩ := List.mem_flatMap.mp mem
  unfold Literal.escapeChar at inside
  split_ifs at inside <;> grind

theorem textLacks {c : Char} (breaks : c ∈ ['\n', '\r']) {t : Term} (lacks : t.Lacks c) : c ∉ t.text.toList := by
  have plain : c ∉ ['<', '>', ' ', '@', '^', '\x22'] := by
    grind
  induction t with
  | iri name =>
    rw [iriText]
    exact iriLacks (by grind) lacks
  | literal l =>
    have suffix := Literal.suffixLacks (c := c) (l := l) (by grind) lacks.1 lacks.2
    have value := valueLacks (c := c) (by grind) l.value.toList
    rw [literalText]
    grind
  | quoted s p o first second third =>
    have subject := first lacks.1
    have predicate := second lacks.2.1
    have object := third lacks.2.2
    rw [quotedText]
    grind

end Term

namespace Quad

def ending : Option String → List Char
  | some graph => '<' :: (graph.toList ++ ['>', ' ', '.'])
  | none => ['.']

theorem endingUnique {g h : Option String} (same : ending g = ending h) : g = h := by
  cases g with
  | none =>
    cases h with
    | none => rfl
    | some h => cases (List.cons.inj same).1
  | some g =>
    cases h with
    | none => cases (List.cons.inj same).1
    | some h => exact congrArg some (String.toList_inj.mp (List.append_cancel_right (List.cons.inj same).2))

theorem lineText (q : Quad) : q.text.toList = q.subject.text.toList ++ ' ' :: (q.predicate.text.toList ++
    ' ' :: (q.object.text.toList ++ ' ' :: ending q.graph)) := by
  unfold text ending
  cases q.graph <;> simp

theorem lineUnique {q r : Quad} (formed : q.WellFormed) (whole : r.WellFormed) (lacks : q.Each (Term.Lacks ' '))
    (free : r.Each (Term.Lacks ' ')) (same : q.text = r.text) : q = r := by
  have chars := congrArg String.toList same
  rw [lineText, lineText] at chars
  obtain ⟨subject, rest⟩ := Term.textUnique formed.subject.2 whole.subject.2 lacks.subject free.subject chars
  obtain ⟨predicate, rest⟩ := Term.iriUnique formed.predicate whole.predicate lacks.predicate free.predicate rest
  obtain ⟨object, rest⟩ := Term.textUnique formed.object whole.object lacks.object free.object rest
  have graph := endingUnique rest
  obtain ⟨_, _, _, _⟩ := q
  obtain ⟨_, _, _, _⟩ := r
  cases subject
  cases predicate
  cases object
  cases graph
  rfl

theorem lineLacks {c : Char} (breaks : c ∈ ['\n', '\r']) {q : Quad} (lacks : q.Each (Term.Lacks c)) :
    c ∉ q.text.toList := by
  have subject := Term.textLacks breaks lacks.subject
  have predicate := Term.textLacks breaks lacks.predicate
  have object := Term.textLacks breaks lacks.object
  have graph : c ∉ ending q.graph := by
    have named := lacks.graph
    unfold ending
    split
    · rename_i g same
      have inside : c ∉ g.toList := named g same
      grind
    · grind
  rw [lineText]
  grind

end Quad

end TabularRdf.Rdf

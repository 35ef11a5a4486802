import TabularRdf.Proofs.QuadLines

/-! Literals as texts. The quoted part of the text of a literal ends at the first quotation mark that no backslash
escapes, undoing its escapes gives the value back, and the text as a whole tells the literal. -/
namespace TabularRdf.Rdf.Literal

def meant? : Char → Option Char
  | '\x22' => some '\x22'
  | '\\' => some '\\'
  | 'n' => some '\n'
  | 'r' => some '\r'
  | 't' => some '\t'
  | _ => none

def unescape? : List Char → Option (List Char)
  | [] => some []
  | ['\\'] => none
  | '\\' :: c :: rest => do
    let meant ← meant? c
    let value ← unescape? rest
    return meant :: value
  | c :: rest => (unescape? rest).map (c :: ·)

/- Whether the text escapes what follows it. A backslash does unless it is escaped itself. -/
def escapesNext (cs : List Char) : Bool := cs.foldl (fun escaped c => !escaped && c = '\\') false

structure Quotable (cs : List Char) : Prop where
  inside : ∀ before after, cs = before ++ '\x22' :: after → escapesNext before
  ends : escapesNext cs = false

theorem escapeCases (c : Char) : (∃ sign, escapeChar c = ['\\', sign] ∧ meant? sign = some c) ∨
    escapeChar c = [c] ∧ c ∉ ['\x22', '\\', '\n', '\r', '\t'] := by
  unfold escapeChar
  split_ifs with quote backslash feed carriage tab
  · exact .inl ⟨_, rfl, by rw [quote]; rfl⟩
  · exact .inl ⟨_, rfl, by rw [backslash]; rfl⟩
  · exact .inl ⟨_, rfl, by rw [feed]; rfl⟩
  · exact .inl ⟨_, rfl, by rw [carriage]; rfl⟩
  · exact .inl ⟨_, rfl, by rw [tab]; rfl⟩
  · exact .inr ⟨rfl, by simp [quote, backslash, feed, carriage, tab]⟩

theorem unescapedFirst (c : Char) (rest : List Char) :
    unescape? (escapeChar c ++ rest) = (unescape? rest).map (c :: ·) := by
  rcases escapeCases c with ⟨sign, written, means⟩ | ⟨written, plain⟩
  · rw [written, List.cons_append, List.singleton_append, unescape?, means, Option.map_eq_bind]
    rfl
  · have other : c ≠ '\\' := fun same => plain (by simp [same])
    rw [written, List.singleton_append, unescape?.eq_4 c rest (by simp [other]) (by simp [other])]

theorem valueUnescaped (value : List Char) : unescape? (value.flatMap escapeChar) = some value := by
  induction value with
  | nil => rfl
  | cons c value ih => rw [List.flatMap_cons, unescapedFirst, ih, Option.map_some]

theorem escapedPast (c : Char) (cs : List Char) : escapesNext (escapeChar c ++ cs) = escapesNext cs := by
  rcases escapeCases c with ⟨sign, written, _⟩ | ⟨written, plain⟩
  · simp [escapesNext, written]
  · have other : c ≠ '\\' := fun same => plain (by simp [same])
    simp [escapesNext, written, other]

theorem quoteInside {c : Char} {before after : List Char} (inside : escapeChar c = before ++ '\x22' :: after) :
    before = ['\\'] := by
  rcases escapeCases c with ⟨sign, written, _⟩ | ⟨written, plain⟩
  · rw [written] at inside
    match before with
    | [] => simp at inside
    | [first] =>
      obtain ⟨rfl, -⟩ := List.cons.inj inside
      rfl
    | _ :: _ :: _ => simp at inside
  · rw [written] at inside
    match before with
    | [] => simp_all
    | _ :: _ => simp at inside

theorem valueQuotable (value : List Char) : Quotable (value.flatMap escapeChar) := by
  induction value with
  | nil => exact ⟨by simp, rfl⟩
  | cons c value ih =>
    rw [List.flatMap_cons]
    refine ⟨fun before after same => ?_, (escapedPast c _).trans ih.ends⟩
    rcases List.append_eq_append_iff.mp same with ⟨middle, rfl, later⟩ | ⟨middle, first, later⟩
    · rw [escapedPast]
      exact ih.inside middle after later
    · cases middle with
      | nil =>
        have opens := ih.inside [] after (by simpa using later.symm)
        cases opens
      | cons d middle =>
        obtain ⟨rfl, -⟩ := List.cons.inj later
        rw [quoteInside first]
        rfl

theorem madeExactly {value : String} {datatype language : Option String} {l : Literal} :
    make value datatype language = .ok l ↔ (datatype = none ∨ language = none) ∧ l = ⟨value, datatype, language⟩ := by
  cases datatype <;> cases language <;> simp [make, eq_comm]

theorem textsTell {value other : String} {datatype language type tag : Option String} {l m : Literal}
    (made : make value datatype language = .ok l) (again : make other type tag = .ok m) :
    (l.text = m.text → l = m) ∧
    ∃ quoted, l.text.toList = '\x22' :: (quoted ++ '\x22' :: l.suffix) ∧ Quotable quoted ∧
      unescape? quoted = some value.toList ∧ ∀ c ∈ ['\n', '\r', '\t'], c ∉ quoted := by
  obtain ⟨one, rfl⟩ := madeExactly.mp made
  obtain ⟨only, rfl⟩ := madeExactly.mp again
  constructor
  · intro same
    have written : chars _ = chars _ := String.ofList_injective same
    simp only [chars, List.cons_append, List.cons.injEq, true_and] at written
    obtain ⟨values, suffixes⟩ := valueUnique written
    obtain ⟨types, tags⟩ := suffixUnique (l := ⟨value, datatype, language⟩) (m := ⟨other, type, tag⟩) one only suffixes
    cases String.toList_inj.mp values
    cases types
    cases tags
    rfl
  · refine ⟨value.toList.flatMap escapeChar, ?_, valueQuotable _, valueUnescaped _, fun c raw => ?_⟩
    · rw [text, String.toList_ofList, chars, List.cons_append]
    · exact Term.valueLacks raw value.toList

theorem backslashTold :
    make "C:\\" none (some "en") = .ok (tagged "C:\\" "en") ∧
    make "C:\x22@en" none none = .ok (plain "C:\x22@en") ∧
    (tagged "C:\\" "en").text ≠ (plain "C:\x22@en").text ∧
    ∃ quoted, (tagged "C:\\" "en").text.toList = '\x22' :: (quoted ++ '\x22' :: ['@', 'e', 'n']) ∧ Quotable quoted ∧
      unescape? quoted = some ['C', ':', '\\'] ∧ ∀ c ∈ ['\n', '\r', '\t'], c ∉ quoted := by
  have made : make "C:\\" none (some "en") = .ok (tagged "C:\\" "en") := rfl
  have again : make "C:\x22@en" none none = .ok (plain "C:\x22@en") := rfl
  obtain ⟨told, parts⟩ := textsTell made again
  exact ⟨made, again, fun same => absurd (told same) (by decide), parts⟩

end TabularRdf.Rdf.Literal

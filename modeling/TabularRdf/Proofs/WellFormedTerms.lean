import TabularRdf.Generation.CompiledMap
import TabularRdf.Proofs.EntryForms

/-! Well-formed terms and quads, and the terms that compiled templates build: a template of IRIs builds IRIs,
a template of literals builds literals with at most one of datatype and language. -/
namespace TabularRdf.Rdf

structure Literal.WellFormed (l : Literal) : Prop where
  one : l.datatype = none ∨ l.language = none
  tagged : l.language ≠ some ""

/- A quoted triple has an IRI as subject and as predicate, and an object that is not quoted itself. -/
def Term.WellFormed : Term → Prop
  | .iri _ => True
  | .literal l => l.WellFormed
  | .quoted s p o => s.isIri ∧ p.isIri ∧ o.isQuoted = false ∧ o.WellFormed

def Term.Resource (t : Term) : Prop := (t.isIri ∨ t.isQuoted) ∧ t.WellFormed

structure Quad.WellFormed (q : Quad) : Prop where
  subject : q.subject.Resource
  predicate : q.predicate.isIri
  object : q.object.WellFormed

theorem Term.iriPlain {t : Term} (iri : t.isIri) : t.isQuoted = false ∧ t.WellFormed := by
  cases t with
  | iri name => exact ⟨rfl, trivial⟩
  | _ => contradiction

theorem Term.iriResource {t : Term} (iri : t.isIri) : t.Resource := ⟨.inl iri, (iriPlain iri).2⟩

theorem Term.plainFormed (value : String) : (Term.plain value).WellFormed := ⟨.inl rfl, by simp [Literal.plain]⟩

theorem Quad.quotable {q : Quad} (formed : q.WellFormed) (plain : q.hasQuoted = false) :
    q.quote = .ok (.quoted q.subject q.predicate q.object) := by
  simp only [hasQuoted, Bool.or_eq_false_iff] at plain
  have subject : q.subject.isIri := by
    rcases formed.subject.1 with iri | quoted
    · exact iri
    · rw [plain.1] at quoted
      contradiction
  exact Term.quotedExactly.mpr ⟨subject, formed.predicate, plain.2, rfl⟩

theorem Quad.quotedResource {q : Quad} {t : Term} (formed : q.WellFormed) (made : q.quote = .ok t) :
    t.isQuoted ∧ t.WellFormed := by
  obtain ⟨subject, predicate, plain, rfl⟩ := Term.quotedExactly.mp made
  exact ⟨rfl, subject, predicate, plain, formed.object⟩

end TabularRdf.Rdf

namespace TabularRdf.Generation
open Iri Mapping Rdf Loading

def Shape.Iris : Shape → Prop
  | .constant term => term.isIri
  | .wholeValue _ | .headed _ _ | .filled _ => True
  | .literal _ _ _ => False

def Shape.Plain : Shape → Prop
  | .constant term => term.isQuoted = false ∧ term.WellFormed
  | _ => True

theorem literalMade {value : String} {datatype language : Option String} {l : Literal}
    (made : makeLiteral value datatype language = .ok l) : l.WellFormed := by
  unfold makeLiteral at made
  split at made
  · contradiction
  · rename_i tagged
    cases datatype <;> cases language <;> cases made
    · exact ⟨.inl rfl, tagged⟩
    · exact ⟨.inl rfl, tagged⟩
    · exact ⟨.inr rfl, tagged⟩

theorem templateOk {α : Type} {template : Template} {result : Except TermFailure α} {a : α}
    (given : inTemplate template result = .ok a) : result = .ok a := by
  cases result <;> cases given
  rfl

theorem shapePlain {s : Shape} (iris : s.Iris) : s.Plain := by
  cases s with
  | constant term => exact Term.iriPlain iris
  | literal => contradiction
  | _ => trivial

namespace CompiledTerm

variable {resolver : Resolver}

theorem iriShape {template : Template} {t : CompiledTerm} (compiled : iri template resolver = .ok t) :
    t.shape.Iris := by
  unfold iri at compiled
  split at compiled
  · obtain ⟨_, _, same⟩ := boundOk.mp compiled
    cases pureOk.mp same
    exact rfl
  · split at compiled
    · cases pureOk.mp compiled
      trivial
    · cases pureOk.mp compiled
      trivial
    · cases pureOk.mp compiled
      trivial

theorem literalShape {template : Template} {datatype language : Option Template} {t : CompiledTerm}
    (compiled : literal template datatype language resolver = .ok t) : t.shape.Plain := by
  simp only [literal, boundOk] at compiled
  obtain ⟨⟨datatype, columns⟩, _, compiled⟩ := compiled
  dsimp only at compiled
  split at compiled
  · obtain ⟨l, made, same⟩ := boundOk.mp compiled
    cases pureOk.mp same
    exact ⟨rfl, literalMade (templateOk made)⟩
  · cases pureOk.mp compiled
    trivial

theorem objectShape {term : ObjectTerm} {t : CompiledTerm} (compiled : object term resolver = .ok t) :
    t.shape.Plain := by
  unfold object at compiled
  split at compiled
  · exact shapePlain (iriShape compiled)
  · exact literalShape compiled

theorem builtIri {t : CompiledTerm} {cells : List Cell} {term : Term} (iris : t.shape.Iris)
    (built : t.build resolver cells = .ok term) : term.isIri := by
  simp only [build] at built
  split at built
  · rename_i shape
    cases Except.ok.inj built
    rw [shape] at iris
    exact iris
  · simp only [boundOk, pureOk] at built
    obtain ⟨_, _, _, _, rfl⟩ := built
    rfl
  · simp only [boundOk, pureOk] at built
    obtain ⟨_, _, rfl⟩ := built
    rfl
  · simp only [boundOk, pureOk] at built
    obtain ⟨_, _, _, _, rfl⟩ := built
    rfl
  · rename_i shape
    rw [shape] at iris
    contradiction

theorem builtPlain {t : CompiledTerm} {cells : List Cell} {term : Term} (plain : t.shape.Plain)
    (built : t.build resolver cells = .ok term) : term.isQuoted = false ∧ term.WellFormed := by
  simp only [build] at built
  split at built
  · rename_i shape
    cases Except.ok.inj built
    rw [shape] at plain
    exact plain
  · simp only [boundOk, pureOk] at built
    obtain ⟨_, _, _, _, rfl⟩ := built
    exact Term.iriPlain rfl
  · simp only [boundOk, pureOk] at built
    obtain ⟨_, _, rfl⟩ := built
    exact Term.iriPlain rfl
  · simp only [boundOk, pureOk] at built
    obtain ⟨_, _, _, _, rfl⟩ := built
    exact Term.iriPlain rfl
  · simp only [boundOk, pureOk] at built
    obtain ⟨_, _, _, _, _, _, l, made, rfl⟩ := built
    exact ⟨rfl, literalMade made⟩

end CompiledTerm

end TabularRdf.Generation

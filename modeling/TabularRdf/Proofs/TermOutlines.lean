import TabularRdf.Generation.Generate
import TabularRdf.Proofs.Loading

/-! Terms without their IRIs. The outline of a term keeps its kind and its literals; how column values are
encoded in IRIs has no say in it, nor in whether a term can be built and what is reported when it cannot. -/
namespace TabularRdf.Rdf

def Term.outline : Term → Term
  | .iri _ => .iri ""
  | .literal value => .literal value
  | .quoted s p o => .quoted s.outline p.outline o.outline

def graphOutline (graph : Option String) : Option String := graph.map fun _ => ""

def Quad.outline (q : Quad) : Quad :=
  ⟨q.subject.outline, q.predicate.outline, q.object.outline, graphOutline q.graph⟩

theorem outlineQuoted (t : Term) : t.outline.isQuoted = t.isQuoted := by cases t <;> rfl

theorem outlineHasQuoted (q : Quad) : q.outline.hasQuoted = q.hasQuoted := by
  simp only [Quad.hasQuoted, Quad.outline, outlineQuoted]

theorem outlineQuote (q : Quad) : q.outline.quote.toOption = q.quote.toOption.map Term.outline := by
  obtain ⟨s, p, o, graph⟩ := q
  cases s <;> cases p <;> cases o <;> rfl

end TabularRdf.Rdf

namespace TabularRdf.Iri

theorem escapedFilled (c : Char) : escapeChar c ≠ [] := by
  unfold escapeChar
  split
  · simp
  · have bytes : (String.utf8EncodeChar c).length ≠ 0 := by
      rw [String.length_utf8EncodeChar]
      exact Nat.pos_iff_ne_zero.mp (Char.utf8Size_pos c)
    cases encoded : String.utf8EncodeChar c with
    | nil => simp [encoded] at bytes
    | cons b rest => simp [escapeByte]

theorem encodedEmpty (e : Encoding) (value : String) : (e.encode value).isEmpty = value.isEmpty := by
  have chars (text : String) : text.isEmpty = text.toList.isEmpty := by
    rw [Bool.eq_iff_iff, List.isEmpty_iff, String.isEmpty_iff, String.toList_eq_nil_iff]
  rw [chars, chars, Encoding.encode, String.toList_ofList]
  cases value.toList with
  | nil => cases e <;> rfl
  | cons c rest =>
    cases e with
    | percent => simp [Encoding.encodeChars, escapedFilled]
    | underscore | verbatim => rfl

end TabularRdf.Iri

namespace TabularRdf.Generation
open Iri Mapping Rdf Loading

theorem viewedBound {α β γ δ ε : Type} {x y : Except ε α} {f g : α → Except ε β} {view : α → γ} {look : β → δ}
    (same : x.map view = y.map view) (next : ∀ a b, view a = view b → (f a).map look = (g b).map look) :
    (x >>= f).map look = (y >>= g).map look := by
  cases x <;> cases y <;> simp only [Except.map, Except.error.injEq, Except.ok.injEq, reduceCtorEq] at same
  · rw [same]
    rfl
  · exact next _ _ same

theorem sameViewed {α β δ ε : Type} {x : Except ε α} {f g : α → Except ε β} {look : β → δ}
    (next : ∀ a, (f a).map look = (g a).map look) : (x >>= f).map look = (x >>= g).map look := by
  cases x with
  | error => rfl
  | ok a => exact next a

theorem renderedAlike {encode recode : String → String}
    (empty : ∀ value, (encode value).isEmpty = (recode value).isEmpty) (columns : List String) (cells : List Cell)
    (pattern : Pattern) : (Pattern.render columns cells encode pattern).map String.isEmpty =
      (Pattern.render columns cells recode pattern).map String.isEmpty := by
  have appended (a b : String) : (a ++ b).isEmpty = (a.isEmpty && b.isEmpty) := by
    rw [Bool.eq_iff_iff]
    simp
  induction pattern with
  | nil => rfl
  | cons piece rest ih =>
    cases piece with
    | text t =>
      refine viewedBound ih fun a b same => congrArg Except.ok ?_
      rw [appended, appended, same]
    | slot slot =>
      refine sameViewed fun text => viewedBound ih fun a b same => congrArg Except.ok ?_
      rw [appended, appended, same, empty]

variable (resolver : Resolver) (encoding : Encoding)

theorem expandedAlike {a b : String} (same : a.isEmpty = b.isEmpty) :
    (resolver.expand a).map (fun _ => ()) = (resolver.expand b).map fun _ => () := by
  unfold Resolver.expand
  rw [same]
  split <;> rfl

theorem referenceAlike (value : String) : (resolver.resolveReference value).map (fun _ => ()) =
    (Resolver.resolveReference { resolver with encoding } value).map fun _ => () := by
  unfold Resolver.resolveReference
  split
  · rfl
  · rw [show Resolver.isNameOrAbsolute { resolver with encoding } value = resolver.isNameOrAbsolute value from rfl]
    split <;> rfl

theorem builtAlike (t : CompiledTerm) (cells : List Cell) :
    (t.build resolver cells).map Term.outline = (t.build { resolver with encoding } cells).map Term.outline := by
  obtain ⟨shape, columns⟩ := t
  have empty (value : String) : (resolver.encoding.encode value).isEmpty = (encoding.encode value).isEmpty := by
    rw [encodedEmpty, encodedEmpty]
  cases shape with
  | constant | literal => rfl
  | wholeValue slot =>
    exact sameViewed fun value => viewedBound (referenceAlike resolver encoding value) fun _ _ _ => rfl
  | headed head rest => exact viewedBound (renderedAlike empty columns cells rest) fun _ _ _ => rfl
  | filled pattern =>
    refine viewedBound (renderedAlike empty columns cells pattern) fun a b same => ?_
    exact viewedBound (expandedAlike resolver same) fun _ _ _ => rfl

end TabularRdf.Generation

import TabularRdf.Proofs.CallGrammar
import Mathlib.Data.String.Basic

/-! Calls read by byte offsets. The reader searches for signs, remembers where they stand, and takes slices of the
text between them. No slice ends inside a character or behind the text, and the calls are those of the reader that
goes character by character. A count that leaves 32 bits halts the reading or wraps, whichever is chosen. -/
namespace TabularRdf.Mapping.InlineCall

inductive Halt where
  | noCall
  | badSlice (text : String) (start stop : Nat)
  | overflow
  deriving DecidableEq, Repr

inductive Excess where
  | halts
  | wraps
  deriving DecidableEq, Repr

def slice (text : String) (start stop : Nat) : Except Halt String :=
  if start ≤ stop ∧ String.Pos.Raw.isValid text ⟨start⟩ ∧ String.Pos.Raw.isValid text ⟨stop⟩ then
    .ok (String.Pos.Raw.extract text ⟨start⟩ ⟨stop⟩)
  else .error (.badSlice text start stop)

example : slice "é=1" 1 2 = .error (.badSlice "é=1" 1 2) := by decide +kernel

def indices : Nat → List Char → List (Nat × Char)
  | _, [] => []
  | offset, c :: rest => (offset, c) :: indices (offset + c.utf8Size) rest

def trimmed (text : String) : String := String.ofList (Text.trim text.toList)

def findByte? (sign : Char) (text : String) : Option Nat :=
  ((indices 0 text.toList).find? fun (_, c) => c == sign).map Prod.fst

def counted (excess : Excess) (exact : Int) (wrapped : Int32) : Except Halt Int32 :=
  if excess = .halts ∧ wrapped.toInt ≠ exact then .error .overflow else .ok wrapped

def findTop? (excess : Excess) (needle : Char) : Int32 → List (Nat × Char) → Except Halt (Option Nat)
  | _, [] => .ok none
  | depth, (offset, c) :: rest =>
    if c = '(' then do
      let depth ← counted excess (depth.toInt + 1) (depth + 1)
      findTop? excess needle depth rest
    else if c = ')' then do
      let depth ← counted excess (depth.toInt - 1) (depth - 1)
      findTop? excess needle depth rest
    else if c = needle ∧ depth = 0 then .ok (some offset)
    else findTop? excess needle depth rest

def slices (excess : Excess) (text : String) (separator : Char) (start : Nat) :
    Int32 → List (Nat × Char) → Except Halt (List String)
  | depth, [] => if depth ≠ 0 then .error .noCall else return [← slice text start text.utf8ByteSize]
  | depth, (offset, c) :: rest =>
    if c = '(' then do
      let depth ← counted excess (depth.toInt + 1) (depth + 1)
      slices excess text separator start depth rest
    else if c = ')' then do
      let depth ← counted excess (depth.toInt - 1) (depth - 1)
      if depth < 0 then .error .noCall else slices excess text separator start depth rest
    else if c = separator ∧ depth = 0 then do
      let piece ← slice text start offset
      let later ← slices excess text separator (offset + c.utf8Size) depth rest
      return piece :: later
    else slices excess text separator start depth rest

def argumentSliced (excess : Excess) (raw : String) : Except Halt (Option (Option String × String)) := do
  let raw := trimmed raw
  if raw = "" then return none
  match ← findTop? excess '=' 0 (indices 0 raw.toList) with
  | some sign =>
    let key ← slice raw 0 sign
    let value ← slice raw (sign + 1) raw.utf8ByteSize
    return some (some (trimmed key), trimmed value)
  | none => return some (none, raw)

def callSliced (excess : Excess) (name text : String) (sign : Nat) : Except Halt InlineCall := do
  let inner ← slice text (sign + 1) (text.utf8ByteSize - 1)
  let pieces ← slices excess inner ',' 0 0 (indices 0 inner.toList)
  let arguments ← pieces.mapM (argumentSliced excess)
  return ⟨name, arguments.filterMap id⟩

def parseSliced (excess : Excess) (text : String) : Except Halt InlineCall := do
  let text := trimmed text
  match findByte? '(' text with
  | none => .error .noCall
  | some sign =>
    let name := trimmed (← slice text 0 sign)
    if name = "" ∨ text.toList.getLast? ≠ some ')' then .error .noCall else callSliced excess name text sign

def told {α : Type} : Option α → Except Halt α
  | none => .error .noCall
  | some a => .ok a

section

variable {text : String} {before piece after : List Char}

theorem validBetween (whole : text.toList = before ++ after) :
    String.Pos.Raw.isValid text ⟨String.utf8Len before⟩ := by
  rw [String.Pos.Raw.isValid_eq_true_iff, String.Pos.Raw.isValid_iff_exists_append]
  refine ⟨String.ofList before, String.ofList after, ?_, ?_⟩
  · rw [← String.ofList_append, ← whole, String.ofList_toList]
  · exact String.Pos.Raw.ext (String.utf8ByteSize_ofList before).symm

theorem sliced (whole : text.toList = before ++ piece ++ after) :
    slice text (String.utf8Len before) (String.utf8Len before + String.utf8Len piece) = .ok (String.ofList piece) := by
  have starts := validBetween (whole.trans (List.append_assoc before piece after))
  have stops := validBetween whole
  rw [String.utf8Len_append] at stops
  rw [slice, if_pos ⟨Nat.le_add_right _ _, starts, stops⟩, ← String.ofList_toList (s := text), whole,
    String.extract_of_valid]

theorem size (whole : text.toList = before) : text.utf8ByteSize = String.utf8Len before := by
  rw [← String.utf8ByteSize_ofList, ← whole, String.ofList_toList]

theorem slicedHead (whole : text.toList = before ++ after) :
    slice text 0 (String.utf8Len before) = .ok (String.ofList before) := by
  have head : text.toList = [] ++ before ++ after := whole
  have taken := sliced head
  rwa [String.utf8Len_nil, Nat.zero_add] at taken

theorem slicedTail (whole : text.toList = before ++ after) :
    slice text (String.utf8Len before) text.utf8ByteSize = .ok (String.ofList after) := by
  rw [size whole, String.utf8Len_append]
  exact sliced (whole.trans (List.append_nil _).symm)

end

def signByte (offset : Nat) (parts : Option (List Char × List Char)) : Option Nat :=
  parts.map fun (before, _) => offset + String.utf8Len before

theorem signBehind (offset : Nat) (c : Char) (parts : Option (List Char × List Char)) :
    signByte offset (parts.map fun (before, after) => (c :: before, after)) =
      signByte (offset + c.utf8Size) parts := by
  cases parts with
  | none => rfl
  | some parts =>
    simp only [signByte, Option.map_some, String.utf8Len_cons]
    congr 1
    omega

theorem firstFound (sign : Char) (offset : Nat) (cs : List Char) :
    ((indices offset cs).find? fun (_, c) => c == sign).map Prod.fst =
      signByte offset (Text.splitFirst? sign cs) := by
  induction cs generalizing offset with
  | nil => rfl
  | cons c cs ih =>
    rw [indices, Text.splitFirst?]
    by_cases here : c = sign
    · simp [here, signByte]
    · rw [List.find?_cons_of_neg (by simpa using here), ih, if_neg here, signBehind]

/- The same result; or a count that left its range, where it may. -/
def Follows {α : Type} (safe : Prop) (given expected : Except Halt α) : Prop :=
  given = expected ∨ ¬ safe ∧ given = .error .overflow

section

variable {α β : Type} {safe : Prop} {given expected : Except Halt α}

theorem followsBind {f g : α → Except Halt β} (first : Follows safe given expected)
    (later : ∀ a, expected = .ok a → Follows safe (f a) (g a)) : Follows safe (given >>= f) (expected >>= g) := by
  rcases first with rfl | ⟨loose, rfl⟩
  · cases given with
    | error halt => exact .inl rfl
    | ok a => exact later a rfl
  · exact .inr ⟨loose, rfl⟩

theorem followsAfter {a : α} {f : α → Except Halt β} {result : Except Halt β} (first : Follows safe given (.ok a))
    (later : Follows safe (f a) result) : Follows safe (given >>= f) result :=
  followsBind (g := fun _ => result) first fun b same => by
    cases same
    exact later

theorem followsCount {excess : Excess} {exact : Int} {wrapped : Int32} {f : Int32 → Except Halt α}
    (fits : safe → excess = .wraps ∨ wrapped.toInt = exact) (later : Follows safe (f wrapped) expected) :
    Follows safe (counted excess exact wrapped >>= f) expected := by
  rw [counted]
  split
  · rename_i beyond
    refine .inr ⟨fun given => ?_, rfl⟩
    rcases fits given with wraps | same
    · rw [wraps] at beyond
      cases beyond.1
    · exact beyond.2 same
  · exact later

theorem followsWhere {other : Prop} (imply : other → safe) (first : Follows safe given expected) :
    Follows other given expected :=
  first.imp_right fun ⟨loose, beyond⟩ => ⟨fun given => loose (imply given), beyond⟩

end

section

variable {excess : Excess} {needle : Char} (opens : needle ≠ '(') (closes : needle ≠ ')')
include opens closes

theorem topStep (count : Int32) (offset : Nat) (c : Char) (rest : List (Nat × Char)) :
    findTop? excess needle count ((offset, c) :: rest) =
      if c = needle ∧ count = 0 then .ok (some offset)
      else counted excess (count.toInt + depth [c]) (countOn c count) >>= fun count =>
        findTop? excess needle count rest := by
  rw [findTop?, depthOne, countOn]
  by_cases opening : c = '('
  · rw [if_pos opening, if_pos opening, if_pos opening, if_neg fun here => opens (here.1.symm.trans opening)]
  · by_cases closing : c = ')'
    · rw [if_neg opening, if_neg opening, if_neg opening, if_pos closing, if_pos closing, if_pos closing,
        if_neg fun here => closes (here.1.symm.trans closing)]
      rfl
    · have kept : counted excess count.toInt count = .ok count := if_neg fun beyond => beyond.2 rfl
      rw [if_neg opening, if_neg opening, if_neg opening, if_neg closing, if_neg closing, if_neg closing, Int.add_zero,
        kept]
      rfl

theorem topFound (count : Int32) (offset : Nat) (cs : List Char) :
    Follows (excess = .wraps ∨ Counted count.toInt cs) (findTop? excess needle count (indices offset cs))
      (.ok (signByte offset (cutTop? needle count cs))) := by
  induction cs generalizing count offset with
  | nil => exact .inl rfl
  | cons c cs ih =>
    rw [indices, topStep opens closes, cutStep opens closes]
    split
    · exact .inl rfl
    · rw [signBehind]
      exact followsCount (·.imp_right countedKept) (followsWhere (·.imp_right countedOnward) (ih _ _))

end

theorem toldWhole {α : Type} (given : Option α) (part : String) (start stop : Nat) :
    told given ≠ .error (.badSlice part start stop) := by
  cases given <;> exact nofun

/-- How far the loop beyond the pieces has come: `done` ends with the last separator that divides, and `piece` has been
read since then. -/
structure Reached (text : String) (start offset : Nat) (done piece rest : List Char) : Prop where
  whole : text.toList = done ++ piece ++ rest
  starts : start = String.utf8Len done
  stands : offset = start + String.utf8Len piece

section

variable {text : String} {start offset : Nat} {done piece rest : List Char} {c : Char}

theorem Reached.ended (reached : Reached text start offset done piece rest) :
    slice text start offset = .ok (String.ofList piece) := by
  rw [reached.stands, reached.starts]
  exact sliced reached.whole

theorem Reached.last (reached : Reached text start offset done piece []) :
    slice text start text.utf8ByteSize = .ok (String.ofList piece) := by
  have whole : text.toList = done ++ piece := reached.whole.trans (List.append_nil _)
  rw [reached.starts]
  exact slicedTail whole

theorem Reached.kept (reached : Reached text start offset done piece (c :: rest)) :
    Reached text start (offset + c.utf8Size) done (piece ++ [c]) rest where
  whole := by simpa using reached.whole
  starts := reached.starts
  stands := by simp [reached.stands, Nat.add_assoc]

theorem Reached.divided (reached : Reached text start offset done piece (c :: rest)) :
    Reached text (offset + c.utf8Size) (offset + c.utf8Size) (done ++ piece ++ [c]) [] rest where
  whole := by simpa using reached.whole
  starts := by simp [reached.stands, reached.starts, Nat.add_assoc]
  stands := rfl

end

theorem firstWhole (piece : List Char) (pieces : List (List Char)) :
    piece.foldr consFirst ([] :: pieces) = piece :: pieces := by
  rw [firstExtended, List.append_nil]

theorem toldBehind (piece : List Char) (parts : Option (List (List Char))) :
    told ((parts.map ([] :: ·)).map fun pieces => (piece.foldr consFirst pieces).map String.ofList) =
      told (parts.map fun pieces => pieces.map String.ofList) >>= fun pieces =>
        return String.ofList piece :: pieces := by
  cases parts with
  | none => rfl
  | some pieces =>
    simp only [Option.map_some, firstWhole]
    rfl

theorem slicesRead {excess : Excess} {separator : Char} (opens : separator ≠ '(') (closes : separator ≠ ')')
    {text : String} {start offset : Nat} (count : Int32) {done piece rest : List Char}
    (reached : Reached text start offset done piece rest) :
    Follows (excess = .wraps ∨ 0 ≤ count.toInt ∧ Below count.toInt rest)
      (slices excess text separator start count (indices offset rest))
      (told ((splitTop separator count rest).map fun pieces => (piece.foldr consFirst pieces).map String.ofList)) := by
  induction rest generalizing start offset done piece count with
  | nil =>
    rw [indices, slices, splitTop]
    split
    · exact .inl rfl
    · rw [reached.last, Option.map_some, firstWhole]
      exact .inl rfl
  | cons c rest ih =>
    -- All characters but a separator outside parentheses go into the open piece.
    have further (count : Int32) : Follows (excess = .wraps ∨ 0 ≤ count.toInt ∧ Below count.toInt rest)
        (slices excess text separator start count (indices (offset + c.utf8Size) rest))
        (told (((splitTop separator count rest).map (consFirst c)).map fun pieces =>
          (piece.foldr consFirst pieces).map String.ofList)) := by
      have later := ih count reached.kept
      simp only [List.foldr_append, List.foldr_cons, List.foldr_nil] at later
      rwa [Option.map_map]
    rw [indices, slices]
    by_cases opening : c = '('
    · subst opening
      rw [if_pos rfl, splitOpening]
      refine followsCount (·.imp_right fun within => (belowOpened within.2).1)
        (followsWhere (·.imp_right fun within => ?_) (further (count + 1)))
      obtain ⟨next, later⟩ := belowOpened within.2
      exact ⟨by omega, later⟩
    · by_cases closing : c = ')'
      · subst closing
        rw [if_neg opening, if_pos rfl, splitTop, if_neg opening, if_pos rfl]
        refine followsCount (·.imp_right fun within => (belowClosed within.1 within.2).1) ?_
        split
        · exact .inl rfl
        · rename_i kept
          rw [belowZero, Int.not_lt] at kept
          exact followsWhere (·.imp_right fun within => ⟨kept, (belowClosed within.1 within.2).2⟩)
            (further (count - 1))
      · rw [if_neg opening, if_neg closing]
        by_cases here : c = separator ∧ count = 0
        · obtain ⟨rfl, rfl⟩ := here
          rw [if_pos ⟨rfl, rfl⟩, splitHere opens closes, reached.ended, toldBehind]
          exact followsBind (followsWhere (·.imp_right fun within => ⟨within.1, belowOther opening closing within.2⟩)
            (ih 0 reached.divided)) fun _ _ => .inl rfl
        · rw [if_neg here, splitOther opening closing here]
          exact followsWhere (·.imp_right fun within => ⟨within.1, belowOther opening closing within.2⟩) (further count)

theorem argumentSlices {excess : Excess} (raw : List Char) :
    Follows (excess = .wraps ∨ Counted 0 (Text.trim raw)) (argumentSliced excess (String.ofList raw))
      (.ok (argumentOf raw)) := by
  rw [argumentSliced, argumentOf, trimmed, String.toList_ofList]
  generalize Text.trim raw = cs
  by_cases blank : cs = []
  · subst blank
    exact .inl rfl
  · have filled : String.ofList cs ≠ "" := by simpa using blank
    rw [if_neg filled, if_neg (by simpa using blank), String.toList_ofList]
    refine followsAfter (topFound (by decide) (by decide) 0 0 cs) (.inl ?_)
    cases found : cutTop? '=' 0 cs with
    | none => rfl
    | some parts =>
      obtain ⟨key, value⟩ := parts
      have text : (String.ofList cs).toList = key ++ '=' :: value := by rw [String.toList_ofList, cutWhole (by decide) (by decide) found]
      have behind : (String.ofList cs).toList = key ++ ['='] ++ value := by rw [text, List.append_cons]
      have head := slicedHead text
      have tail := slicedTail behind
      have sign : String.utf8Len ['='] = 1 := by decide
      rw [String.utf8Len_append, sign] at tail
      simp only [signByte, Option.map_some, Nat.zero_add, head, tail, bind, Except.bind, trimmed, String.toList_ofList]
      rfl

theorem argumentsSliced {excess : Excess} (pieces : List (List Char)) :
    Follows (excess = .wraps ∨ ∀ piece ∈ pieces, Counted 0 (Text.trim piece))
      ((pieces.map String.ofList).mapM (argumentSliced excess)) (.ok (pieces.map argumentOf)) := by
  induction pieces with
  | nil => exact .inl rfl
  | cons piece rest ih =>
    rw [List.map_cons, List.mapM_cons, List.forall_mem_cons]
    exact followsAfter (followsWhere (·.imp_right And.left) (argumentSlices piece))
      (followsAfter (followsWhere (·.imp_right And.right) ih) (.inl rfl))

theorem callSlices (excess : Excess) (name : String) {text : String} {before inner : List Char}
    (whole : text.toList = before ++ '(' :: (inner ++ [')'])) :
    Follows (excess = .wraps ∨ Shallow inner) (callSliced excess name text (String.utf8Len before))
      (told ((splitTop ',' 0 inner).map fun pieces => ⟨name, pieces.filterMap argumentOf⟩)) := by
  have around : text.toList = before ++ ['('] ++ inner ++ [')'] := by simpa using whole
  have opened : String.utf8Len ['('] = 1 := by decide
  have closed : String.utf8Len [')'] = 1 := by decide
  have start : String.utf8Len (before ++ ['(']) = String.utf8Len before + 1 := by
    rw [String.utf8Len_append, opened]
  have stop : text.utf8ByteSize - 1 = String.utf8Len before + 1 + String.utf8Len inner := by
    rw [size around, String.utf8Len_append, String.utf8Len_append, start, closed, Nat.add_sub_cancel]
  have slot := sliced around
  rw [start, ← stop] at slot
  have begun : Reached (String.ofList inner) 0 0 [] [] inner := ⟨String.toList_ofList, rfl, rfl⟩
  have split : Follows (excess = .wraps ∨ Shallow inner) (slices excess (String.ofList inner) ',' 0 0 (indices 0 inner))
      (told ((splitTop ',' 0 inner).map fun pieces => pieces.map String.ofList)) :=
    followsWhere (·.imp_right fun shallow => ⟨le_refl _, shallowBelow shallow⟩)
      (slicesRead (by decide) (by decide) 0 begun)
  rw [callSliced, slot]
  refine followsAfter (.inl rfl) ?_
  rw [String.toList_ofList]
  cases found : splitTop ',' 0 inner with
  | none =>
    rw [found] at split
    exact followsBind (g := fun _ => .error .noCall) split nofun
  | some pieces =>
    rw [found] at split
    refine followsAfter split (followsAfter (followsWhere (·.imp_right fun shallow => ?_) (argumentsSliced pieces)) ?_)
    · exact piecesCounted shallow ((splitDivided shallow).mp found)
    · rw [List.filterMap_map]
      exact .inl rfl

theorem lastClosed {before rest : List Char} :
    (before ++ '(' :: rest).getLast? = some ')' ↔ ∃ inner, Text.dropTail? [')'] rest = some inner := by
  simp only [Text.dropTailExactly]
  rcases List.eq_nil_or_concat rest with rfl | ⟨inner, c, rfl⟩
  · simp
  · rw [List.concat_eq_append, ← List.cons_append, ← List.append_assoc, List.getLast?_concat, Option.some.injEq]
    simp

theorem parseSlices (excess : Excess) (text : String) :
    Follows (excess = .wraps ∨ Shallow text.toList) (parseSliced excess text) (told (parse text)) := by
  rw [parseSliced, parse, trimmed, findByte?, String.toList_ofList, firstFound]
  generalize within : Text.trim text.toList = cs
  cases divided : Text.splitFirst? '(' cs with
  | none => exact .inl rfl
  | some parts =>
    obtain ⟨name, rest⟩ := parts
    obtain ⟨rfl, _⟩ := Text.splitFirstWhole divided
    have head := slicedHead (String.toList_ofList (l := name ++ '(' :: rest))
    have named : trimmed (String.ofList name) = String.ofList (Text.trim name) := by
      rw [trimmed, String.toList_ofList]
    simp only [signByte, Option.map_some, Nat.zero_add, head, bind, Except.bind, Option.bind]
    rw [named]
    by_cases blank : Text.trim name = []
    · rw [if_pos (Or.inl (by simpa using blank)), if_pos (by simpa using blank)]
      exact .inl rfl
    · have filled : String.ofList (Text.trim name) ≠ "" := by simpa using blank
      have kept : ¬ (Text.trim name).isEmpty := by simpa using blank
      rw [if_neg kept]
      cases ended : Text.dropTail? [')'] rest with
      | none =>
        have unclosed : (name ++ '(' :: rest).getLast? ≠ some ')' := by
          rw [ne_eq, lastClosed, ended]
          simp
        rw [if_pos (Or.inr unclosed)]
        exact .inl rfl
      | some inner =>
        have closed : (name ++ '(' :: rest).getLast? = some ')' := lastClosed.mpr ⟨inner, ended⟩
        rw [if_neg fun either => either.elim filled (· closed)]
        obtain rfl := Text.dropTailExactly.mp ended
        have calls := callSlices excess (String.ofList (Text.trim name))
          (String.toList_ofList (l := name ++ '(' :: (inner ++ [')'])))
        rw [Option.map_eq_bind] at calls
        exact followsWhere (·.imp_right fun shallow => innerShallow shallow within) calls

theorem callsFollowGrammar (text : String) :
    (Shallow text.toList →
      ((∃ call, parse text = some call) ↔ ∃ name inner, Written (Text.trim text.toList) name inner) ∧
        ∀ call, parse text = some call ↔ Spells (Text.trim text.toList) call) ∧
      (∀ excess, excess = .wraps ∨ Shallow text.toList → parseSliced excess text = told (parse text)) ∧
      ∀ excess part start stop, parseSliced excess text ≠ .error (.badSlice part start stop) := by
  refine ⟨fun shallow => ⟨parseSome shallow, fun call => parseSpells shallow⟩, fun excess safe => ?_,
    fun excess part start stop => ?_⟩
  · exact (parseSlices excess text).resolve_right fun beyond => beyond.1 safe
  · rcases parseSlices excess text with same | ⟨-, beyond⟩
    · rw [same]
      exact toldWhole (parse text) part start stop
    · rw [beyond]
      exact nofun

def joinLine : String := " join(quoted=dataset, equal(a, b=$(é)), , 名=(=)) "

def lineRead : InlineCall := ⟨"join", [(some "quoted", "dataset"), (none, "equal(a, b=$(é))"), (some "名", "(=)")]⟩

theorem joinSpelled : Shallow joinLine.toList ∧ Spells (Text.trim joinLine.toList) lineRead ∧
    parseSliced .halts joinLine = .ok lineRead := by
  have shallow : Shallow joinLine.toList := shallowFew (by decide +kernel)
  have read : parse joinLine = some lineRead := by decide +kernel
  obtain ⟨grammar, bytes, _⟩ := callsFollowGrammar joinLine
  have sliced := bytes .halts (.inr shallow)
  rw [read] at sliced
  exact ⟨shallow, ((grammar shallow).2 lineRead).mp read, sliced⟩

end TabularRdf.Mapping.InlineCall

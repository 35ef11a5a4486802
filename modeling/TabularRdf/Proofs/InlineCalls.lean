import Mathlib.Algebra.Ring.Int.Defs
import TabularRdf.Mapping.InlineCall
import TabularRdf.Proofs.TemplateGrammar

/-! Texts in which parentheses match, and how a call that is written with them is read back. A separator inside
parentheses divides nothing. -/
namespace TabularRdf.Mapping.InlineCall

inductive Nested : Nat → (Char → Prop) → List Char → Prop where
  | nil {bound : Nat} {plain : Char → Prop} : Nested bound plain []
  | char {bound : Nat} {plain : Char → Prop} {c : Char} {rest : List Char} (here : plain c) (opens : c ≠ '(')
      (closes : c ≠ ')') (later : Nested bound plain rest) : Nested bound plain (c :: rest)
  | group {bound : Nat} {plain : Char → Prop} {inside rest : List Char} (within : Nested bound (fun _ => True) inside)
      (later : Nested (bound + 1) plain rest) : Nested (bound + 1) plain ('(' :: (inside ++ ')' :: rest))

variable {bound : Nat} {plain : Char → Prop} {cs : List Char}

theorem nestedPlain (each : ∀ c ∈ cs, plain c ∧ c ≠ '(' ∧ c ≠ ')') : Nested bound plain cs := by
  induction cs with
  | nil => exact .nil
  | cons c rest ih =>
    obtain ⟨⟨here, opens, closes⟩, later⟩ := List.forall_mem_cons.mp each
    exact .char here opens closes (ih later)

theorem nestedAppend {rest : List Char} (first : Nested bound plain cs) (second : Nested bound plain rest) :
    Nested bound plain (cs ++ rest) := by
  induction first with
  | nil => exact second
  | char here opens closes _ ih => exact .char here opens closes (ih second)
  | group within _ _ ih =>
    rw [List.cons_append, List.append_assoc, List.cons_append]
    exact .group within (ih second)

section

variable {depth : Int32}

theorem raised (room : depth.toInt + 1 < 2 ^ 31) : (depth + 1).toInt = depth.toInt + 1 := by
  have low := depth.le_toInt
  have one : (1 : Int32).toInt = 1 := rfl
  rw [Int32.toInt_add, one]
  exact Int.bmod_eq_of_le (by omega) (by omega)

theorem lowered (room : -2 ^ 31 ≤ depth.toInt - 1) : (depth - 1).toInt = depth.toInt - 1 := by
  have high := depth.toInt_lt
  have one : (1 : Int32).toInt = 1 := rfl
  rw [Int32.toInt_sub, one]
  exact Int.bmod_eq_of_le (by omega) (by omega)

theorem outsideZero : depth = 0 ↔ depth.toInt = 0 := by rw [← Int32.toInt_inj, Int32.toInt_zero]

theorem belowZero : depth < 0 ↔ depth.toInt < 0 := by rw [Int32.lt_iff_toInt_lt, Int32.toInt_zero]

end

theorem firstExtended (cs piece : List Char) (pieces : List (List Char)) :
    cs.foldr consFirst (piece :: pieces) = (cs ++ piece) :: pieces := by
  induction cs with
  | nil => rfl
  | cons c rest ih => rw [List.foldr_cons, ih, consFirst, List.cons_append]

section

variable {separator c : Char} {depth : Int32} {rest : List Char}

theorem splitOpening : splitTop separator depth ('(' :: rest) =
    (splitTop separator (depth + 1) rest).map (consFirst '(') := rfl

theorem splitClosing (inside : 1 ≤ depth.toInt) : splitTop separator depth (')' :: rest) =
    (splitTop separator (depth - 1) rest).map (consFirst ')') := by
  have kept : ¬ depth - 1 < 0 := by
    rw [belowZero, lowered (by omega)]
    omega
  rw [splitTop, if_neg (by decide), if_pos rfl, if_neg kept]

theorem splitOther (opens : c ≠ '(') (closes : c ≠ ')') (kept : ¬ (c = separator ∧ depth = 0)) :
    splitTop separator depth (c :: rest) = (splitTop separator depth rest).map (consFirst c) := by
  rw [splitTop, if_neg opens, if_neg closes, if_neg kept]

theorem splitHere (opens : separator ≠ '(') (closes : separator ≠ ')') :
    splitTop separator 0 (separator :: rest) = (splitTop separator 0 rest).map ([] :: ·) := by
  rw [splitTop, if_neg opens, if_neg closes, if_pos ⟨rfl, rfl⟩]

end

theorem splitPast (nested : Nested bound plain cs) {separator : Char} {depth : Int32} (inside : 0 ≤ depth.toInt)
    (room : depth.toInt + bound < 2 ^ 31) (apart : depth = 0 → ∀ c, plain c → c ≠ separator) (rest : List Char) :
    splitTop separator depth (cs ++ rest) =
      (splitTop separator depth rest).map fun pieces => cs.foldr consFirst pieces := by
  induction nested generalizing depth rest with
  | nil => simp
  | @char _ _ c _ here opens closes _ ih =>
    have kept : ¬ (c = separator ∧ depth = 0) := fun ⟨same, outside⟩ => apart outside c here same
    rw [List.cons_append, splitOther opens closes kept, ih inside room apart, Option.map_map]
    rfl
  | @group bound _ within later _ _ first second =>
    have deeper : (depth + 1).toInt = depth.toInt + 1 := raised (by omega)
    have never : depth + 1 = 0 → ∀ c, True → c ≠ separator := fun outside => by
      rw [outsideZero] at outside
      omega
    rw [List.cons_append, List.append_assoc, List.cons_append, splitOpening, first (by omega) (by omega) never,
      splitClosing (by omega), Int32.add_sub_cancel, second inside room apart]
    simp only [Option.map_map, Function.comp_def, List.foldr_cons, List.foldr_append]

theorem splitListed {separator : Char} (opens : separator ≠ '(') (closes : separator ≠ ')') (room : bound < 2 ^ 31)
    {first : List Char} {rest : List (List Char)} (one : Nested bound (· ≠ separator) first)
    (each : ∀ piece ∈ rest, Nested bound (· ≠ separator) piece) :
    splitTop separator 0 (first ++ rest.flatMap (separator :: ·)) = some (first :: rest) := by
  have few : (0 : Int32).toInt + bound < 2 ^ 31 := by
    rw [Int32.toInt_zero]
    omega
  induction rest generalizing first with
  | nil =>
    rw [List.flatMap_nil, splitPast one (le_refl 0) few fun _ _ => id, splitTop, if_neg (by decide), Option.map_some,
      firstExtended, List.append_nil]
  | cons piece rest ih =>
    obtain ⟨here, later⟩ := List.forall_mem_cons.mp each
    rw [List.flatMap_cons, List.cons_append, splitPast one (le_refl 0) few fun _ _ => id, splitHere opens closes,
      ih here later]
    simp only [Option.map_some, firstExtended, List.append_nil]

theorem cutPast (nested : Nested bound plain cs) {needle : Char} {depth : Int32} (inside : 0 ≤ depth.toInt)
    (room : depth.toInt + bound < 2 ^ 31) (apart : depth = 0 → ∀ c, plain c → c ≠ needle) (rest : List Char) :
    cutTop? needle depth (cs ++ rest) =
      (cutTop? needle depth rest).map fun (before, after) => (cs ++ before, after) := by
  induction nested generalizing depth rest with
  | nil => simp
  | @char _ _ c _ here opens closes _ ih =>
    have kept : ¬ (c = needle ∧ depth = 0) := fun ⟨same, outside⟩ => apart outside c here same
    rw [List.cons_append, cutTop?, if_neg opens, if_neg closes, if_neg kept, ih inside room apart, Option.map_map]
    rfl
  | @group bound _ within later _ _ first second =>
    have deeper : (depth + 1).toInt = depth.toInt + 1 := raised (by omega)
    have never : depth + 1 = 0 → ∀ c, True → c ≠ needle := fun outside => by
      rw [outsideZero] at outside
      omega
    rw [List.cons_append, List.append_assoc, List.cons_append, cutTop?, if_pos rfl, first (by omega) (by omega) never,
      cutTop?, if_neg (by decide), if_pos rfl, Int32.add_sub_cancel, second inside room apart]
    simp only [Option.map_map, Function.comp_def, List.cons_append, List.append_assoc]

theorem cutNothing {needle : Char} (nested : Nested bound (· ≠ needle) cs) (room : bound < 2 ^ 31) :
    cutTop? needle 0 cs = none := by
  have past := cutPast nested (le_refl (0 : Int32).toInt) (by rw [Int32.toInt_zero]; omega) (fun _ _ => id) []
  rw [List.append_nil] at past
  rw [past]
  rfl

theorem cutFound {needle : Char} (opens : needle ≠ '(') (closes : needle ≠ ')') (nested : Nested bound (· ≠ needle) cs)
    (room : bound < 2 ^ 31) (value : List Char) : cutTop? needle 0 (cs ++ needle :: value) = some (cs, value) := by
  have past := cutPast nested (le_refl (0 : Int32).toInt) (by rw [Int32.toInt_zero]; omega) (fun _ _ => id)
  rw [past, cutTop?, if_neg opens, if_neg closes, if_pos ⟨rfl, rfl⟩]
  simp

section

variable {key value argument : List Char}

theorem keyedRead (named : Text.trim key = key) (given : Text.trim value = value) (some : key ≠ []) (other : value ≠ [])
    (nested : Nested bound (· ≠ '=') key) (room : bound < 2 ^ 31) :
    argumentOf (key ++ '=' :: value) = .some (.some (String.ofList key), String.ofList value) := by
  have whole : Text.trim (key ++ '=' :: value) = key ++ '=' :: value := by
    simpa using Text.trimmedAround named given some other ['=']
  have filled : ¬ (key ++ '=' :: value).isEmpty := by simp
  simp only [argumentOf, whole, if_neg filled, cutFound (by decide) (by decide) nested room, named,
    given]

theorem positionalRead (whole : Text.trim argument = argument) (filled : argument ≠ [])
    (nested : Nested bound (· ≠ '=') argument) (room : bound < 2 ^ 31) :
    argumentOf argument = some (none, String.ofList argument) := by
  have some : ¬ argument.isEmpty := by simpa using filled
  simp only [argumentOf, whole, if_neg some, cutNothing nested room]

theorem blankRead {c : Char} (blank : Text.isBlank c) : argumentOf (c :: argument) = argumentOf argument := by
  rw [argumentOf, argumentOf, Text.trimmedBlank blank]

end

theorem parseListed {name first : List Char} {rest : List (List Char)} (unopened : '(' ∉ name)
    (trimmed : Text.trim name = name) (filled : name ≠ []) (room : bound < 2 ^ 31)
    (one : Nested bound (· ≠ ',') first) (each : ∀ piece ∈ rest, Nested bound (· ≠ ',') piece) :
    parse (String.ofList (name ++ '(' :: (first ++ rest.flatMap (',' :: ·) ++ [')']))) =
      some ⟨String.ofList name, (first :: rest).filterMap argumentOf⟩ := by
  have whole : Text.trim (name ++ '(' :: (first ++ rest.flatMap (',' :: ·) ++ [')'])) =
      name ++ '(' :: (first ++ rest.flatMap (',' :: ·) ++ [')']) := by
    have closed : Text.trim [')'] = [')'] := by decide
    have around := Text.trimmedAround trimmed closed filled (by decide) ('(' :: (first ++ rest.flatMap (',' :: ·)))
    simpa only [List.append_assoc, List.cons_append] using around
  have named : ¬ name.isEmpty := by simpa using filled
  have ended : Text.dropTail? [')'] (first ++ rest.flatMap (',' :: ·) ++ [')']) =
      some (first ++ rest.flatMap (',' :: ·)) := Text.dropTailExactly.mpr rfl
  rw [parse, String.toList_ofList, whole, Text.splitFirstFound unopened]
  simp only [bind, Option.bind, trimmed, if_neg named, ended, splitListed (by decide) (by decide) room one each]

end TabularRdf.Mapping.InlineCall

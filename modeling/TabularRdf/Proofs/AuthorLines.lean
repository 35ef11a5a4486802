import TabularRdf.Mapping.Author
import TabularRdf.Proofs.AbsoluteIris
import TabularRdf.Proofs.TemplateGrammar

/-! Authors on one line. A line that is no WebID is read by a pattern, a name, a mail address in angle brackets and a
site in parentheses, with blanks around them; however the pattern matches, the parts are the same. An author written
on one line is read back, unless its name is all there is and has the form of a WebID. -/
namespace TabularRdf.Text

theorem trimmedPadded {lead tail : List Char} (before : lead.all isBlank) (after : tail.all isBlank)
    (cs : List Char) : trim (lead ++ (cs ++ tail)) = trim cs := by
  have left : trimLeft (lead ++ (cs ++ tail)) = trimLeft (cs ++ tail) :=
    List.dropWhile_append_of_pos (List.all_eq_true.mp before)
  have right (rest : List Char) : trimRight (rest ++ tail) = trimRight rest := by
    have blank : ∀ c ∈ tail.reverse, isBlank c := by simpa using after
    rw [trimRight, List.reverse_append, List.dropWhile_append_of_pos blank]
    rfl
  rw [trim, left, trimLeft, List.dropWhile_append]
  split
  · rename_i none
    have gone : tail.dropWhile isBlank = [] := List.dropWhile_eq_nil_iff.mpr (List.all_eq_true.mp after)
    rw [gone, trim, trimLeft, List.isEmpty_iff.mp none]
  · exact right _

theorem trimmedJoined {parts : List (List Char)} (each : ∀ part ∈ parts, part ≠ [] ∧ trim part = part) :
    trim ([' '].intercalate parts) = [' '].intercalate parts := by
  induction parts with
  | nil => rfl
  | cons first rest ih =>
    obtain ⟨⟨filled, whole⟩, later⟩ := List.forall_mem_cons.mp each
    cases rest with
    | nil => rwa [List.intercalate_singleton]
    | cons second rest =>
      have some : [' '].intercalate (second :: rest) ≠ [] := by
        have filled := (later second List.mem_cons_self).1
        cases rest <;> simp [filled]
      rw [List.intercalate_cons_cons]
      exact trimmedAround whole (ih later) filled some [' ']

theorem cutBlanks {p : Char → Bool} {before after : List Char} (blanks : ∀ c, isBlank c → p c)
    (inside : ∀ c ∈ before, p c) (ends : ∀ c ∈ (trimLeft after).head?, ¬ p c) :
    (before ++ after).takeWhile p = before ++ after.takeWhile isBlank ∧
      (before ++ after).dropWhile p = trimLeft after := by
  have within : ∀ c ∈ before ++ after.takeWhile isBlank, p c := List.forall_mem_append.mpr
    ⟨inside, fun c mem => blanks c (List.mem_takeWhile_imp mem)⟩
  have whole : before ++ after = (before ++ after.takeWhile isBlank) ++ trimLeft after := by
    rw [List.append_assoc, trimLeft, List.takeWhile_append_dropWhile]
  rw [whole, List.takeWhile_append_of_pos within, List.dropWhile_append_of_pos within]
  cases rest : trimLeft after with
  | nil => simp
  | cons c rest =>
    have other : ¬ p c := ends c (by rw [rest]; rfl)
    simp [other]

end TabularRdf.Text

namespace TabularRdf.Mapping.Author

def WebForm (cs : List Char) : Prop :=
  ∃ scheme rest, cs = scheme ++ "://".toList ++ rest ∧ Iri.isScheme scheme ∧ rest ≠ [] ∧
    ∀ c ∈ rest, ¬ Text.isBlank c

def enclosed (opening closing : Char) (part : Option (List Char)) : List Char :=
  part.elim [] fun part => opening :: (part ++ [closing])

/-- The texts that the pattern of an author matches, each with what stands for the name, for the mail address and for
the site. A name may be matched with or without the blanks beside it, so most texts match in several ways. -/
inductive Matched : List Char → List Char → Option (List Char) → Option (List Char) → Prop where
  | pattern {lead name gap space tail : List Char} {email website : Option (List Char)}
      (blanks : ∀ blank ∈ [lead, gap, space, tail], blank.all Text.isBlank)
      (unopened : ∀ c ∈ name, c ∉ ['<', '(']) (address : ∀ part ∈ email, '>' ∉ part)
      (site : ∀ part ∈ website, ')' ∉ part) :
      Matched (lead ++ name ++ gap ++ enclosed '<' '>' email ++ space ++ enclosed '(' ')' website ++ tail)
        name email website

def meant (name : List Char) (email website : Option (List Char)) : Author :=
  ⟨partOf name, email.bind partOf, website.bind partOf, none⟩

def isNameChar (c : Char) : Bool := c != '<' && c != '('

def partsOf? (cs : List Char) : Option Author := do
  let (email, rest) ← bracketed? '<' '>' (cs.dropWhile isNameChar)
  let (website, rest) ← bracketed? '(' ')' rest
  if !rest.isEmpty then none else some ⟨partOf (cs.takeWhile isNameChar), partOf email, partOf website, none⟩

theorem parsedParts (text : String) : parseShortcut text =
    if isWebId (Text.trim text.toList) then some ⟨none, none, none, some (Text.trimmed text)⟩
    else (partsOf? (Text.trim text.toList)).filter fun author => !author.isEmpty := by
  have kept (author : Author) : (if author.isEmpty then none else some author) =
      (some author).filter fun author => !author.isEmpty := by
    cases empty : author.isEmpty <;> simp [Option.filter, empty]
  have nameClass : (fun c => c != '<' && c != '(') = isNameChar := rfl
  simp only [parseShortcut, partsOf?, Text.trimmed, bind, Option.bind, nameClass]
  generalize Text.trim text.toList = cs
  split
  · rfl
  · cases bracketed? '<' '>' (cs.dropWhile isNameChar) with
    | none => rfl
    | some parts =>
      obtain ⟨email, rest⟩ := parts
      dsimp only
      cases bracketed? '(' ')' rest with
      | none => rfl
      | some parts =>
        obtain ⟨website, rest⟩ := parts
        cases rest with
        | nil => exact kept _
        | cons => rfl

theorem blankName (c : Char) (blank : Text.isBlank c) : isNameChar c := by
  have marks : ¬ Text.isBlank '<' ∧ ¬ Text.isBlank '(' := by decide
  have apart : c ≠ '<' ∧ c ≠ '(' :=
    ⟨fun same => marks.1 (same ▸ blank), fun same => marks.2 (same ▸ blank)⟩
  simpa [isNameChar] using apart

theorem webIdExactly {cs : List Char} : isWebId cs ↔ WebForm cs := by
  constructor
  · intro web
    unfold isWebId at web
    split at web
    · rename_i scheme rest cut
      simp only [Bool.and_eq_true, Bool.not_eq_true', List.isEmpty_eq_false_iff, List.all_eq_true] at web
      obtain ⟨⟨valid, filled⟩, graphic⟩ := web
      refine ⟨scheme, rest, ?_, valid, filled, fun c mem => ?_⟩
      · rw [(Text.splitFirstWhole cut).1, List.append_assoc]
        rfl
      · simpa using graphic c mem
    · contradiction
  · rintro ⟨scheme, rest, rfl, valid, filled, graphic⟩
    have cut : Text.splitFirst? ':' (scheme ++ "://".toList ++ rest) = some (scheme, '/' :: '/' :: rest) := by
      rw [List.append_assoc]
      exact Text.splitFirstFound (Iri.schemeColonless valid) _
    have visible : rest.all fun c => !Text.isBlank c := by simpa using graphic
    rw [isWebId, cut]
    simp [valid, filled, visible]

instance (cs : List Char) : Decidable (WebForm cs) := decidable_of_iff _ webIdExactly

section

variable {opening closing : Char} {part : Option (List Char)} {rest : List Char}

theorem enclosedStarts (visible : ¬ Text.isBlank opening) :
    ∀ c ∈ (Text.trimLeft (enclosed opening closing part ++ rest)).head?,
      c = opening ∨ c ∈ (Text.trimLeft rest).head? := by
  cases part with
  | none => exact fun c mem => .inr mem
  | some part =>
    intro c mem
    rw [enclosed, Option.elim_some, List.cons_append, Text.trimLeft, List.dropWhile_cons_of_neg visible] at mem
    exact .inl (Option.some.inj mem).symm

theorem enclosedRead (visible : ¬ Text.isBlank opening) (inside : ∀ cs ∈ part, closing ∉ cs)
    (other : ∀ c ∈ (Text.trimLeft rest).head?, c ≠ opening) :
    bracketed? opening closing (Text.trimLeft (enclosed opening closing part ++ rest)) =
      some (part.getD [], Text.trimLeft rest) := by
  cases part with
  | none =>
    rw [enclosed, Option.elim_none, List.nil_append]
    cases left : Text.trimLeft rest with
    | nil => rfl
    | cons c rest =>
      have apart : c ≠ opening := other c (by rw [left]; rfl)
      rw [bracketed?, if_neg apart]
      rfl
  | some part =>
    have closed := Text.splitFirstFound (inside part rfl) rest
    rw [enclosed, Option.elim_some, List.cons_append, Text.trimLeft, List.dropWhile_cons_of_neg visible, bracketed?,
      if_pos rfl, List.append_assoc, List.singleton_append, closed]
    rfl

theorem enclosedOrigin {cs inner : List Char} (read : bracketed? opening closing cs = some (inner, rest)) :
    ∃ part space, cs = enclosed opening closing part ++ (space ++ rest) ∧ space.all Text.isBlank ∧
      (∀ cs ∈ part, closing ∉ cs) ∧ inner = part.getD [] := by
  cases cs with
  | nil =>
    cases read
    exact ⟨none, [], rfl, rfl, nofun, rfl⟩
  | cons c cs =>
    rw [bracketed?] at read
    split at read
    · rename_i opens
      obtain ⟨⟨inside, after⟩, cut, same⟩ := Option.map_eq_some_iff.mp read
      cases same
      obtain ⟨rfl, absent⟩ := Text.splitFirstWhole cut
      refine ⟨some inner, after.takeWhile Text.isBlank, ?_, List.all_takeWhile, by simpa using absent, rfl⟩
      rw [Text.trimLeft, List.takeWhile_append_dropWhile, opens]
      simp [enclosed]
    · cases read
      exact ⟨none, [], rfl, rfl, nofun, rfl⟩

end

theorem partMeant (part : Option (List Char)) : partOf (part.getD []) = part.bind partOf := by
  cases part <;> rfl

theorem nameCut {lead name gap after : List Char} (leads : lead.all Text.isBlank) (gaps : gap.all Text.isBlank)
    (unopened : ∀ c ∈ name, isNameChar c) (ends : ∀ c ∈ (Text.trimLeft after).head?, ¬ isNameChar c) :
    partOf ((lead ++ name ++ gap ++ after).takeWhile isNameChar) = partOf name ∧
      (lead ++ name ++ gap ++ after).dropWhile isNameChar = Text.trimLeft after := by
  have blank {cs : List Char} (all : cs.all Text.isBlank) : ∀ c ∈ cs, isNameChar c :=
    fun c mem => blankName c (List.all_eq_true.mp all c mem)
  have inside : ∀ c ∈ lead ++ name ++ gap, isNameChar c := by
    simpa only [List.forall_mem_append] using ⟨⟨blank leads, unopened⟩, blank gaps⟩
  obtain ⟨taken, dropped⟩ := Text.cutBlanks blankName inside ends
  refine ⟨?_, dropped⟩
  have padded : Text.trim (lead ++ (name ++ (gap ++ after.takeWhile Text.isBlank))) = Text.trim name :=
    Text.trimmedPadded leads (by simp [gaps]) name
  rw [taken, partOf, List.append_assoc, List.append_assoc, padded, partOf]

section

variable {cs name : List Char} {email website : Option (List Char)}

theorem matchedParts (matched : Matched cs name email website) : partsOf? cs = some (meant name email website) := by
  cases matched with
  | @pattern lead name gap space tail email website blanks unopened address site =>
    obtain ⟨leads, gaps, spaces, tails, -⟩ : _ ∧ _ ∧ _ ∧ _ ∧ _ := by
      simpa only [List.forall_mem_cons] using blanks
    have last : Text.trimLeft tail = [] := List.dropWhile_eq_nil_iff.mpr (List.all_eq_true.mp tails)
    have second : ∀ c ∈ (Text.trimLeft (enclosed '(' ')' website ++ tail)).head?, c = '(' := fun c mem =>
      (enclosedStarts (by decide) c mem).resolve_right (by simp [last])
    have between : Text.trimLeft (space ++ (enclosed '(' ')' website ++ tail)) =
        Text.trimLeft (enclosed '(' ')' website ++ tail) := List.dropWhile_append_of_pos (List.all_eq_true.mp spaces)
    rw [← between] at second
    -- behind the name and its blanks stands a bracket or nothing, so the name ends there in every match
    generalize behind : space ++ (enclosed '(' ')' website ++ tail) = rest at between second
    have first : ∀ c ∈ (Text.trimLeft (enclosed '<' '>' email ++ rest)).head?, ¬ isNameChar c := by
      intro c mem
      rcases enclosedStarts (by decide) c mem with rfl | later
      · decide
      · rw [second c later]
        decide
    have plain : ∀ c ∈ name, isNameChar c := fun c mem => by simpa [isNameChar] using unopened c mem
    obtain ⟨named, dropped⟩ := nameCut leads gaps plain first
    have mail : bracketed? '<' '>' (Text.trimLeft (enclosed '<' '>' email ++ rest)) =
        some (email.getD [], Text.trimLeft rest) := by
      refine enclosedRead (by decide) address fun c mem => ?_
      rw [second c mem]
      decide
    have web : bracketed? '(' ')' (Text.trimLeft (enclosed '(' ')' website ++ tail)) =
        some (website.getD [], Text.trimLeft tail) := enclosedRead (by decide) site (by simp [last])
    have whole : lead ++ name ++ gap ++ enclosed '<' '>' email ++ space ++ enclosed '(' ')' website ++ tail =
        lead ++ name ++ gap ++ (enclosed '<' '>' email ++ rest) := by simp only [← behind, List.append_assoc]
    rw [whole]
    simp only [partsOf?, named, dropped, mail, between, web, last, bind, Option.bind, partMeant]
    rfl

theorem partsMatched {author : Author} (read : partsOf? cs = some author) :
    ∃ name email website, Matched cs name email website ∧ author = meant name email website := by
  obtain ⟨⟨inner, rest⟩, first, given⟩ := Option.bind_eq_some_iff.mp read
  obtain ⟨⟨other, tail⟩, second, kept⟩ := Option.bind_eq_some_iff.mp given
  dsimp only at second kept
  split at kept
  · contradiction
  · rename_i ended
    obtain rfl : tail = [] := by simpa using ended
    obtain ⟨email, space, dropped, spaces, address, rfl⟩ := enclosedOrigin first
    obtain ⟨website, blank, behind, blanks, site, rfl⟩ := enclosedOrigin second
    have unopened : ∀ c ∈ cs.takeWhile isNameChar, c ∉ ['<', '('] := fun c mem => by
      simpa [isNameChar] using List.mem_takeWhile_imp mem
    have matched : Matched ([] ++ cs.takeWhile isNameChar ++ [] ++ enclosed '<' '>' email ++ space ++
        enclosed '(' ')' website ++ blank) (cs.takeWhile isNameChar) email website :=
      .pattern (by simpa using ⟨List.all_eq_true.mp spaces, List.all_eq_true.mp blanks⟩) unopened address site
    have whole : [] ++ cs.takeWhile isNameChar ++ [] ++ enclosed '<' '>' email ++ space ++
        enclosed '(' ')' website ++ blank = cs := by
      conv_rhs => rw [← List.takeWhile_append_dropWhile (p := isNameChar) (l := cs), dropped, behind]
      simp
    rw [whole] at matched
    rw [partMeant, partMeant] at kept
    exact ⟨_, email, website, matched, (Option.some.inj kept).symm⟩

theorem partsExactly {author : Author} : partsOf? cs = some author ↔
    ∃ name email website, Matched cs name email website ∧ author = meant name email website := by
  constructor
  · exact partsMatched
  · rintro ⟨name, email, website, matched, rfl⟩
    exact matchedParts matched

end

theorem shortcutExactly {text : String} {author : Author} : parseShortcut text = some author ↔
    if WebForm (Text.trim text.toList) then author = ⟨none, none, none, some (Text.trimmed text)⟩
    else author.isEmpty = false ∧ ∃ name email website, Matched (Text.trim text.toList) name email website ∧
      author = meant name email website := by
  rw [parsedParts]
  split
  · rename_i web
    rw [if_pos (webIdExactly.mp web), Option.some.injEq, eq_comm]
  · rename_i other
    rw [if_neg (mt webIdExactly.mpr other), Option.filter_eq_some_iff, partsExactly, and_comm, Bool.not_eq_true']

structure Told (marks : List Char) (part : String) : Prop where
  filled : part ≠ ""
  trimmed : Text.trimmed part = part
  unmarked : ∀ c ∈ part.toList, c ∉ marks

instance (marks : List Char) (part : String) : Decidable (Told marks part) :=
  decidable_of_iff (part ≠ "" ∧ Text.trimmed part = part ∧ part.toList.all fun c => c ∉ marks)
    ⟨fun ⟨filled, trimmed, unmarked⟩ => ⟨filled, trimmed, by simpa using unmarked⟩,
      fun ⟨filled, trimmed, unmarked⟩ => ⟨filled, trimmed, by simpa using unmarked⟩⟩

structure Writable (a : Author) : Prop where
  given : a.isEmpty = false
  webless : a.webId = none
  name : ∀ name ∈ a.name, Told ['<', '('] name
  email : ∀ email ∈ a.email, Told ['>'] email
  website : ∀ website ∈ a.website, Told [')'] website

instance (a : Author) : Decidable (Writable a) :=
  decidable_of_iff (a.isEmpty = false ∧ a.webId = none ∧ (a.name.all fun name => Told ['<', '('] name) ∧
      (a.email.all fun email => Told ['>'] email) ∧ a.website.all fun website => Told [')'] website) <| by
    simp only [Option.all_eq_true, decide_eq_true_eq]
    exact ⟨fun ⟨given, webless, name, email, website⟩ => ⟨given, webless, name, email, website⟩,
      fun ⟨given, webless, name, email, website⟩ => ⟨given, webless, name, email, website⟩⟩

def pieces (a : Author) : List String :=
  a.name.toList ++ (a.email.map fun email => "<" ++ email ++ ">").toList ++
    (a.website.map fun website => "(" ++ website ++ ")").toList

def line (a : Author) : String := " ".intercalate a.pieces

def WebNamed (a : Author) : Prop :=
  a.email = none ∧ a.website = none ∧ ∃ name ∈ a.name, WebForm name.toList

theorem webSpaceless {cs : List Char} (web : WebForm cs) : ' ' ∉ cs := by
  obtain ⟨scheme, rest, rfl, valid, -, graphic⟩ := web
  simp only [List.mem_append, not_or]
  refine ⟨⟨fun mem => ?_, by decide⟩, fun mem => graphic ' ' mem (by decide)⟩
  exact absurd (Iri.schemeChars valid _ mem) (by decide)

theorem webStarts {cs : List Char} (web : WebForm cs) : ∀ c ∈ cs.head?, Iri.isAsciiLetter c := by
  obtain ⟨scheme, rest, rfl, valid, -, -⟩ := web
  cases scheme with
  | nil => contradiction
  | cons c scheme =>
    intro d mem
    cases mem
    exact (Bool.and_eq_true_iff.mp valid).1

section

variable {part : String} {marks : List Char}

theorem Told.chars (told : Told marks part) : part.toList ≠ [] := by simpa using told.filled

theorem Told.whole (told : Told marks part) : Text.trim part.toList = part.toList := Text.trimmedChars told.trimmed

theorem Told.kept (told : Told marks part) : partOf part.toList = some part := by
  rw [partOf, told.whole, if_neg (mt List.isEmpty_iff.mp told.chars), String.ofList_toList]

theorem partsLack {part : Option String} (told : ∀ text ∈ part, Told marks text) {mark : Char} (mem : mark ∈ marks) :
    ∀ cs ∈ part.map String.toList, mark ∉ cs := by
  intro cs given
  obtain ⟨text, found, rfl⟩ := Option.map_eq_some_iff.mp given
  exact fun inside => (told text found).unmarked mark inside mem

theorem partsKept {part : Option String} (told : ∀ text ∈ part, Told marks text) :
    (part.map String.toList).bind partOf = part := by
  cases part with
  | none => rfl
  | some text => exact (told text rfl).kept

end

theorem bracketsWhole {opening closing : Char} (one : Text.trim [opening] = [opening])
    (two : Text.trim [closing] = [closing]) (inner : List Char) :
    Text.trim (opening :: (inner ++ [closing])) = opening :: (inner ++ [closing]) :=
  Text.trimmedAround one two (List.cons_ne_nil _ _) (List.cons_ne_nil _ _) inner

def spacing (between : Bool) : List Char := if between then [' '] else []

theorem spacingBlank (between : Bool) : (spacing between).all Text.isBlank := by cases between <;> decide

theorem lineParts (a : Author) : a.line.toList = (a.name.map String.toList).getD [] ++
    spacing (a.name.isSome && (a.email.isSome || a.website.isSome)) ++ enclosed '<' '>' (a.email.map String.toList) ++
    spacing (a.email.isSome && a.website.isSome) ++ enclosed '(' ')' (a.website.map String.toList) := by
  obtain ⟨name, email, website, webId⟩ := a
  rw [line, String.toList_intercalate]
  cases name <;> cases email <;> cases website <;> simp [pieces, enclosed, spacing]

section

variable {a : Author} (writable : Writable a)
include writable

theorem lineMatched : Matched a.line.toList ((a.name.map String.toList).getD []) (a.email.map String.toList)
    (a.website.map String.toList) := by
  have unopened : ∀ c ∈ (a.name.map String.toList).getD [], c ∉ ['<', '('] := by
    cases named : a.name with
    | none => exact nofun
    | some name => exact (writable.name name named).unmarked
  have blanks : ∀ blank ∈ [[], spacing (a.name.isSome && (a.email.isSome || a.website.isSome)),
      spacing (a.email.isSome && a.website.isSome), []], blank.all Text.isBlank := by
    simp only [List.forall_mem_cons, spacingBlank]
    simp
  have address := partsLack writable.email List.mem_cons_self
  have matched := Matched.pattern blanks unopened address (partsLack writable.website List.mem_cons_self)
  rwa [List.append_nil, List.nil_append, ← lineParts] at matched

theorem lineMeant : meant ((a.name.map String.toList).getD []) (a.email.map String.toList)
    (a.website.map String.toList) = a := by
  obtain ⟨name, email, website, webId⟩ := a
  cases writable.webless
  rw [meant, partMeant, partsKept writable.name, partsKept writable.email, partsKept writable.website]

theorem lineWhole : Text.trim a.line.toList = a.line.toList := by
  have each : ∀ piece ∈ a.pieces, piece.toList ≠ [] ∧ Text.trim piece.toList = piece.toList := by
    intro piece mem
    simp only [pieces, List.mem_append, Option.mem_toList, Option.map_eq_some_iff] at mem
    rcases mem with (named | ⟨email, -, rfl⟩) | ⟨website, -, rfl⟩
    · exact ⟨(writable.name piece named).chars, (writable.name piece named).whole⟩
    · simpa using bracketsWhole (show Text.trim ['<'] = ['<'] by decide) (show Text.trim ['>'] = ['>'] by decide)
        email.toList
    · simpa using bracketsWhole (show Text.trim ['('] = ['('] by decide) (show Text.trim [')'] = [')'] by decide)
        website.toList
  rw [line, String.toList_intercalate]
  exact Text.trimmedJoined (by simpa using each)

theorem lineWeb : WebForm a.line.toList ↔ WebNamed a := by
  have written := lineParts a
  constructor
  · intro web
    rw [written] at web
    have spaceless := webSpaceless web
    have starts := webStarts web
    cases named : a.name with
    | none =>
      cases mail : a.email with
      | some email => exact absurd (starts '<' (by simp [named, mail, spacing, enclosed])) (by decide)
      | none =>
        cases site : a.website with
        | some website => exact absurd (starts '(' (by simp [named, mail, site, spacing, enclosed])) (by decide)
        | none => exact absurd writable.given (by simp [isEmpty, named, mail, site, writable.webless])
    | some name =>
      have alone : (a.email.isSome || a.website.isSome) = false := by
        rw [← Bool.not_eq_true]
        exact fun other => spaceless (by simp [named, other, spacing])
      obtain ⟨mail, site⟩ : a.email = none ∧ a.website = none := by simpa using alone
      exact ⟨mail, site, name, named, by simpa [named, mail, site, spacing, enclosed] using web⟩
  · rintro ⟨mail, site, name, named, web⟩
    have alone : a.name = some name := named
    rw [written]
    simpa [alone, mail, site, spacing, enclosed] using web

end

/- An author written on one line is read back, and every match of the line has its parts. Only a name that stands alone
and has the form of a WebID is read as one. -/
theorem linesReadBack (a : Author) (writable : Writable a) :
    (¬ WebNamed a → parseShortcut a.line = some a) ∧
      (WebNamed a → parseShortcut a.line = some ⟨none, none, none, some a.line⟩) ∧
      (∃ name email website, Matched a.line.toList name email website) ∧
      ∀ name email website, Matched a.line.toList name email website → meant name email website = a := by
  have matched := lineMatched writable
  have whole := lineWhole writable
  have same := lineMeant writable
  refine ⟨fun other => ?_, fun web => ?_, ⟨_, _, _, matched⟩, fun name email website found => ?_⟩
  · rw [shortcutExactly, whole, if_neg (mt (lineWeb writable).mp other)]
    exact ⟨writable.given, _, _, _, matched, same.symm⟩
  · rw [shortcutExactly, whole, if_pos ((lineWeb writable).mpr web), Text.trimmed, whole, String.ofList_toList]
  · rw [← same]
    exact Option.some.inj ((matchedParts found).symm.trans (matchedParts matched))

def signature : Author := ⟨some "Ann > B)", some "a <(b)", some "<x> (y", none⟩

def address : Author := ⟨some "http://johndoe.com/#me", none, none, none⟩

theorem signatureReadBack : Writable signature ∧ signature.line = "Ann > B) <a <(b)> (<x> (y)" ∧
    parseShortcut "Ann > B) <a <(b)> (<x> (y)" = some signature ∧
    Writable address ∧ WebNamed address ∧
    parseShortcut "http://johndoe.com/#me" = some ⟨none, none, none, some "http://johndoe.com/#me"⟩ := by
  have written : signature.line = "Ann > B) <a <(b)> (<x> (y)" := by decide +kernel
  have alone : address.line = "http://johndoe.com/#me" := by decide +kernel
  have first : Writable signature := by decide +kernel
  have second : Writable address := by decide +kernel
  have web : WebNamed address := ⟨rfl, rfl, "http://johndoe.com/#me", rfl, by decide +kernel⟩
  have other : ¬ WebNamed signature := fun web => absurd web.1 (by decide)
  have read := (linesReadBack signature first).1 other
  have named := (linesReadBack address second).2.1 web
  rw [written] at read
  rw [alone] at named
  exact ⟨first, written, read, second, web, named⟩

end TabularRdf.Mapping.Author

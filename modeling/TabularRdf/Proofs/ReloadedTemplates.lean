import TabularRdf.Mapping.Reload
import TabularRdf.Proofs.TemplateGrammar

/-! Templates read again from their sources. A source that is written for segments gives these segments again, unless
one of them is an empty text, which is not written, or ends in a backslash right before a placeholder, which is then
taken for an escaped one. Only external values can put such texts into a template. -/
namespace TabularRdf.Mapping.Template

theorem writtenFirst {tokens : List Token} {rest : List Char} (written : write tokens = '(' :: rest) :
    ∃ more, tokens = .char '(' :: more := by
  unfold write at written
  split at written
  · cases written
  · cases written
  · cases (List.cons.inj written).1
    exact ⟨_, rfl⟩
  · cases (List.cons.inj written).1

theorem writtenOpens {tokens : List Token} {rest : List Char} (written : write tokens = '$' :: '(' :: rest) :
    ∃ name more, tokens = .column name :: more := by
  unfold write at written
  split at written
  · cases written
  · cases (List.cons.inj written).1
  · rename_i c more apart
    obtain ⟨here, behind⟩ := List.cons.inj written
    obtain ⟨last, rfl⟩ := writtenFirst behind
    exact (apart last rfl here).elim
  · exact ⟨_, _, rfl⟩

theorem scanWritten {tokens : List Token} (named : ∀ name, .column name ∈ tokens →
    name ≠ [] ∧ Text.trim name = name ∧ ')' ∉ name) (guarded : Guarded tokens) :
    scan none (write tokens) = .ok tokens := by
  induction tokens using write.induct with
  | case1 => rfl
  | case2 rest ih =>
    have later := ih (fun name mem => named name (List.mem_cons_of_mem _ (List.mem_cons_of_mem _ mem)))
      (List.isChain_cons.mp (List.isChain_cons.mp guarded).2).2
    rw [write, scan, later]
    rfl
  | case3 c rest apart ih =>
    have later := ih (fun name mem => named name (List.mem_cons_of_mem _ mem)) (List.isChain_cons.mp guarded).2
    have opens : ¬ ['$', '('] <+: c :: write rest := by
      rintro ⟨behind, same⟩
      obtain ⟨here, first⟩ := List.cons.inj same
      obtain ⟨more, rfl⟩ := writtenFirst first.symm
      exact apart more rfl here.symm
    have escapes : ¬ ['\\', '$', '('] <+: c :: write rest := by
      rintro ⟨behind, same⟩
      obtain ⟨here, first⟩ := List.cons.inj same
      obtain ⟨name, more, rfl⟩ := writtenOpens first.symm
      exact (List.isChain_cons.mp guarded).1 (.column name) rfl (congrArg Token.char here.symm) name rfl
    rw [write.eq_3 c rest apart, scanChar opens escapes, later]
    rfl
  | case4 name rest ih =>
    obtain ⟨given, trimmed, ends⟩ := named name List.mem_cons_self
    have later := ih (fun name mem => named name (List.mem_cons_of_mem _ mem)) (List.isChain_cons.mp guarded).2
    have some : ¬ name.all Text.isBlank := fun blank => given (trimmed ▸ Text.trimmedNone.mpr blank)
    rw [write, scanPlaceholder ends, if_neg some, later, trimmed]
    rfl

theorem gatherSpelled {segments : List Segment} (filled : .text "" ∉ segments) (merged : Merged segments) :
    gather [] (segments.flatMap spell) = segments := by
  induction segments with
  | nil => rfl
  | cons s rest ih =>
    obtain ⟨given, filled⟩ := not_or.mp (List.mem_cons.not.mp filled)
    obtain ⟨first, merged⟩ := List.isChain_cons.mp merged
    have later := ih filled merged
    cases s with
    | column name => simpa [spell, gather, flush] using later
    | text t =>
      have flushed : flush t.toList.reverse = [.text t] := by
        have some : t ≠ "" := fun empty => given (empty ▸ rfl)
        simp [flush, some]
      rw [List.flatMap_cons, spell, gatherText, List.append_nil]
      cases rest with
      | nil => exact flushed
      | cons next rest =>
        cases next with
        | text u => simpa [Segment.text?] using first _ rfl
        | column name =>
          have behind : .column name :: gather [] (rest.flatMap spell) = .column name :: rest := by
            simpa [spell, gather, flush] using later
          rw [List.flatMap_cons, spell, List.singleton_append, gather, flushed, String.ofList_toList, behind]
          rfl

theorem spelledColumn {segments : List Segment} (filled : .text "" ∉ segments) {name : List Char}
    (first : .column name ∈ (segments.flatMap spell).head?) : ∃ s ∈ segments.head?, s.column? ≠ none := by
  cases segments with
  | nil => cases first
  | cons s rest =>
    cases s with
    | column name => exact ⟨_, rfl, nofun⟩
    | text t =>
      cases chars : t.toList with
      | nil => exact absurd (List.mem_cons.mpr (.inl (by simpa using chars))) filled
      | cons c more => simp [spell, chars] at first

theorem spelledGuarded {segments : List Segment} (filled : .text "" ∉ segments) (unescaped : Unescaped segments) :
    Guarded (segments.flatMap spell) := by
  induction segments with
  | nil => exact .nil
  | cons s rest ih =>
    have behindFilled := List.not_mem_of_not_mem_cons filled
    obtain ⟨first, later⟩ := List.isChain_cons.mp unescaped
    have tail := ih behindFilled later
    cases s with
    | column name => exact List.isChain_cons.mpr ⟨nofun, tail⟩
    | text t =>
      have chars : Guarded (t.toList.map .char) :=
        (List.isChain_map _).mpr (List.Pairwise.isChain (List.pairwise_of_forall fun _ _ _ _ => nofun))
      refine List.isChain_append.mpr ⟨chars, tail, fun a last b behind here name column => ?_⟩
      subst here column
      obtain ⟨next, head, varies⟩ := spelledColumn behindFilled behind
      exact varies (first next head (by simpa [Segment.escapes, spell] using last))

theorem parseRendered {segments : List Segment} (normal : Normal segments) :
    parse (render segments) = .ok ⟨render segments, segments⟩ := by
  have named (name : List Char) (mem : .column name ∈ segments.flatMap spell) :
      name ≠ [] ∧ Text.trim name = name ∧ ')' ∉ name := by
    obtain ⟨s, listed, inside⟩ := List.mem_flatMap.mp mem
    cases s with
    | text t => simp [spell] at inside
    | column written =>
      cases List.mem_singleton.mp inside
      obtain ⟨given, trimmed, ends⟩ := normal.names written listed
      exact ⟨by simpa using given, by simpa [Text.trimmed] using congrArg String.toList trimmed, ends⟩
  rw [parse, renderWrites normal.merged, scanWritten named (spelledGuarded normal.filled normal.unescaped)]
  exact congrArg (fun read => Except.ok (Template.mk (render segments) read))
    (gatherSpelled normal.filled normal.merged)

theorem mergedHead {segments : List Segment} {s : Segment} (first : s ∈ (mergeText segments).head?)
    (column : s.text? = none) : s ∈ segments.head? := by
  cases segments with
  | nil => exact first
  | cons head rest =>
    cases head with
    | column name => exact first
    | text t =>
      rcases mergeCases t rest with ⟨u, more, _, same⟩ | ⟨_, same⟩ <;> rw [same] at first <;>
        cases Option.some.inj first <;> contradiction

theorem mergedUnescaped {segments : List Segment} (filled : .text "" ∉ segments) (unescaped : Unescaped segments) :
    Unescaped (mergeText segments) := by
  induction segments with
  | nil => exact .nil
  | cons s rest ih =>
    have behindFilled := List.not_mem_of_not_mem_cons filled
    obtain ⟨first, later⟩ := List.isChain_cons.mp unescaped
    have tail := ih behindFilled later
    cases s with
    | column name => exact List.isChain_cons.mpr ⟨fun _ _ => nofun, tail⟩
    | text t =>
      rcases mergeCases t rest with ⟨u, more, merged, same⟩ | ⟨apart, same⟩
      · have given : u.toList ≠ [] := by
          intro empty
          have merged' := merged ▸ mergedFilled behindFilled
          exact merged' (List.mem_cons.mpr (.inl (congrArg Segment.text (String.toList_eq_nil_iff.mp empty).symm)))
        rw [merged] at tail
        obtain ⟨last, more⟩ := List.isChain_cons.mp tail
        rw [same]
        refine List.isChain_cons.mpr ⟨fun next head escapes => last next head ?_, more⟩
        simpa [Segment.escapes, List.getLast?_append_of_ne_nil _ given] using escapes
      · rw [same]
        exact List.isChain_cons.mpr ⟨fun next head => first next (mergedHead head (apart next head)), tail⟩

section

variable {t : Template} {external : TabularRdf.Named String}

theorem externalsUnescaped (normal : Normal t.segments)
    (values : ∀ e ∈ external, e.2 ≠ "" ∧ e.2.toList.getLast? ≠ some '\\') :
    Unescaped (t.withExternals external).segments := by
  by_cases given : external = []
  · exact given ▸ normal.unescaped
  · rw [externalsMerged given]
    refine mergedUnescaped (substitutedFilled normal.filled fun e listed => (values e listed).1) ?_
    refine (List.isChain_map _).mpr (normal.unescaped.imp fun s u apart escapes => ?_)
    rcases substituteCases external s with ⟨e, listed, value, _⟩ | kept
    · rw [value] at escapes
      exact absurd (of_decide_eq_true escapes) (values e listed).2
    · rcases substituteCases external u with ⟨_, _, value, _⟩ | same
      · rw [value]
        rfl
      · rw [same]
        exact apart (kept ▸ escapes)

theorem externalsApart (normal : Normal t.segments) : Merged (t.withExternals external).segments := by
  by_cases given : external = []
  · exact given ▸ normal.merged
  · exact externalsMerged given ▸ mergedApart _

end

theorem reloadSettled {source : String} {t : Template} (parsed : parse source = .ok t)
    {external : TabularRdf.Named String} (filled : (t.withExternals external).Filled)
    (unescaped : Unescaped (t.withExternals external).segments) :
    (t.withExternals external).reload = .ok (t.withExternals external) := by
  have normal := parsedNormal parsed
  rw [reload]
  rcases externalsWritten normal.merged external with same | written
  · obtain ⟨_, _, _, kept⟩ := parsedReading parsed
    have original : t.source = source := congrArg Template.source kept
    rw [same, original, parsed]
  · rw [written, parseRendered ⟨filled, externalsApart normal, fun name mem => normal.names name (externalsColumns mem),
      unescaped⟩, ← written]

theorem reloadsUnescaped {source : String} {t : Template} (parsed : parse source = .ok t)
    (external : TabularRdf.Named String) :
    ((∃ again, parse (t.withExternals external).source = .ok again ∧
        again.segments = (t.withExternals external).segments) ↔
      (t.withExternals external).Filled ∧ Unescaped (t.withExternals external).segments) ∧
    ((∀ e ∈ external, e.2 ≠ "" ∧ e.2.toList.getLast? ≠ some '\\') →
      (t.withExternals external).reload = .ok (t.withExternals external)) := by
  have normal := parsedNormal parsed
  refine ⟨⟨?_, fun ⟨filled, unescaped⟩ => ⟨_, reloadSettled parsed filled unescaped, rfl⟩⟩, fun values => ?_⟩
  -- whatever is read from a source is normal, so no other segments can come back
  · rintro ⟨again, read, same⟩
    have kept := parsedNormal read
    rw [same] at kept
    exact ⟨kept.filled, kept.unescaped⟩
  · exact reloadSettled parsed (externalsFilled normal.filled fun e listed => (values e listed).1)
      (externalsUnescaped normal values)

theorem cityReloads : ∃ t, parse "ex:$(_city)/$(id)" = .ok t ∧
    (t.withExternals [("city", "$(Ghent)")]).source = "ex:\\$(Ghent)/$(id)" ∧
    (t.withExternals [("city", "$(Ghent)")]).reload = .ok (t.withExternals [("city", "$(Ghent)")]) := by
  have parsed : parse "ex:$(_city)/$(id)" =
      .ok ⟨"ex:$(_city)/$(id)", [.text "ex:", .column "_city", .text "/", .column "id"]⟩ := by decide +kernel
  exact ⟨_, parsed, by decide +kernel, (reloadsUnescaped parsed [("city", "$(Ghent)")]).2 (by decide)⟩

theorem externalsLost :
    (∃ t again, parse "$(_x)$(b)" = .ok t ∧ (t.withExternals [("x", "\\")]).segments = [.text "\\", .column "b"] ∧
      parse (t.withExternals [("x", "\\")]).source = .ok again ∧ again.segments = [.text "$(b)"]) ∧
    (∃ t again, parse "$(_x)$(b)" = .ok t ∧ (t.withExternals [("x", "")]).segments = [.text "", .column "b"] ∧
      parse (t.withExternals [("x", "")]).source = .ok again ∧ again.segments = [.column "b"]) ∧
    ∃ t, parse "$(_x)$($()" = .ok t ∧ parse (t.withExternals [("x", "\\")]).source =
      .error (.invalidTemplate "\\$($()" .emptyPlaceholder) := by
  refine ⟨⟨⟨"$(_x)$(b)", [.column "_x", .column "b"]⟩, ⟨"\\$(b)", [.text "$(b)"]⟩, ?_⟩,
    ⟨⟨"$(_x)$(b)", [.column "_x", .column "b"]⟩, ⟨"$(b)", [.column "b"]⟩, ?_⟩,
    ⟨"$(_x)$($()", [.column "_x", .column "$("]⟩, ?_⟩ <;> decide +kernel

end TabularRdf.Mapping.Template

import TabularRdf.Proofs.CanonicalKeys
import TabularRdf.Proofs.EntryForms
import TabularRdf.Proofs.RespelledReferences
import TabularRdf.Proofs.SeparateSubjects

/-! What is carried of an entry with a function. A call on one line stands for the whole entry, and in long form only
the keywords of functions are spelled out. -/
namespace TabularRdf.Document
open Mapping Loading

variable {context : Context} {s : Section} {e : Expression} {fields : Json.Fields}

inductive FunctionEntry (context : Context) (s : Section) (e : Expression) : Prop where
  | subject {before after : SubjectSpec} (added : subjectEntry context s before = .ok after)
      (function : after.functions = before.functions ++ [e]) : FunctionEntry context s e
  | object (read : longObject context s = .ok (.other (.function e))) : FunctionEntry context s e

theorem functionRead (entry : FunctionEntry context s e) : functionOf s.owner s.fields = .ok e := by
  cases entry with
  | subject added function =>
    obtain ⟨_, _, _, rfl, rfl | ⟨_, _, _, rfl⟩ | ⟨_, read, rfl⟩ | ⟨_, _, set⟩⟩ := entryAdds added
    · simp at function
    · simp at function
    · simp only [List.append_cancel_left_eq, List.cons.injEq, and_true] at function
      exact function ▸ read
    · obtain ⟨_, rfl⟩ := setOk.mp set
      simp at function
  | object read =>
    rcases longCases read with reference | ⟨_, read, same⟩ | value | ⟨_, _, same⟩
    · obtain ⟨_, same⟩ := referenceShaped reference
      cases same
    · cases same
      exact read
    · obtain ⟨_, _, _, _, made⟩ := valueMade value
      cases termShaped made
    · cases same

def lineCall? (fields : Json.Fields) : Option InlineCall :=
  if (firstUnder? fields .parameters).isSome then none
  else ((firstUnder? fields .function).bind Json.str?).bind InlineCall.parse

def callFields (call : InlineCall) : Json.Fields :=
  [(Keyword.function.canonical, .str call.name),
    (Keyword.parameters.canonical, .arr (call.args.map Expression.parameterOf))]

def keptFields (fields : Json.Fields) : Json.Fields :=
  match lineCall? fields with
  | some call => callFields call
  | none => fields.map respellField

theorem functionKept {owner : String} (read : functionOf owner fields = .ok e) :
    e = ⟨.function, .obj (keptFields fields)⟩ := by
  simp only [functionOf] at read
  split at read
  · rename_i call written absent
    cases Except.ok.inj read
    rw [keptFields, lineCall?, absent, if_neg Bool.false_ne_true, written]
    rfl
  · rename_i long
    split at read
    · rename_i payload carried
      obtain ⟨_, rfl⟩ := (carriedExactly _ _).mp carried
      cases Except.ok.inj read
      have line : lineCall? fields = none := by
        unfold lineCall?
        split
        · rfl
        · rename_i absent
          rw [Bool.not_eq_true] at absent
          exact Option.eq_none_iff_forall_ne_some.mpr fun call written => long call written absent
      rw [keptFields, line, respell, fieldsRespelt]
    · contradiction

def spelledOut (field : String × Json) : String × Json := (Keyword.canonicalAmong aliases field.1, respell field.2)

def wholeFields (fields : Json.Fields) : Json.Fields :=
  match lineCall? fields with
  | some call => callFields call ++ (fields.filter fun field => field.1 ∉ Keyword.function.spellings).map spelledOut
  | none => fields.map spelledOut

/- An entry of which nothing is lost and no shortcut kept: nothing stands beside a call on one line, and in long form
the only shortcuts are those of the payload. -/
def KeptWhole (fields : Json.Fields) : Prop :=
  match lineCall? fields with
  | some _ => ∀ field ∈ fields, field.1 ∈ Keyword.function.spellings
  | none => ∀ field ∈ fields, ∀ k ∈ aliases, field.1 ∈ k.shortcuts → k ∈ Keyword.payload

theorem payloadListed : ∀ k ∈ Keyword.payload, k ∈ aliases := by decide

theorem spelledAlike {key : String} (known : ∀ k ∈ aliases, key ∈ k.shortcuts → k ∈ Keyword.payload) :
    Keyword.canonicalOf key = Keyword.canonicalAmong aliases key := by
  rcases Keyword.amongCases aliases key with ⟨k, listed, spelled, same⟩ | ⟨plain, same⟩
  · rw [same, Keyword.payloadAmong]
    rcases Keyword.amongCases Keyword.payload key with ⟨other, member, here, agreed⟩ | ⟨absent, agreed⟩
    · rw [agreed, Keyword.spelledOnce aliasesDistinct (payloadListed other member) listed here spelled]
    · rcases List.mem_cons.mp spelled with rfl | short
      · exact agreed
      · exact absurd spelled (absent k (known k listed short))
  · rw [same, Keyword.payloadAmong]
    rcases Keyword.amongCases Keyword.payload key with ⟨other, member, here, _⟩ | ⟨_, agreed⟩
    · exact absurd here (plain other (payloadListed other member))
    · exact agreed

theorem shortcutKept {key : String} {k : Keyword} (listed : k ∈ aliases) (short : key ∈ k.shortcuts)
    (other : k ∉ Keyword.payload) : Keyword.canonicalOf key = key := by
  rcases Keyword.amongCases Keyword.payload key with ⟨found, member, here, _⟩ | ⟨_, same⟩
  · refine absurd member ?_
    rwa [Keyword.spelledOnce aliasesDistinct (payloadListed found member) listed here (List.mem_cons_of_mem _ short)]
  · exact same

theorem wholeKept (whole : KeptWhole fields) : keptFields fields = wholeFields fields := by
  cases line : lineCall? fields with
  | some call =>
    simp only [KeptWhole, line] at whole
    have nothing : (fields.filter fun field => field.1 ∉ Keyword.function.spellings) = [] := by
      simpa [List.filter_eq_nil_iff] using whole
    simp only [keptFields, wholeFields, line, nothing, List.map_nil, List.append_nil]
  | none =>
    simp only [KeptWhole, line] at whole
    simp only [keptFields, wholeFields, line]
    refine List.map_congr_left fun field listed => ?_
    rw [respellField, spelledOut, spelledAlike (whole field listed)]

theorem keptWhole (same : (keptFields fields).Perm (wholeFields fields)) : KeptWhole fields := by
  cases line : lineCall? fields with
  | some call =>
    simp only [keptFields, wholeFields, line] at same
    have count := same.length_eq
    simp only [List.length_append, List.length_map, Nat.left_eq_add, List.length_eq_zero_iff] at count
    simpa [KeptWhole, line, List.filter_eq_nil_iff] using count
  | none =>
    simp only [keptFields, wholeFields, line] at same
    simp only [KeptWhole, line]
    intro field listed k member short
    by_contra other
    -- the shortcut is kept as a key of the payload, but no shortcut is spelled out
    have kept := same.mem_iff.mp (List.mem_map_of_mem (f := respellField) listed)
    obtain ⟨origin, _, spelled⟩ := List.mem_map.mp kept
    have key : Keyword.canonicalAmong aliases origin.1 = field.1 :=
      (congrArg Prod.fst spelled).trans (shortcutKept member short other)
    exact Keyword.amongPlain aliasesDistinct member (key ▸ short)

/-- The payload of a function has the fields of its entry, all of them and spelled out, exactly when the entry is kept
whole. Entries of that kind that are spelled out alike, on one line or in long form, have equal payloads. -/
theorem payloadsWhole (entry : FunctionEntry context s e) :
    e = ⟨.function, .obj (keptFields s.fields)⟩ ∧
    ((keptFields s.fields).Perm (wholeFields s.fields) ↔ KeptWhole s.fields) ∧
    (KeptWhole s.fields → e.payload = .obj (wholeFields s.fields) ∧
      ∀ (context : Context) (other : Section) (f : Expression), FunctionEntry context other f →
        KeptWhole other.fields → wholeFields s.fields = wholeFields other.fields → e.payload = f.payload) := by
  have kept := functionKept (functionRead entry)
  refine ⟨kept, ⟨keptWhole, fun whole => .of_eq (wholeKept whole)⟩, fun whole => ?_⟩
  have own : e.payload = .obj (wholeFields s.fields) := by rw [kept, wholeKept whole]
  refine ⟨own, fun _ other f there also alike => ?_⟩
  rw [own, functionKept (functionRead there), wholeKept also, alike]

instance (fields : Json.Fields) : Decidable (KeptWhole fields) := by
  unfold KeptWhole
  split <;> infer_instance

def mintOnLine : Json.Fields := [("f", .str "ex:mint(ex:seed = $(id))")]

def mintInFull : Json.Fields :=
  [("function", .str "ex:mint"), ("pms", .arr [.obj [("pm", .str "ex:seed"), ("v", .str "$(id)")]])]

theorem mintsAlike : ∃ e f, FunctionEntry bareContext ⟨"person", mintOnLine⟩ e ∧
    FunctionEntry bareContext ⟨"person", mintInFull⟩ f ∧ e.payload = f.payload ∧
    f.payload = .obj [("function", .str "ex:mint"),
      ("parameters", .arr [.obj [("parameter", .str "ex:seed"), ("value", .str "$(id)")]])] := by
  have line : FunctionEntry bareContext ⟨"person", mintOnLine⟩ ⟨.function, _⟩ := .object rfl
  have full : FunctionEntry bareContext ⟨"person", mintInFull⟩ ⟨.function, _⟩ :=
    .subject (show subjectEntry _ _ SubjectSpec.empty = .ok _ from rfl) rfl
  obtain ⟨_, _, alike⟩ := payloadsWhole line
  obtain ⟨_, _, whole⟩ := payloadsWhole full
  refine ⟨_, _, line, full, (alike (by decide +kernel)).2 _ _ _ full (by decide +kernel) rfl, ?_⟩
  exact (whole (by decide +kernel)).1

def upperOnLine : Json.Fields := [("function", .str "ex:upper(ex:of = $(name))"), ("datatype", .str "xsd:string")]

def mintShort : Json.Fields := [("fn", .str "ex:mint"), ("pms", .arr []), ("g", .str "ex:people")]

def mintSpelled : Json.Fields := [("function", .str "ex:mint"), ("parameters", .arr []), ("graphs", .str "ex:people")]

def peopleContext : Context := ⟨[], [], [], ⟨[("ex", "http://example.org/")], none, .percent⟩⟩

theorem partsLost : ∃ upper short spelled,
    FunctionEntry peopleContext ⟨"person", upperOnLine⟩ upper ∧
    FunctionEntry peopleContext ⟨"person", mintShort⟩ short ∧
    FunctionEntry peopleContext ⟨"person", mintSpelled⟩ spelled ∧
    upper.payload.get? "datatype" = none ∧
    short.payload.get? "g" = some (.str "ex:people") ∧ short.payload.get? "graphs" = none ∧
    spelled.payload.get? "graphs" = some (.str "ex:people") ∧ wholeFields mintShort = wholeFields mintSpelled := by
  have upper : FunctionEntry peopleContext ⟨"person", upperOnLine⟩ ⟨.function, _⟩ := .object rfl
  have short : FunctionEntry peopleContext ⟨"person", mintShort⟩ ⟨.function, _⟩ :=
    .subject (show subjectEntry _ _ SubjectSpec.empty = .ok _ from rfl) rfl
  have spelled : FunctionEntry peopleContext ⟨"person", mintSpelled⟩ ⟨.function, _⟩ :=
    .subject (show subjectEntry _ _ SubjectSpec.empty = .ok _ from rfl) rfl
  exact ⟨_, _, _, upper, short, spelled, rfl, rfl, rfl, rfl, rfl⟩

end TabularRdf.Document

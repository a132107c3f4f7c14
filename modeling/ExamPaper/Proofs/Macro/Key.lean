import ExamPaper.Macro.Definition
import ExamPaper.Proofs.Text.Pieces

/-!
# Which keys declare a macro

A key lists a name and parameters with commas between them, plain or between double parentheses,
and with any blanks around each of them and around the whole (`Declares`). Both spellings are there
with and without parameters.

> A key of either spelling is read as the macro of just that name, those parameters and that body,
> and every other key is refused (`parse_declared`).

The parentheses around a key are told from those in it by the name, which has none. Parameters may
have some: of `((NAME,a)))` the last two belong to the key, and the one before them to the
parameter.
-/

namespace ExamPaper

namespace MacroDefinition

/-- A text that can be a parameter. -/
structure IsParameter (cs : List Char) : Prop where
  ne_nil : cs ≠ []
  trimmed : Text.Trimmed cs
  noComma : ',' ∉ cs

/-- A text that can be the name of a macro. -/
structure IsName (cs : List Char) : Prop extends IsParameter cs where
  noOpening : '(' ∉ cs
  noClosing : ')' ∉ cs

/-- The two spellings of a key. -/
inductive Spelling (inner : List Char) : List Char → Prop where
  | plain : Spelling inner inner
  | marked : Spelling inner (['(', '('] ++ inner ++ [')', ')'])

/-- The keys that declare a name and parameters. -/
structure Declares (name : String) (params : List String) (key : String) : Prop where
  isName : IsName name.toList
  areParameters : ∀ param ∈ params, IsParameter param.toList
  spelled : ∃ inner spelling, Text.Listed ',' ((name :: params).map String.toList) inner ∧
    Spelling inner spelling ∧ Text.Padded spelling key.toList

/-- The macro of a name, parameters and a body. -/
def declared (name : String) (params : List String) (body : String) : MacroDefinition :=
  if params = [] then .constant name body else .parametric name params body

/-! ## The text between the markers -/

/-- What a key is cut into has no comma in it and no blank at its ends. -/
theorem isParameter_of_mem {inner piece : List Char}
    (h : piece ∈ (Text.splitAtChar ',' inner).map Text.trimChars) (hne : piece ≠ []) :
    IsParameter piece := by
  obtain ⟨cut, hcut, rfl⟩ := List.mem_map.mp h
  have hcomma : ',' ∉ cut := Text.notMem_of_mem_splitOnto List.not_mem_nil hcut
  exact ⟨hne, Text.trimmed_trimChars cut, fun hmem => hcomma ((Text.padded_trimChars cut).mem hmem)⟩

/-- Pieces are refused if one is empty, or if the first one has a parenthesis in it. -/
theorem refused_eq_false_iff {first : List Char} {rest : List (List Char)} :
    (first.isEmpty || first.any (fun c => c == '(' || c == ')') || rest.any List.isEmpty) = false ↔
      (first ≠ [] ∧ '(' ∉ first ∧ ')' ∉ first) ∧ ∀ piece ∈ rest, piece ≠ [] := by
  simp only [Bool.or_eq_false_iff, List.any_eq_false, List.isEmpty_eq_false_iff, Bool.or_eq_true,
    beq_iff_eq, not_or, Bool.not_eq_true]
  constructor
  · rintro ⟨⟨hne, hparens⟩, hrest⟩
    exact ⟨⟨hne, fun h => (hparens '(' h).1 rfl, fun h => (hparens ')' h).2 rfl⟩, hrest⟩
  · rintro ⟨⟨hne, hopening, hclosing⟩, hrest⟩
    refine ⟨⟨hne, fun c hc => ⟨?_, ?_⟩⟩, hrest⟩
    · rintro rfl
      exact hopening hc
    · rintro rfl
      exact hclosing hc

theorem signature?_of_pieces {inner first : List Char} {rest : List (List Char)}
    (h : (Text.splitAtChar ',' inner).map Text.trimChars = first :: rest) :
    signature? inner =
      if first.isEmpty || first.any (fun c => c == '(' || c == ')') || rest.any List.isEmpty then
        none
      else some (String.ofList first, rest.map String.ofList) := by
  unfold signature?
  rw [h]

/-- What is found in a text is a name and parameters that the text lists. -/
theorem listed_of_signature? {inner : List Char} {found : String × List String}
    (h : signature? inner = some found) :
    IsName found.1.toList ∧ (∀ param ∈ found.2, IsParameter param.toList) ∧
      Text.Listed ',' ((found.1 :: found.2).map String.toList) inner := by
  have hlisted := Text.listed_splitAtChar ',' inner
  cases hpieces : (Text.splitAtChar ',' inner).map Text.trimChars with
  | nil =>
    unfold signature? at h
    rw [hpieces] at h
    exact absurd h (by simp)
  | cons first rest =>
    rw [signature?_of_pieces hpieces] at h
    split at h
    · exact absurd h (by simp)
    · rename_i hrefused
      obtain rfl := Option.some.inj h
      obtain ⟨⟨hne, hopening, hclosing⟩, hrest⟩ :=
        refused_eq_false_iff.mp (Bool.eq_false_iff.mpr hrefused)
      have hparameter : ∀ piece ∈ first :: rest, piece ≠ [] → IsParameter piece :=
        fun piece hmem => isParameter_of_mem (hpieces ▸ hmem)
      dsimp only
      rw [List.map_cons, Text.map_toList_ofList, String.toList_ofList, List.forall_mem_map,
        ← hpieces]
      refine ⟨⟨hparameter first List.mem_cons_self hne, hopening, hclosing⟩, ?_, hlisted⟩
      intro piece hmem
      rw [String.toList_ofList]
      exact hparameter piece (List.mem_cons_of_mem first hmem) (hrest piece hmem)

/-- What a text lists is found in it. -/
theorem signature?_of_listed {inner : List Char} {name : String} {params : List String}
    (hname : IsName name.toList) (hparams : ∀ param ∈ params, IsParameter param.toList)
    (h : Text.Listed ',' ((name :: params).map String.toList) inner) :
    signature? inner = some (name, params) := by
  have hpieces : ∀ piece ∈ (name :: params).map String.toList, IsParameter piece :=
    List.forall_mem_map.mpr (List.forall_mem_cons.mpr ⟨hname.toIsParameter, hparams⟩)
  have hcut := h.map_trimChars_splitAtChar (by decide) (List.cons_ne_nil _ _)
    (fun piece hmem => (hpieces piece hmem).trimmed)
    (fun piece hmem => (hpieces piece hmem).noComma)
  have haccepted := refused_eq_false_iff.mpr
    ⟨⟨hname.ne_nil, hname.noOpening, hname.noClosing⟩, fun piece hmem =>
      (hpieces piece (List.mem_cons_of_mem name.toList hmem)).ne_nil⟩
  rw [signature?_of_pieces hcut, haccepted, if_neg (by decide), String.ofList_toList,
    Text.map_ofList_toList]

/-- Blanks around a text are not seen in its pieces. -/
theorem signature?_of_padded {inner cs : List Char} (h : Text.Padded inner cs) :
    signature? cs = signature? inner := by
  unfold signature?
  rw [h.map_trimChars_splitAtChar (by decide)]

/-! ## The markers -/

/-- Between two parentheses on each side stands what the key says. -/
theorem unwrapKey?_marked (inner : List Char) :
    unwrapKey? (['(', '('] ++ inner ++ [')', ')']) = some inner := by
  unfold unwrapKey?
  rw [Text.dropPrefix?_eq_some_iff.mpr (List.append_assoc _ _ _)]
  exact Text.dropSuffix?_eq_some_iff.mpr rfl

/-- What is listed starts with the first piece and the blanks before it. -/
theorem Listed.exists_append {first : List Char} {rest : List (List Char)} {cs : List Char}
    (h : Text.Listed ',' (first :: rest) cs) :
    ∃ before after, Text.Blanks before ∧ cs = before ++ (first ++ after) := by
  obtain ⟨padded, hpadded, rfl⟩ := h
  cases hpadded with
  | @cons _ cut _ cuts hfirst _ =>
    obtain ⟨before, after, hbefore, -, rfl⟩ := hfirst
    cases cuts with
    | nil => exact ⟨before, after, hbefore, by simp⟩
    | cons next cuts => exact ⟨before, _, hbefore, by simp [List.intercalate_cons_cons]; rfl⟩

/-- A text that starts with a name does not start with an opening parenthesis. -/
theorem unwrapKey?_of_listed {cs name : List Char} {params : List (List Char)}
    (hname : IsName name) (h : Text.Listed ',' (name :: params) cs) : unwrapKey? cs = some cs := by
  unfold unwrapKey?
  cases hopening : Text.dropPrefix? ['(', '('] cs with
  | none => rfl
  | some rest =>
    exfalso
    obtain ⟨before, after, hbefore, hcs⟩ := Listed.exists_append h
    rw [Text.dropPrefix?_eq_some_iff.mp hopening] at hcs
    cases before with
    | cons c before =>
      obtain rfl := (List.cons.inj hcs).1
      exact absurd (hbefore '(' List.mem_cons_self) (by decide)
    | nil =>
      cases name with
      | nil => exact hname.ne_nil rfl
      | cons c name =>
        obtain rfl := (List.cons.inj hcs).1
        exact hname.noOpening List.mem_cons_self

theorem trimmed_marked (inner : List Char) :
    Text.Trimmed (['(', '('] ++ inner ++ [')', ')']) := by
  constructor
  · intro c hc
    obtain rfl : '(' = c := by simpa using hc
    rfl
  · intro c hc
    rw [List.getLast?_append_of_ne_nil _ (by decide)] at hc
    obtain rfl := Option.some.inj hc
    rfl

/-! ## Keys -/

/-- The name and the parameters that a key is read as. -/
theorem signature_key_iff {key name : String} {params : List String} :
    (unwrapKey? (Text.trimChars key.toList)).bind signature? = some (name, params) ↔
      Declares name params key := by
  have hpadded := Text.padded_trimChars key.toList
  rw [Option.bind_eq_some_iff]
  constructor
  · rintro ⟨inner, hinner, hfound⟩
    obtain ⟨hname, hparams, hlisted⟩ := listed_of_signature? hfound
    refine ⟨hname, hparams, inner, Text.trimChars key.toList, hlisted, ?_, hpadded⟩
    unfold unwrapKey? at hinner
    split at hinner
    · obtain rfl := Option.some.inj hinner
      exact .plain
    · rename_i rest hopening
      rw [Text.dropPrefix?_eq_some_iff.mp hopening, Text.dropSuffix?_eq_some_iff.mp hinner,
        ← List.append_assoc]
      exact .marked
  · rintro ⟨hname, hparams, inner, spelling, hlisted, hspelling, hkey⟩
    cases hspelling with
    | marked =>
      rw [(trimmed_marked inner).trimChars_eq hkey]
      exact ⟨inner, unwrapKey?_marked inner, signature?_of_listed hname hparams hlisted⟩
    | plain =>
      have hfound : signature? (Text.trimChars key.toList) = some (name, params) := by
        rw [← signature?_of_padded hpadded, signature?_of_padded hkey]
        exact signature?_of_listed hname hparams hlisted
      exact ⟨_, unwrapKey?_of_listed hname (listed_of_signature? hfound).2.2, hfound⟩

/-- A key is read in three steps: its blanks and its markers are dropped, and the rest is cut at
commas. -/
theorem parse_eq (key body : String) :
    parse key body = match (unwrapKey? (Text.trimChars key.toList)).bind signature? with
      | none => .error (.badKey key)
      | some (name, params) => .ok (declared name params body) := by
  unfold parse declared
  cases (unwrapKey? (Text.trimChars key.toList)).bind signature? with
  | none => rfl
  | some found =>
    obtain ⟨name, params⟩ := found
    cases params <;> rfl

/-- Just the keys that declare a name are read. -/
theorem parse_eq_ok_iff {key body : String} {m : MacroDefinition} : parse key body = .ok m ↔
    ∃ name params, Declares name params key ∧ m = declared name params body := by
  simp only [← signature_key_iff]
  rw [parse_eq]
  cases hfound : (unwrapKey? (Text.trimChars key.toList)).bind signature? with
  | none => simp
  | some found =>
    obtain ⟨name, params⟩ := found
    simp [eq_comm]

/-- All other keys are refused, with their text. -/
theorem parse_eq_error_iff {key body : String} {e : MacroDefinitionError} :
    parse key body = .error e ↔ e = .badKey key ∧ ¬ ∃ name params, Declares name params key := by
  simp only [← signature_key_iff]
  rw [parse_eq]
  cases hfound : (unwrapKey? (Text.trimChars key.toList)).bind signature? with
  | none => simp [eq_comm]
  | some found =>
    obtain ⟨name, params⟩ := found
    simp

/-- A macro has the name that its key declares, whatever else the key says. -/
theorem name_declared (name : String) (params : List String) (body : String) :
    (declared name params body).name = name := by
  unfold declared
  split <;> rfl

/-- **Which keys declare a macro.** A key is read as a macro just if it lists a name and parameters,
plain or between double parentheses, and the macro is that of this name, these parameters and the
body; every other key is refused. -/
theorem parse_declared (key body : String) :
    (∀ m, parse key body = .ok m ↔
      ∃ name params, Declares name params key ∧ m = declared name params body) ∧
    ∀ e, parse key body = .error e ↔
      e = .badKey key ∧ ¬ ∃ name params, Declares name params key :=
  ⟨fun _ => parse_eq_ok_iff, fun _ => parse_eq_error_iff⟩

example : parse " (( NAME , a))) ) )" "x" = .error (.badKey " (( NAME , a))) ) )") := by cbv

example : parse " (( NAME , a))) " "x" = .ok (.parametric "NAME" ["a)"] "x") := by cbv

end MacroDefinition

end ExamPaper

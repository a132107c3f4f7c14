import ExamPaper.Proofs.Template.Cutting
import ExamPaper.Proofs.Template.Inert

/-!
# Escaped text

`escape` puts a backslash before every character that means something. Whatever the text was, the
engine then takes it for what it is: it is read to its end without a marker, cut nowhere, and
unescaped to the text.

> Expanding an escaped text gives the text, and changes nothing. Escaped texts that `QUOTECOMMA`
> puts together are one argument again, and end as the texts with commas between them
> (`expand_escaped`).
-/

namespace ExamPaper

namespace Template

/-! ## Escaped text is read, cut and unescaped as text -/

/-- A special character is put after a backslash. -/
theorem escape_cons_of_isEscapable {c : Char} (h : isEscapable c = true) (cs : List Char) :
    escape (c :: cs) = '\\' :: c :: escape cs := by
  unfold escape
  rw [List.flatMap_cons, if_pos h]
  rfl

/-- Any other character stays. -/
theorem escape_cons_of_not_isEscapable {c : Char} (h : isEscapable c = false) (cs : List Char) :
    escape (c :: cs) = c :: escape cs := by
  unfold escape
  rw [List.flatMap_cons, h]
  rfl

theorem escape_append (cs ds : List Char) : escape (cs ++ ds) = escape cs ++ escape ds :=
  List.flatMap_append

/-- Plain text needs no escapes. -/
theorem Plain.escape_eq {cs : List Char} (h : Plain cs) : escape cs = cs := by
  induction cs with
  | nil => rfl
  | cons c cs ih =>
    obtain ⟨hc, hcs⟩ := List.forall_mem_cons.mp h
    rw [escape_cons_of_not_isEscapable hc, ih hcs]

/-- Texts put together with escaped commas are the texts put together with commas, escaped. -/
theorem intercalate_escape : ∀ texts : List (List Char),
    ['\\', ','].intercalate (texts.map escape) = escape ([','].intercalate texts)
  | [] => rfl
  | [text] => by simp
  | text :: next :: texts => by
    rw [List.map_cons, List.map_cons, List.intercalate_cons_cons, ← List.map_cons,
      intercalate_escape (next :: texts), List.intercalate_cons_cons, escape_append, escape_append]
    rfl

/-- Taking the escapes back, after any text that is done. -/
theorem unescapeOnto_escape (cs : List Char) :
    ∀ done : List Char, unescapeOnto done (escape cs) = done.reverse ++ cs := by
  induction cs with
  | nil => intro done; exact (List.append_nil _).symm
  | cons c cs ih =>
    intro done
    cases hc : isEscapable c with
    | true =>
      rw [escape_cons_of_isEscapable hc, unescapeOnto, if_pos hc, ih, List.reverse_cons,
        List.append_assoc]
      rfl
    | false =>
      have hescape : c ≠ '\\' := (ne_of_not_isEscapable hc).1
      rw [escape_cons_of_not_isEscapable hc, unescapeOnto_cons hescape, ih, List.reverse_cons,
        List.append_assoc]
      rfl

/-- An escaped text is taken back to the text. -/
theorem unescape_escape (cs : List Char) : unescape (escape cs) = cs := unescapeOnto_escape cs []

namespace Scanner

/-- An escaped text is read to its end wherever it stands. -/
theorem readOn_escape (cs : List Char) : ReadOn (escape cs) := by
  induction cs with
  | nil => exact readOn_nil
  | cons c cs ih =>
    cases hc : isEscapable c with
    | true =>
      have hpair : ReadOn ['\\', c] := fun s => next_escape
      rw [escape_cons_of_isEscapable hc]
      exact hpair.append ih
    | false =>
      have hplain : Plain [c] := List.forall_mem_singleton.mpr hc
      rw [escape_cons_of_not_isEscapable hc]
      exact (readOn_plain hplain.not_marker).append ih

/-- So are escaped texts with commas between them. -/
theorem readOn_commaText (texts : List (List Char)) : ReadOn (commaText (texts.map escape)) := by
  induction texts with
  | nil => exact readOn_nil
  | cons text texts ih =>
    have hcomma : ReadOn [','] := readOn_plain (List.forall_mem_singleton.mpr (by decide))
    exact (hcomma.append (readOn_escape text)).append ih

/-- Of two directives one in the other the inner one comes first. -/
theorem next_nested {before body : List Char} (hbefore : ReadOn before) (hbody : ReadOn body)
    (after : List Char) (s : Scanner) :
    (s.resume (['(', '('] ++ (before ++ (['(', '('] ++ body ++ [')', ')'] ++ after)))).next =
      .directive body ((s.opened.advance before).resume after) := by
  rw [resume_append, next_resume_open]
  show (s.opened.resume (before ++ (['(', '('] ++ body ++ [')', ')'] ++ after))).next = _
  rw [resume_append, hbefore, advance_resume, resume_append, next_directive hbody]

/-- The outer one comes next, with what was put in the place of the inner one. -/
theorem next_outer (before : List Char) {value : List Char} (hvalue : ReadOn value) (s : Scanner) :
    (((s.opened.advance before).resume [')', ')']).resume value).next =
      .directive (before ++ value) s := by
  rw [hvalue, advance_resume, ← advance_append]
  exact next_resume_close (before ++ value) s

end Scanner

/-- Escaped text is not cut. -/
theorem uncut_escape (cs : List Char) : Uncut (escape cs) := by
  induction cs with
  | nil => exact .done
  | cons c cs ih =>
    cases hc : isEscapable c with
    | true =>
      rw [escape_cons_of_isEscapable hc]
      exact ih.escape
    | false =>
      obtain ⟨hescape, -, -, hcomma⟩ := ne_of_not_isEscapable hc
      rw [escape_cons_of_not_isEscapable hc]
      exact ih.character hescape hcomma

/-- Escaped texts are cut apart at the commas between them. -/
theorem cutOnto_commaText (texts : List (List Char)) : ∀ piece : List Char,
    cutOnto piece (commaText (texts.map escape)) = piece.reverse :: texts.map escape := by
  induction texts with
  | nil => intro piece; rfl
  | cons text texts ih =>
    intro piece
    show cutOnto piece (',' :: (escape text ++ commaText (texts.map escape))) = _
    rw [cutOnto_comma, (uncut_escape text).cutOnto_append, List.append_nil, ih,
      List.reverse_reverse]
    rfl

theorem commaText_eq : ∀ {args : List (List Char)}, args ≠ [] →
    commaText args = ',' :: [','].intercalate args
  | [], h => absurd rfl h
  | [arg], _ => by simp [commaText]
  | arg :: next :: args, _ => by
    have hrest := commaText_eq (List.cons_ne_nil next args)
    rw [List.intercalate_cons_cons, List.append_assoc]
    exact congrArg (',' :: arg ++ ·) hrest

/-- A directive of a plain name and escaped arguments is cut into them. -/
theorem splitDirective_escape {name : List Char} (hname : Plain name) (texts : List (List Char)) :
    Engine.splitDirective (name ++ commaText (texts.map escape)) =
      (String.ofList name, (texts.map escape).map String.ofList) := by
  have hcut : arguments (name ++ commaText (texts.map escape)) = name :: texts.map escape := by
    rw [arguments_eq, ← hname.escape_eq, (uncut_escape name).cutOnto_append, cutOnto_commaText,
      List.append_nil, List.reverse_reverse]
  unfold Engine.splitDirective
  rw [hcut]

/-! ## Built-in operators under their own names -/

namespace Engine

/-- The name is neither that of a value nor that of a macro. -/
structure Unshadowed (e : Engine) (s : State) (name : String) : Prop where
  lookup : s.lookup? name = none
  macros : e.macros.get? name = none

variable {ρ : Type} [Draws ρ] {e : Engine} {s : State}

/-- A name that is not taken by anything else stands for its operation. -/
theorem dispatch_operation {name : String} {op : Operation} (h : e.Unshadowed s name)
    (hop : Operation.ofName? name = some op) (args : List String) (r : ρ) :
    e.dispatch name args s r =
      ⟨(op.run e.today s args r).1, s, (op.run e.today s args r).2⟩ := by
  unfold dispatch
  rw [h.lookup, h.macros]
  dsimp only
  split
  -- the names of the operators that store a value are those of no operation
  case h_9 => rw [hop]
  all_goals exact absurd hop (by simp [Operation.ofName?])

/-- A directive of an operation and escaped arguments. -/
theorem carryOut_operation {name : String} {op : Operation} (hname : Plain name.toList)
    (hline : name ≠ "DNL") (h : e.Unshadowed s name) (hop : Operation.ofName? name = some op)
    (texts : List (List Char)) (after : List Char) (r : ρ) :
    e.carryOut (name.toList ++ commaText (texts.map escape)) after s r =
      let (result, r) := op.run e.today s ((texts.map escape).map String.ofList) r
      ⟨result.map fun text => text.toList ++ after, s, r⟩ := by
  unfold carryOut
  rw [splitDirective_escape hname, String.ofList_toList]
  dsimp only
  rw [if_neg hline, dispatch_operation h hop]
  rfl

/-! ## Escaped text expanded -/

/-- Escaped text takes one step, in which it is found to be nothing but text. -/
theorem expandFrom_escape (cs : List Char) (n : Nat) (r : ρ) :
    e.expandFrom (n + 1) ((Scanner.ofText []).resume (escape cs)) s r = ⟨.ok cs, s, r⟩ := by
  have hnext : ((Scanner.ofText []).resume (escape cs)).next = .finished (escape cs) :=
    Scanner.next_finished (Scanner.readOn_escape cs) []
  rw [expandFrom, hnext]
  dsimp only
  rw [unescape_escape]

/-- A directive that quotes escaped texts, as the argument of another. -/
def quotation (texts : List (List Char)) : List Char :=
  ['(', '('] ++ ("ID,".toList ++
    (['(', '('] ++ ("QUOTECOMMA".toList ++ commaText (texts.map escape)) ++ [')', ')'] ++
      [')', ')']))

/-- Escaped texts with escaped commas between them are the escape of one text. -/
theorem toList_quoted (texts : List (List Char)) :
    (String.intercalate "\\," ((texts.map escape).map String.ofList)).toList =
      escape ([','].intercalate texts) := by
  have hlists : ((texts.map escape).map String.ofList).map String.toList = texts.map escape := by
    simp
  rw [String.toList_intercalate, hlists]
  exact intercalate_escape texts

/-- Quoted texts are one text, with escaped commas. -/
theorem carryOut_quoteComma (h : e.Unshadowed s "QUOTECOMMA") (texts : List (List Char))
    (after : List Char) (r : ρ) :
    e.carryOut ("QUOTECOMMA".toList ++ commaText (texts.map escape)) after s r =
      ⟨.ok (escape ([','].intercalate texts) ++ after), s, r⟩ := by
  rw [carryOut_operation (by decide) (by decide) h rfl, ← toList_quoted]
  rfl

/-- A text that is the only argument of `ID` takes the place of the directive. -/
theorem carryOut_identity (h : e.Unshadowed s "ID") (text after : List Char) (r : ρ) :
    e.carryOut ("ID,".toList ++ escape text) after s r = ⟨.ok (escape text ++ after), s, r⟩ := by
  have hbody : "ID,".toList ++ escape text = "ID".toList ++ commaText ([text].map escape) := by
    simp [commaText]
  rw [hbody, carryOut_operation (by decide) (by decide) h rfl]
  show Outcome.mk (.ok ((String.ofList (escape text)).toList ++ after)) s r = _
  rw [String.toList_ofList]

/-- Quoting takes three steps: the inner directive, the outer one, and the text that is left. -/
theorem expandFrom_quotation (hid : e.Unshadowed s "ID") (hquote : e.Unshadowed s "QUOTECOMMA")
    (texts : List (List Char)) (n : Nat) (r : ρ) :
    e.expandFrom (n + 3) ((Scanner.ofText []).resume (quotation texts)) s r =
      ⟨.ok ([','].intercalate texts), s, r⟩ := by
  have hbefore : Scanner.ReadOn "ID,".toList := Scanner.readOn_plain (by simp)
  have hname : Scanner.ReadOn "QUOTECOMMA".toList := Scanner.readOn_plain (by simp)
  have hbody : Scanner.ReadOn ("QUOTECOMMA".toList ++ commaText (texts.map escape)) :=
    hname.append (Scanner.readOn_commaText texts)
  have hvalue : Scanner.ReadOn (escape ([','].intercalate texts)) := Scanner.readOn_escape _
  -- the directive inside is found first, then the one around what it was replaced by
  have hinner := Scanner.next_nested hbefore hbody [')', ')'] (Scanner.ofText [])
  have houter := Scanner.next_outer "ID,".toList hvalue (Scanner.ofText [])
  unfold quotation
  rw [expandFrom_directive hinner, carryOut_quoteComma hquote]
  refine (expandFrom_directive houter (n + 1) s r).trans ?_
  rw [carryOut_identity hid]
  exact expandFrom_escape _ n r

/-- The text with a backslash before every character that means something. -/
def escaped (text : String) : String := String.ofList (escape text.toList)

/-- The characters of the quotation. -/
theorem toList_quotation {texts : List String} (h : texts ≠ []) :
    ("((ID,((QUOTECOMMA," ++ String.intercalate "," (texts.map escaped) ++ "))))").toList =
      quotation (texts.map String.toList) := by
  have hargs : (texts.map String.toList).map escape ≠ [] := by simpa using h
  have hescaped : (texts.map escaped).map String.toList =
      (texts.map String.toList).map escape := by
    simp [escaped]
  unfold quotation
  rw [commaText_eq hargs, String.toList_append, String.toList_append, String.toList_intercalate,
    hescaped]
  simp

/-- **Escaped text stays as it is.** An engine with at least one step expands every escaped text to
the text, and changes neither the state nor the random source. With three steps, and if nothing else
has the names `ID` and `QUOTECOMMA`, escaped texts that are quoted as one argument end as the texts
with commas between them. -/
theorem expand_escaped (hsteps : 1 ≤ e.maxSteps) (s : State) (r : ρ) :
    (∀ text, e.expand (escaped text) s r = ⟨.ok text, s, r⟩) ∧
    (3 ≤ e.maxSteps → e.Unshadowed s "ID" → e.Unshadowed s "QUOTECOMMA" → ∀ texts, texts ≠ [] →
      e.expand ("((ID,((QUOTECOMMA," ++ String.intercalate "," (texts.map escaped) ++ "))))") s r =
        ⟨.ok (String.intercalate "," texts), s, r⟩) := by
  constructor
  · intro text
    obtain ⟨n, hn⟩ : ∃ n, e.maxSteps = n + 1 := ⟨e.maxSteps - 1, by omega⟩
    unfold expand escaped
    rw [String.toList_ofList, hn, Scanner.ofText_eq_resume, expandFrom_escape]
    simp [Except.map]
  · intro hsteps' hid hquote texts htexts
    obtain ⟨n, hn⟩ : ∃ n, e.maxSteps = n + 3 := ⟨e.maxSteps - 3, by omega⟩
    have hjoined : String.ofList ([','].intercalate (texts.map String.toList)) =
        String.intercalate "," texts := by
      have htext : ((",".intercalate texts).toList) = [','].intercalate (texts.map String.toList) :=
        String.toList_intercalate
      rw [← htext, String.ofList_toList]
    unfold expand
    rw [toList_quotation htexts, hn, Scanner.ofText_eq_resume, expandFrom_quotation hid hquote]
    dsimp only [Except.map]
    rw [hjoined]

/-- An engine with a macro for a comma, and no more steps than quoting takes. -/
def quotingEngine : Engine := { macros := MacroTable.add ∅ (.constant "COMMA" ","), maxSteps := 3 }

/-- A state with a variable and a metadata entry. -/
def quotingState : State := (State.store {} "x" "1").setMetadata "COUNTER" "2"

/-- Texts with commas, parentheses and backslashes, and one that is empty. -/
def specialTexts : List String := ["a,b", "((é)\\", "", "\\))"]

theorem expand_escaped_specialTexts :
    1 ≤ quotingEngine.maxSteps ∧ 3 ≤ quotingEngine.maxSteps ∧
    quotingEngine.Unshadowed quotingState "ID" ∧
    quotingEngine.Unshadowed quotingState "QUOTECOMMA" ∧ specialTexts ≠ [] ∧
    quotingEngine.expand (escaped "\\((x,\\\\))") quotingState zeroSource =
      ⟨.ok "\\((x,\\\\))", quotingState, zeroSource⟩ ∧
    quotingEngine.expand ("((ID,((QUOTECOMMA," ++
        String.intercalate "," (specialTexts.map escaped) ++ "))))") quotingState zeroSource =
      ⟨.ok "a,b,((é)\\,,\\))", quotingState, zeroSource⟩ := by
  have hid : quotingEngine.Unshadowed quotingState "ID" := ⟨rfl, rfl⟩
  have hquote : quotingEngine.Unshadowed quotingState "QUOTECOMMA" := ⟨rfl, rfl⟩
  have htexts : specialTexts ≠ [] := List.cons_ne_nil _ _
  have hsteps : 1 ≤ quotingEngine.maxSteps := by decide
  obtain ⟨halone, hquoted⟩ := expand_escaped hsteps quotingState zeroSource
  exact ⟨hsteps, by decide, hid, hquote, htexts, halone _,
    hquoted (by decide) hid hquote specialTexts htexts⟩

end Engine

end Template

end ExamPaper

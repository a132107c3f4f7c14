import ExamPaper.Proofs.Template.Bytes
import ExamPaper.Proofs.Template.Checked

/-!
# Expansion with every partial step checked

`expandChecked` expands a text by offsets. It finds directives byte by byte, takes slices of the text
at the offsets found, and puts replacements between offsets; a slice that is out of range or cuts a
character is a fault, and so is every impossible step of an operation.

> A checked expansion ends as the expansion does, unless that ends with an error that stands for a
> fault (`expandChecked_eq`): no slice is ever out of place, no draw is from nothing, and what can
> break a run off is a number of decimals or a count of excluded values beyond the limit
> (`expandChecked_refused`).
-/

namespace ExamPaper

namespace Text

/-- A text cut after some bytes, unless there are fewer or the cut goes through a character. -/
def cut? : Nat → List Char → Option (List Char × List Char)
  | 0, cs => some ([], cs)
  | _ + 1, [] => none
  | n + 1, c :: cs =>
    if c.utf8Size ≤ n + 1 then
      (cut? (n + 1 - c.utf8Size) cs).map fun (before, after) => (c :: before, after)
    else none

/-- A text can be cut after each of its beginnings. -/
theorem cut?_append (before after : List Char) :
    cut? (utf8Size before) (before ++ after) = some (before, after) := by
  induction before with
  | nil => cases after <;> rfl
  | cons c before ih =>
    have hpos := c.utf8Size_pos
    obtain ⟨n, hn⟩ : ∃ n, utf8Size (c :: before) = n + 1 :=
      ⟨c.utf8Size + utf8Size before - 1, by rw [utf8Size_cons]; omega⟩
    have hsize : n + 1 - c.utf8Size = utf8Size before := by rw [← hn, utf8Size_cons]; omega
    have hle : c.utf8Size ≤ n + 1 := by rw [← hn, utf8Size_cons]; omega
    rw [hn, List.cons_append, cut?, if_pos hle, hsize, ih]
    rfl

end Text

namespace Template

namespace Checked

/-- A difference of offsets. -/
def sub (m n : Nat) : Checked Nat := if n ≤ m then .ok (m - n) else .error .overflow

/-- A text cut at an offset. -/
def cut (offset : Nat) (text : List Char) : Checked (List Char × List Char) :=
  match Text.cut? offset text with
  | none => .error .slice
  | some parts => .ok parts

/-- The part of a text between offsets. -/
def slice (start stop : Nat) (text : List Char) : Checked (List Char) := do
  let (upTo, _) ← cut stop text
  let (_, part) ← cut start upTo
  .ok part

/-- A text with another one between offsets. -/
def splice (start stop : Nat) (new text : List Char) : Checked (List Char) := do
  let _ ← slice start stop text
  let (before, _) ← cut start text
  let (_, after) ← cut stop text
  .ok (before ++ new ++ after)

/-- What is between the markers of a directive. -/
def body (span : Scanner.Span) (text : List Char) : Checked (List Char) := do
  let stop ← sub span.stop 2
  slice (span.start + 2) stop text

/-- The offset after the next line break from an offset on, the end of the text if there is none. -/
def lineEnd (offset : Nat) (text : List Char) : Checked Nat := do
  let (_, rest) ← cut offset text
  .ok (if rest.contains '\n' then offset + Text.utf8Size (rest.takeWhile (· ≠ '\n')) + 1
    else Text.utf8Size text)

/-- A cut at a boundary does not break off. -/
theorem cut_eq {offset : Nat} {text before after : List Char} (htext : text = before ++ after)
    (hoffset : offset = Text.utf8Size before) : cut offset text = .ok (before, after) := by
  subst htext hoffset
  unfold cut
  rw [Text.cut?_append]

variable {start stop : Nat} {text before part after : List Char}

/-- A slice between two boundaries does not break off. -/
theorem slice_eq (htext : text = before ++ part ++ after) (hstart : start = Text.utf8Size before)
    (hstop : stop = Text.utf8Size (before ++ part)) : slice start stop text = .ok part := by
  unfold slice
  rw [cut_eq htext hstop]
  show (cut start (before ++ part) >>= _) = _
  rw [cut_eq rfl hstart]
  rfl

theorem splice_eq (htext : text = before ++ part ++ after) (hstart : start = Text.utf8Size before)
    (hstop : stop = Text.utf8Size (before ++ part)) (new : List Char) :
    splice start stop new text = .ok (before ++ new ++ after) := by
  unfold splice
  rw [slice_eq htext hstart hstop, cut_eq (htext.trans (List.append_assoc ..)) hstart,
    cut_eq htext hstop]
  rfl

end Checked

/-- What follows the next line break comes after a part that ends with it. -/
theorem Scanner.exists_append_afterLine (rest : List Char) :
    ∃ line, rest = line ++ afterLine rest ∧ Text.utf8Size line =
      if rest.contains '\n' then Text.utf8Size (rest.takeWhile (· ≠ '\n')) + 1
      else Text.utf8Size rest := by
  unfold afterLine
  induction rest with
  | nil => exact ⟨[], rfl, rfl⟩
  | cons c rest ih =>
    by_cases hc : c = '\n'
    · subst hc
      exact ⟨['\n'], rfl, by simp; rfl⟩
    · obtain ⟨line, hline, hsize⟩ := ih
      have hne : ('\n' == c) = false := by simpa using fun h : '\n' = c => hc h.symm
      refine ⟨c :: line, ?_, ?_⟩
      · rw [List.dropWhile_cons_of_pos (by simpa using hc), List.cons_append, ← hline]
      · rw [List.takeWhile_cons_of_pos (by simpa using hc), List.contains_cons, hne,
          Bool.false_or, Text.utf8Size_cons, hsize, Text.utf8Size_cons, Text.utf8Size_cons]
        split <;> omega

namespace Engine

variable {ρ : Type} [Draws ρ]

/-- The text that a name applied to arguments stands for. -/
def dispatchChecked (e : Engine) (name : String) (args : List String) (s : State) (r : ρ) :
    Checked (Outcome ρ String) :=
  match s.lookup? name with
  | some value => .ok ⟨.ok value, s, r⟩
  | none =>
    match e.macros.get? name with
    | some m => .ok ⟨(m.apply args).mapError .definition, s, r⟩
    | none =>
      match name, args with
      | "SAVE", var :: key :: rest => (dispatchChecked e key rest s r).map (storeResult var "")
      | "SAVE", args => .ok ⟨.error (.arity "SAVE" "at least 2" args.length), s, r⟩
      | "VAR", var :: key :: rest =>
        (dispatchChecked e key rest s r).map (storeResult var ("((" ++ var ++ "))"))
      | "VAR", args => .ok ⟨.error (.arity "VAR" "at least 2" args.length), s, r⟩
      | "VARINT", var :: rest =>
        (dispatchChecked e "INT" rest s r).map (storeResult var ("((" ++ var ++ "))"))
      | "VARINT", [] => .ok ⟨.error (.arity "VARINT" "at least 1" 0), s, r⟩
      | "VARFLOAT", var :: rest =>
        (dispatchChecked e "FLOAT" rest s r).map (storeResult var ("((" ++ var ++ "))"))
      | "VARFLOAT", [] => .ok ⟨.error (.arity "VARFLOAT" "at least 1" 0), s, r⟩
      | name, args =>
        match Operation.ofName? name with
        | none => .ok ⟨.error (.unknown name), s, r⟩
        | some op => (op.runChecked e.today s args r).map fun (result, r) => ⟨result, s, r⟩

/-- Expands the directives of a text from the position of a scanner on. -/
def expandFromChecked (e : Engine) : Nat → List Char → ByteScanner → State → ρ →
    Checked (Outcome ρ (List Char))
  | 0, _, _, s, r => .ok ⟨.error (.expansionLimit e.maxSteps), s, r⟩
  | steps + 1, text, scanner, s, r =>
    match scanner.next text with
    | .finished => .ok ⟨.ok (unescape text), s, r⟩
    | .unterminated start => do
      let (_, rest) ← Checked.cut start text
      .ok ⟨.error (unterminatedError rest), s, r⟩
    | .directive span scanner => do
      let body ← Checked.body span text
      let (name, args) := splitDirective body
      if name = "DNL" then
        let stop ← Checked.lineEnd span.stop text
        let text ← Checked.splice span.start stop [] text
        expandFromChecked e steps text scanner s r
      else
        let o ← dispatchChecked e name args s r
        match o.result with
        | .error error => .ok ⟨.error error, o.state, o.rng⟩
        | .ok new =>
          let text ← Checked.splice span.start span.stop new.toList text
          expandFromChecked e steps text scanner o.state o.rng

/-- Expands a text. -/
def expandChecked (e : Engine) (text : String) (s : State) (r : ρ) : Checked (Outcome ρ String) :=
  (expandFromChecked e e.maxSteps text.toList {} s r).map (Outcome.map String.ofList)

/-! ## Directives -/

/-- An outcome, if it stands for no fault. -/
def settled {α : Type} (o : Outcome ρ α) : Checked (Outcome ρ α) := settle o.result o

variable {e : Engine}

omit [Draws ρ] in
theorem settled_map {α β : Type} (f : α → β) (o : Outcome ρ α) :
    (settled o).map (Outcome.map f) = settled (o.map f) :=
  (map_settle o.result _ o).trans (settle_map o.result f _).symm

omit [Draws ρ] in
/-- Storing a result is no partial step. -/
theorem settled_storeResult (name reply : String) (o : Outcome ρ String) :
    (settled o).map (storeResult name reply) = settled (storeResult name reply o) := by
  unfold settled
  rw [map_settle, storeResult_result, settle_map]

/-- A directive is carried out with every partial step checked as it is carried out without. -/
theorem dispatchChecked_eq (name : String) (args : List String) (s : State) (r : ρ) :
    e.dispatchChecked name args s r = settled (e.dispatch name args s r) := by
  fun_induction dispatch e name args s r
  case case1 hlookup => rw [dispatchChecked.eq_def, hlookup]; rfl
  case case2 args _ hlookup m hmacro =>
    rw [dispatchChecked.eq_def, hlookup, hmacro]
    cases happly : m.apply args <;> dsimp only <;> rw [happly] <;> rfl
  case case3 hlookup hmacro ih | case5 hlookup hmacro ih | case7 hlookup hmacro ih |
      case9 hlookup hmacro ih =>
    -- the operators that store a value apply another one
    simp only [dispatchChecked, hlookup, hmacro, ih]
    exact settled_storeResult _ _ _
  case case4 hargs hlookup hmacro | case6 hargs hlookup hmacro =>
    simp only [dispatchChecked, hlookup, hmacro]
    rfl
  case case8 hlookup hmacro | case10 hlookup hmacro =>
    simp only [dispatchChecked, hlookup, hmacro]
    rfl
  case case11 hop hlookup hmacro =>
    simp only [dispatchChecked, hlookup, hmacro, hop]
    rfl
  case case12 hop result r' hrun hlookup hmacro =>
    simp only [dispatchChecked, hlookup, hmacro, hop, Operation.runChecked_eq, hrun]
    exact map_settle _ _ _

/-! ## Slices of a text in which a directive was found -/

theorem utf8Size_marks : Text.utf8Size ['(', '('] = 2 ∧ Text.utf8Size [')', ')'] = 2 := ⟨rfl, rfl⟩

section

variable {body : List Char} {scanner : Scanner} {text : List Char}
  (htext : text = scanner.readText ++ '(' :: '(' :: body ++ ')' :: ')' :: scanner.rest)

include htext

/-- The text between the markers of a directive is that of the directive. -/
theorem body_eq : Checked.body (scanner.span body) text = .ok body := by
  obtain ⟨hopen, hclose⟩ := utf8Size_marks
  have hsub : Checked.sub (scanner.span body).stop 2 = .ok ((scanner.span body).stop - 2) :=
    if_pos (Nat.le_add_left_of_le (by decide))
  have hparts : text = scanner.readText ++ ['(', '('] ++ body ++ (')' :: ')' :: scanner.rest) := by
    simp [htext]
  unfold Checked.body
  rw [hsub]
  refine Checked.slice_eq hparts ?_ ?_ <;> simp only [Text.utf8Size_append] <;>
    unfold Scanner.span Scanner.position <;> dsimp only <;> omega

/-- A text takes the place of the directive, its markers and a text after it. -/
theorem splice_eq (line : List Char) {after : List Char} (hrest : scanner.rest = line ++ after)
    (new : List Char) :
    Checked.splice (scanner.span body).start
      ((scanner.span body).stop + Text.utf8Size line) new text =
      .ok (scanner.readText ++ new ++ after) := by
  obtain ⟨hopen, hclose⟩ := utf8Size_marks
  have hparts : text =
      scanner.readText ++ (['(', '('] ++ body ++ [')', ')'] ++ line) ++ after := by
    simp [htext, hrest]
  refine Checked.splice_eq hparts rfl ?_ new
  simp only [Text.utf8Size_append]
  unfold Scanner.span Scanner.position
  dsimp only
  omega

/-- A text takes the place of the directive, and the scanner goes on with it. -/
theorem splice_resume (new : List Char) :
    Checked.splice (scanner.span body).start (scanner.span body).stop new text =
      .ok (scanner.resume new).text := by
  have hspliced : scanner.readText ++ new ++ scanner.rest = (scanner.resume new).text :=
    List.append_assoc ..
  exact hspliced ▸ splice_eq htext [] rfl new

/-- What follows the line of a directive begins where the line ends. -/
theorem exists_lineEnd : ∃ line, scanner.rest = line ++ Scanner.afterLine scanner.rest ∧
    Checked.lineEnd (scanner.span body).stop text =
      .ok ((scanner.span body).stop + Text.utf8Size line) := by
  obtain ⟨hopen, hclose⟩ := utf8Size_marks
  obtain ⟨line, hline, hsize⟩ := Scanner.exists_append_afterLine scanner.rest
  have hparts : text = (scanner.readText ++ ['(', '('] ++ body ++ [')', ')']) ++ scanner.rest := by
    simp [htext]
  have hstop : (scanner.span body).stop =
      Text.utf8Size (scanner.readText ++ ['(', '('] ++ body ++ [')', ')']) := by
    simp only [Text.utf8Size_append]
    unfold Scanner.span Scanner.position
    dsimp only
    omega
  refine ⟨line, hline, ?_⟩
  unfold Checked.lineEnd
  rw [Checked.cut_eq hparts hstop, hsize]
  show Except.ok _ = Except.ok _
  split
  · rfl
  · -- without a line break the line ends with the text
    rw [hstop, ← Text.utf8Size_append, ← hparts]

/-- The directive is dropped with the rest of its line. -/
theorem splice_dropLine : ∃ stop,
    Checked.lineEnd (scanner.span body).stop text = .ok stop ∧
    Checked.splice (scanner.span body).start stop [] text = .ok scanner.dropLine.text := by
  obtain ⟨line, hrest, hstop⟩ := exists_lineEnd htext
  have hspliced : scanner.readText ++ [] ++ Scanner.afterLine scanner.rest =
      scanner.dropLine.text := by
    rw [List.append_nil]
    rfl
  exact ⟨_, hstop, hspliced ▸ splice_eq htext line hrest []⟩

end

/-! ## Expansion -/

/-- From where a scanner stands, a checked expansion does what the expansion does. -/
theorem expandFromChecked_eq : ∀ (steps : Nat) (scanner : Scanner) (s : State) (r : ρ),
    e.expandFromChecked steps scanner.text (.ofScanner scanner) s r =
      settled (e.expandFrom steps scanner s r) := by
  intro steps
  induction steps with
  | zero => intro scanner s r; rfl
  | succ steps ih =>
    intro scanner s r
    have hcuts := Scanner.cuts_next scanner
    rw [expandFromChecked, expandFrom, ByteScanner.next_ofScanner]
    cases hnext : scanner.next with
    | finished text =>
      rw [hnext] at hcuts
      have htext : scanner.text = text := hcuts
      rw [htext]
      rfl
    | unterminated rest =>
      rw [hnext] at hcuts
      -- the error shows the text from the open marker on
      obtain ⟨before, hbefore⟩ := hcuts
      have hstart : Text.utf8Size scanner.text - Text.utf8Size rest = Text.utf8Size before := by
        rw [hbefore, Text.utf8Size_append]
        omega
      dsimp only [Finding.inBytes]
      rw [Checked.cut_eq hbefore hstart]
      rfl
    | directive body scanner' =>
      rw [hnext] at hcuts
      have htext : scanner.text =
          scanner'.readText ++ '(' :: '(' :: body ++ ')' :: ')' :: scanner'.rest := hcuts
      dsimp only [Finding.inBytes]
      rw [body_eq htext]
      dsimp only [bind, Except.bind]
      by_cases hline : (splitDirective body).1 = "DNL"
      · obtain ⟨stop, hstop, hsplice⟩ := splice_dropLine htext
        rw [if_pos hline, if_pos hline, hstop]
        dsimp only
        rw [hsplice]
        exact ih scanner'.dropLine s r
      · rw [if_neg hline, if_neg hline, dispatchChecked_eq]
        generalize e.dispatch (splitDirective body).1 (splitDirective body).2 s r = o
        obtain ⟨result, s', r'⟩ := o
        cases result with
        | ok new =>
          show (Checked.splice _ _ new.toList _ >>= _) = _
          rw [splice_resume htext]
          exact ih (scanner'.resume new.toList) s' r'
        | error error =>
          -- both break off, or both end with the error
          unfold settled settle
          dsimp only
          cases fault? error <;> rfl

/-! ## Faults -/

/-- A call reports too many decimals only if they are. -/
theorem sparing_dispatch (name : String) (args : List String) (s : State) (r : ρ) :
    Sparing (e.dispatch name args s r).result :=
  (failsOnly_dispatch ofArguments_spares (fun _ => nofun) (fun _ => nofun) name args s r).sparing

/-- So does a whole expansion. -/
theorem sparing_expandFrom : ∀ (steps : Nat) (scanner : Scanner) (s : State) (r : ρ),
    Sparing (e.expandFrom steps scanner s r).result := by
  intro steps
  induction steps with
  | zero =>
    intro scanner s r name places he
    exact absurd he (by simp [expandFrom])
  | succ steps ih =>
    intro scanner s r
    rw [expandFrom]
    cases scanner.next with
    | finished text => exact (failsOnly_ok _).sparing
    | unterminated rest =>
      intro name places he
      exact absurd he (by simp [unterminatedError])
    | directive body scanner' =>
      dsimp only
      split
      · exact ih _ _ _
      · -- an error of the directive ends the expansion
        have hdispatch := sparing_dispatch (e := e) (splitDirective body).1 (splitDirective body).2 s r
        generalize e.dispatch (splitDirective body).1 (splitDirective body).2 s r = o at hdispatch
        obtain ⟨result, s', r'⟩ := o
        cases result with
        | ok new => exact ih _ _ _
        | error error =>
          intro name places he
          exact hdispatch name places (congrArg Except.error (Except.error.inj he))

/-- A result that is sparing with decimals stands for no other fault. -/
theorem fault_of_settle {α β : Type} {result : Except TemplateError α} (h : Sparing result)
    {outcome : β} {fault : Fault} (hfault : settle result outcome = .error fault) :
    fault = .overflow ∨ ∃ places, maxPlaces < places ∧ fault = .precision places := by
  cases result with
  | ok a => exact absurd hfault (by simp [settle])
  | error e =>
    cases e with
    | tooManyPlaces name places =>
      exact .inr ⟨places, h name places rfl, (Except.error.inj hfault).symm⟩
    | overflow name => exact .inl (Except.error.inj hfault).symm
    | _ => exact absurd hfault (by simp [settle, fault?])

/-- **Checked expansion.** With every partial step checked, the slices of the text among them, an
expansion ends as it does without the checks, unless it would end with an error that stands for a
fault. It is broken off for nothing but more decimals than a number can be printed with, and a count
that does not fit. -/
theorem expandChecked_eq (e : Engine) (text : String) (s : State) (r : ρ) :
    e.expandChecked text s r = settled (e.expand text s r) ∧
    ∀ fault, e.expandChecked text s r = .error fault →
      fault = .overflow ∨ ∃ places, maxPlaces < places ∧ fault = .precision places := by
  have hfrom : e.expandFromChecked e.maxSteps text.toList {} s r =
      settled (e.expandFrom e.maxSteps (.ofText text.toList) s r) :=
    expandFromChecked_eq e.maxSteps (.ofText text.toList) s r
  have hexpand : e.expandChecked text s r =
      (settled (e.expandFrom e.maxSteps (.ofText text.toList) s r)).map
        (Outcome.map String.ofList) := by
    unfold expandChecked
    rw [hfrom]
  refine ⟨hexpand.trans (settled_map String.ofList _), ?_⟩
  intro fault hfault
  rw [hexpand, settled, map_settle] at hfault
  exact fault_of_settle (sparing_expandFrom e.maxSteps _ s r) hfault

/-- What a checked run was broken off for. -/
def brokenOffFor? {α : Type} : Checked α → Option Fault
  | .ok _ => none
  | .error fault => some fault

theorem eq_error_of_brokenOffFor? {α : Type} {x : Checked α} {fault : Fault}
    (h : brokenOffFor? x = some fault) : x = .error fault := by
  cases x with
  | ok a => exact absurd h (by simp [brokenOffFor?])
  | error other => exact congrArg Except.error (Option.some.inj h)

/-- Two directives that break an expansion off: one asks for more decimals than a number can be
printed with, and one excludes as many values as can be counted. -/
theorem expandChecked_refused :
    bare.expandChecked "((FLOAT,0,1,65536))" {} zeroSource = .error (.precision 65536) ∧
    bare.expandChecked "((OPEXCEPT,18446744073709551615,a))" {} zeroSource = .error .overflow :=
  ⟨eq_error_of_brokenOffFor? (by decide +kernel), rfl⟩

end Engine

end Template

end ExamPaper

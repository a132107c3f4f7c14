import ExamPaper.Proofs.Template.Escaping
import ExamPaper.Proofs.Template.RandomInteger
import ExamPaper.Proofs.Template.Reference
import ExamPaper.Proofs.Text.Integer

/-!
# Random integers under a name

A number that was drawn is to be the same wherever it is shown. The directive
`((VARINT,n,1,9,2))` draws a number, stores it under `n`, and puts `((n))` in its own place. The scan
goes on there and finds the name, which stands for what has been stored, and so does every `((n))`
further on. `((VAR,n,INT,1,9,2))` does the same.

> The directive and a name after it show one number of the range, which is all that is drawn and all
> that is stored (`expand_declared`).
-/

namespace ExamPaper

namespace Template

/-! ## Ranges as they are written -/

theorem not_isEscapable_of_isDigit {c : Char} (h : c.isDigit = true) : isEscapable c = false := by
  unfold isEscapable
  simp only [Bool.or_eq_false_iff, beq_eq_false_iff_ne]
  refine ⟨⟨⟨?_, ?_⟩, ?_⟩, ?_⟩ <;> (rintro rfl; exact absurd h (by decide))

/-- A number is written without a special character. -/
theorem plain_repr (n : Int) : Plain (Int.repr n).toList := by
  intro c hc
  rcases Text.mem_repr c hc with rfl | hdigit
  · rfl
  · exact not_isEscapable_of_isDigit hdigit

namespace IntRange

variable {range : IntRange}

/-- The texts of the bounds and of the step. -/
def texts (range : IntRange) : List String :=
  [Int.repr range.min, Int.repr range.max, Int.repr range.step]

/-- The bounds and the step with commas between them. -/
def text (range : IntRange) : String :=
  Int.repr range.min ++ "," ++ Int.repr range.max ++ "," ++ Int.repr range.step

/-- So are the numbers of a range. -/
theorem plain_texts : ∀ text ∈ range.texts, Plain text.toList := by
  simp [texts, plain_repr]

/-- The bounds and the step fit 64 bits. -/
structure Fits (range : IntRange) : Prop where
  min : fitsSigned range.min = true
  max : fitsSigned range.max = true
  step : fitsSigned range.step = true

/-- A range that fits is read back from its own texts. -/
theorem Fits.writtenAs (h : range.Fits) : range.WrittenAs range.texts := by
  refine .stepped ?_ ?_ ?_ <;> rw [Text.trim_repr, Text.int64?_repr]
  · exact h.min
  · exact h.max
  · exact h.step

end IntRange

/-- A variable that no entry of the metadata hides has the value that was stored. -/
theorem State.lookup?_store {s : State} {name : String} (h : s.metadata.get? name = none)
    (value : String) : (s.store name value).lookup? name = some value := by
  have hmetadata : (s.store name value).metadata.get? name = none := h
  unfold lookup?
  rw [hmetadata, get?_store, if_pos rfl]
  rfl

namespace Engine

variable {ρ : Type} [Draws ρ] {e : Engine} {s : State} {name : String} {range : IntRange}
  {operator : String} {args : List String}

/-! ## Drawing and storing -/

/-- A call that draws an integer of a range for a variable. -/
inductive Declares (name : String) (range : IntRange) : String → List String → Prop where
  | varInt : Declares name range "VARINT" (name :: range.texts)
  | var : Declares name range "VAR" (name :: "INT" :: range.texts)

/-- Both ways to declare a variable call `INT` and put the name in markers. -/
theorem dispatch_declares (h : Declares name range operator args)
    (hoperator : e.Unshadowed s operator) (r : ρ) :
    e.dispatch operator args s r =
      storeResult name ("((" ++ name ++ "))") (e.dispatch "INT" range.texts s r) := by
  cases h <;> (rw [dispatch.eq_def, hoperator.lookup, hoperator.macros]; rfl)

/-- A call of `INT` with a written range draws a number of steps once. -/
theorem dispatch_int (hint : e.Unshadowed s "INT") (hfits : range.Fits) {count : Nat}
    (hsteps : range.steps = .ok count) (r : ρ) :
    e.dispatch "INT" range.texts s r =
      ⟨.ok (Int.repr (range.min + (Draws.below (count + 1) r).1 * range.step)), s,
        (Draws.below (count + 1) r).2⟩ := by
  rw [dispatch_operation hint rfl,
    Operation.run_int_of_steps (IntRange.ofArgs_of_writtenAs hfits.writtenAs) hsteps]

/-- A declaration with a plain name has plain texts only. -/
theorem Declares.plain (h : Declares name range operator args) (hname : Plain name.toList) :
    Plain operator.toList ∧ operator ≠ "DNL" ∧ ∀ arg ∈ args.map String.toList, Plain arg := by
  have htexts := range.plain_texts
  cases h with
  | varInt => exact ⟨by decide, by decide, by simpa [hname] using htexts⟩
  | var =>
    have hint : Plain "INT".toList := by decide
    refine ⟨by decide, by decide, ?_⟩
    rw [List.map_cons, List.map_cons, List.forall_mem_cons, List.forall_mem_cons]
    exact ⟨hname, hint, by simpa using htexts⟩

/-! ## Showing what was stored -/

/-- Plain text that follows plain text outside of markers takes one step. -/
theorem expandFrom_plain {done cs : List Char} (hdone : Plain done) (hcs : Plain cs) (n : Nat)
    (r : ρ) : e.expandFrom (n + 1) (((Scanner.ofText []).advance done).resume cs) s r =
      ⟨.ok (done ++ cs), s, r⟩ := by
  rw [expandFrom, Scanner.next_finished (Scanner.readOn_plain hcs.not_marker)]
  dsimp only
  rw [(hdone.append hcs).unescape_eq]

/-- A call that leaves a name in markers in its place, and the same name after it, show the value
of the name twice: the call, the two names and the end of the text take four steps. -/
theorem expandFrom_shown {s' : State} {r r' : ρ} {value : String}
    (hoperator : Plain operator.toList) (hcallLine : operator ≠ "DNL")
    (hargs : ∀ arg ∈ args.map String.toList, Plain arg)
    (hcall : e.dispatch operator args s r = ⟨.ok ("((" ++ name ++ "))"), s', r'⟩)
    (hname : Plain name.toList) (hline : name ≠ "DNL") (hlookup : s'.lookup? name = some value)
    (hvalue : Plain value.toList) (n : Nat) :
    e.expandFrom (n + 4) ((Scanner.ofText []).resume
        (['(', '('] ++ (operator.toList ++ commaText (args.map String.toList)) ++ [')', ')'] ++
          ([' '] ++ (['(', '('] ++ name.toList ++ [')', ')'])))) s r =
      ⟨.ok (value.toList ++ [' '] ++ value.toList), s', r'⟩ := by
  have hblank : Plain (value.toList ++ [' ']) := hvalue.append (by decide)
  have hmarked : ("((" ++ name ++ "))").toList = ['(', '('] ++ name.toList ++ [')', ')'] := by simp
  rw [expandFrom_resume_call hoperator hcallLine hargs, hcall]
  show e.expandFrom (n + 3) _ s' r' = _
  -- the scan finds the name in the place of the call, and then the value, which is read on
  rw [hmarked, expandFrom_name hname hline hlookup, ← List.append_assoc, Scanner.resume_append,
    expandFrom_congr (Scanner.readOn_plain hblank.not_marker _), Scanner.advance_resume,
    ← List.append_nil (_ ++ [')', ')']), expandFrom_name hname hline hlookup, List.append_nil]
  exact expandFrom_plain hblank hvalue n r'

/-- A declaration and the name after it show the number drawn, and store it. -/
theorem expand_declares (h : Declares name range operator args)
    (hoperator : e.Unshadowed s operator) (hplain : Plain name.toList) (hline : name ≠ "DNL")
    (hmetadata : s.metadata.get? name = none) (hint : e.Unshadowed s "INT")
    (hlimit : 4 ≤ e.maxSteps) (hfits : range.Fits) {count : Nat} (hsteps : range.steps = .ok count)
    {r r' : ρ} {k : Nat} (hdraw : Draws.below (count + 1) r = (k, r')) {value : String}
    (hvalue : value = Int.repr (range.min + k * range.step)) {text : String}
    (htext : text.toList =
      ['(', '('] ++ (operator.toList ++ commaText (args.map String.toList)) ++ [')', ')'] ++
        ([' '] ++ (['(', '('] ++ name.toList ++ [')', ')']))) :
    e.expand text s r = ⟨.ok (value ++ " " ++ value), s.store name value, r'⟩ := by
  obtain ⟨n, hn⟩ := Nat.exists_eq_add_of_le' hlimit
  obtain ⟨hoperatorPlain, hoperatorLine, hargs⟩ := h.plain hplain
  have hcall : e.dispatch operator args s r =
      ⟨.ok ("((" ++ name ++ "))"), s.store name value, r'⟩ := by
    rw [dispatch_declares h hoperator, dispatch_int hint hfits hsteps, hdraw, hvalue]
    rfl
  have hshown := expandFrom_shown hoperatorPlain hoperatorLine hargs hcall hplain hline
    (State.lookup?_store hmetadata value) (hvalue ▸ plain_repr _) n
  rw [← htext, ← Scanner.ofText_eq_resume, ← hn] at hshown
  unfold expand
  rw [hshown]
  simp [Except.map, String.append_assoc]

/-- **Declared integers.** Let a name be plain, other than `DNL`, and no key of the metadata. A
directive that declares a random integer of a range under the name, followed by the name in markers,
becomes two copies of one text. The text is that of the number so many steps above the minimum, which
does not exceed the maximum; the number of steps is drawn with one draw, and nothing else is drawn.
Then the variable holds the text, and neither another variable nor the metadata has changed. -/
theorem expand_declared (hplain : Plain name.toList) (hline : name ≠ "DNL")
    (hmetadata : s.metadata.get? name = none) (hint : e.Unshadowed s "INT")
    (hlimit : 4 ≤ e.maxSteps) (hfits : range.Fits) (hdrawable : range.Drawable) (r : ρ) :
    ∃ (count k : Nat) (value : String) (s' : State) (r' : ρ),
      (count : Int) = (range.max - range.min) / range.step ∧
      Draws.below (count + 1) r = (k, r') ∧
      value = Int.repr (range.min + k * range.step) ∧ range.min + k * range.step ≤ range.max ∧
      (e.Unshadowed s "VARINT" →
        e.expand ("((VARINT," ++ name ++ "," ++ range.text ++ ")) ((" ++ name ++ "))") s r =
          ⟨.ok (value ++ " " ++ value), s', r'⟩) ∧
      (e.Unshadowed s "VAR" →
        e.expand ("((VAR," ++ name ++ ",INT," ++ range.text ++ ")) ((" ++ name ++ "))") s r =
          ⟨.ok (value ++ " " ++ value), s', r'⟩) ∧
      s'.metadata = s.metadata ∧ s'.vars.get? name = some value ∧
      ∀ other, other ≠ name → s'.vars.get? other = s.vars.get? other := by
  obtain ⟨count, hsteps, hspans⟩ := hdrawable.spans
  rcases hdraw : Draws.below (count + 1) r with ⟨k, r'⟩
  have hk : k ≤ count := by
    have hlt := Draws.below_lt r (Nat.succ_pos count)
    rw [Nat.succ_eq_add_one, hdraw] at hlt
    exact Nat.le_of_lt_succ hlt
  obtain ⟨-, hway⟩ := hspans.way_le hk
  obtain ⟨value, hvalue⟩ : ∃ value, value = Int.repr (range.min + k * range.step) := ⟨_, rfl⟩
  refine ⟨count, k, value, s.store name value, r', hspans.steps_eq, hdraw, hvalue, by omega,
    fun hoperator => ?_, fun hoperator => ?_, rfl, ?_, fun other hother => ?_⟩
  · exact expand_declares .varInt hoperator hplain hline hmetadata hint hlimit hfits hsteps hdraw
      hvalue (by simp [commaText, IntRange.texts, IntRange.text])
  · exact expand_declares .var hoperator hplain hline hmetadata hint hlimit hfits hsteps hdraw
      hvalue (by simp [commaText, IntRange.texts, IntRange.text])
  · rw [State.get?_store, if_pos rfl]
  · rw [State.get?_store, if_neg hother]

/-- The fourth of the five odd digits, in both ways. -/
theorem expand_declared_seven :
    let range : IntRange := ⟨1, 9, 2⟩
    Plain "n".toList ∧ bare.Unshadowed {} "INT" ∧ range.Fits ∧ range.Drawable ∧
    ∃ s', s'.vars.get? "n" = some "7" ∧
      bare.expand "((VARINT,n,1,9,2)) ((n))" {} (FixedIndex.mk 3) = ⟨.ok "7 7", s', ⟨3⟩⟩ ∧
      bare.expand "((VAR,n,INT,1,9,2)) ((n))" {} (FixedIndex.mk 3) = ⟨.ok "7 7", s', ⟨3⟩⟩ := by
  intro range
  have hname : Plain "n".toList := by decide
  have hint : bare.Unshadowed {} "INT" := ⟨rfl, rfl⟩
  have hfits : range.Fits := ⟨by decide, by decide, by decide⟩
  have hdrawable : range.Drawable := ⟨by decide, by decide, by decide⟩
  refine ⟨hname, hint, hfits, hdrawable, ?_⟩
  obtain ⟨count, k, value, s', r', hcount, hdraw, hvalue, -, hvarInt, hvar, -, hget, -⟩ :=
    expand_declared hname (by decide) rfl hint (by decide) hfits hdrawable (FixedIndex.mk 3)
  obtain rfl : count = 4 := Int.ofNat.inj hcount
  obtain ⟨rfl, rfl⟩ : 3 = k ∧ FixedIndex.mk 3 = r' := Prod.mk.inj hdraw
  obtain rfl : value = "7" := hvalue
  exact ⟨s', hget, hvarInt ⟨rfl, rfl⟩, hvar ⟨rfl, rfl⟩⟩

end Engine

end Template

end ExamPaper

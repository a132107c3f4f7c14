import ExamPaper.Proofs.Template.Channels
import ExamPaper.Proofs.Template.Inert

/-!
# References to earlier channels

The output of a channel stays under the name of the channel until the rendering ends
(`get?_throughChannels`), so a later channel can refer to it. What stands for the reference is then
expanded in its turn:

> A channel that refers to an earlier one produces what it would produce if its text were the output
> of that one. If that output is `Inert`, that is without opening markers and escapes, this is the
> output itself (`render_reference`). An output with either may have come out of a text that escapes
> it, and is taken for more than it is (`render_reference_escaped`).
-/

namespace ExamPaper

namespace Template

namespace Engine

variable {ρ : Type} [Draws ρ] {e : Engine}

/-! ## Outputs found by name -/

/-- A name by which the output of a channel can be referred to: it is read as one directive that is
not `DNL`, and nothing but its own channel sets it. -/
structure Referable (id : String) : Prop where
  plain : Plain id.toList
  not_line : id ≠ "DNL"
  not_file : id ≠ "FILE"
  not_raw : ¬ "_raw".toList <:+ id.toList

theorem Referable.ne_raw {id : String} (h : Referable id) (other : String) :
    id ≠ other ++ "_raw" :=
  Engine.ne_raw h.not_raw other

/-! ## Calls and names in markers -/

/-- A name that has a value stands for it. -/
theorem dispatch_of_lookup {name value : String} {s : State} (h : s.lookup? name = some value)
    (args : List String) (r : ρ) : e.dispatch name args s r = ⟨.ok value, s, r⟩ := by
  unfold dispatch
  rw [h]

/-- A directive at a scanner's position takes one step, after which what it stands for is at that
position. -/
theorem expandFrom_resume_call {name : String} {args : List String} (hplain : Plain name.toList)
    (hline : name ≠ "DNL") (hargs : ∀ arg ∈ args.map String.toList, Plain arg)
    (after : List Char) (n : Nat) (scanner : Scanner) (s : State) (r : ρ) :
    e.expandFrom (n + 1) (scanner.resume
        (['(', '('] ++ (name.toList ++ commaText (args.map String.toList)) ++ [')', ')'] ++ after))
        s r =
      (e.dispatch name args s r).bind fun text s r =>
        e.expandFrom n (scanner.resume (text.toList ++ after)) s r := by
  have hbody : Scanner.ReadOn (name.toList ++ commaText (args.map String.toList)) :=
    (Scanner.readOn_plain hplain.not_marker).append
      (Scanner.readOn_plain (not_marker_commaText hargs))
  have hroundtrip : (args.map String.toList).map String.ofList = args := by simp
  rw [Scanner.resume_append, expandFrom_directive (Scanner.next_directive hbody _),
    carryOut_plain hplain (by rwa [String.ofList_toList]) hargs, String.ofList_toList, hroundtrip,
    Outcome.bind_map]
  refine Outcome.bind_congr fun text _ => ?_
  rw [Scanner.resume_append]
  rfl

/-- A name in markers is replaced by its value, which is expanded in its turn. -/
theorem expandFrom_name {name value : String} (hplain : Plain name.toList) (hline : name ≠ "DNL")
    {s : State} (hvalue : s.lookup? name = some value) (after : List Char) (n : Nat)
    (scanner : Scanner) (r : ρ) :
    e.expandFrom (n + 1) (scanner.resume (['(', '('] ++ name.toList ++ [')', ')'] ++ after)) s r =
      e.expandFrom n (scanner.resume (value.toList ++ after)) s r := by
  have hargs : ∀ arg ∈ ([] : List String).map String.toList, Plain arg := by simp
  have hcall := expandFrom_resume_call (e := e) hplain hline hargs after n scanner s r
  rw [dispatch_of_lookup hvalue] at hcall
  rwa [List.map_nil, commaText, List.flatMap_nil, List.append_nil] at hcall

/-- A name between markers is replaced by its value, and the value is expanded. -/
theorem expandFrom_marked {name value : String} (hplain : Plain name.toList)
    (hline : name ≠ "DNL") {s : State} (hvalue : s.lookup? name = some value) (n : Nat) (r : ρ) :
    e.expandFrom (n + 1) (.ofText ("((" ++ name ++ "))").toList) s r =
      e.expandFrom n (.ofText value.toList) s r := by
  have htext : ("((" ++ name ++ "))").toList = ['(', '('] ++ name.toList ++ [')', ')'] ++ [] := by
    simp
  rw [htext, Scanner.ofText_eq_resume, expandFrom_name hplain hline hvalue, List.append_nil,
    ← Scanner.ofText_eq_resume]

/-- A reference to an inert value takes two steps and gives the value. -/
theorem expand_marked {name value : String} (hplain : Plain name.toList) (hline : name ≠ "DNL")
    {s : State} (hvalue : s.lookup? name = some value) (hinert : Inert value.toList) (r : ρ) :
    e.expand ("((" ++ name ++ "))") s r =
      ⟨if e.maxSteps < 2 then .error (.expansionLimit e.maxSteps) else .ok value, s, r⟩ := by
  have hrun : e.expandFrom e.maxSteps (.ofText ("((" ++ name ++ "))").toList) s r =
      ⟨if e.maxSteps < 2 then .error (.expansionLimit e.maxSteps) else .ok value.toList, s, r⟩ := by
    rcases hsteps : e.maxSteps with - | - | n
    · rw [expandFrom, hsteps]
      rfl
    · rw [expandFrom_marked hplain hline hvalue, expandFrom, hsteps]
      rfl
    · rw [expandFrom_marked hplain hline hvalue, expandFrom]
      rw [show (Scanner.ofText value.toList).next = .finished value.toList from hinert.next_eq []]
      dsimp only
      rw [hinert.unescape_eq, if_neg (by omega)]
  unfold expand
  rw [hrun]
  split
  · rfl
  · simp [Except.map]

/-- A reference to a value that can be expanded stands for the value. -/
theorem expand_marked_of_ok {name value text : String} (hplain : Plain name.toList)
    (hline : name ≠ "DNL") {s : State} (hvalue : s.lookup? name = some value) {r : ρ}
    (h : (e.expand ("((" ++ name ++ "))") s r).result = .ok text) :
    e.expand ("((" ++ name ++ "))") s r = e.expand value s r := by
  unfold expand at h ⊢
  dsimp only at h ⊢
  cases hsteps : e.maxSteps with
  | zero =>
    rw [hsteps, expandFrom] at h
    exact absurd h (by simp [Except.map])
  | succ n =>
    rw [hsteps, expandFrom_marked hplain hline hvalue] at h
    rw [expandFrom_marked hplain hline hvalue]
    cases hrest : (e.expandFrom n (.ofText value.toList) s r).result with
    | error error => rw [hrest] at h; exact absurd h (by simp [Except.map])
    | ok expanded => rw [expandFrom_succ_of_ok hrest, hrest]

/-! ## Channels that are nothing but a reference -/

/-- The output of a channel is found under its name in the state of a later one. -/
theorem lookup?_stateAfter {counter : Nat} {base : State} {ids texts outputs : List String}
    {id output : String} {r r' : ρ} {j : Nat} (hlength : ids.length = texts.length)
    (hids : ids.Nodup) (hrender : e.render counter base ids texts r = (.ok outputs, r'))
    (hid : ids[j]? = some id) (hname : Referable id) (houtput : outputs[j]? = some output)
    (next : String) :
    (e.stateAfter counter base ids texts r next).lookup? id = some output := by
  unfold render at hrender
  rw [renderFrom_eq] at hrender
  have hfst : (ids.zip texts).map (·.1) = ids := List.map_fst_zip (Nat.le_of_eq hlength)
  unfold stateAfter State.lookup?
  rw [get?_enterChannel hname.not_file (hname.ne_raw next),
    get?_throughChannels (by rwa [hfst]) (by rwa [hfst]) hname.not_file
      (fun channel _ => hname.ne_raw channel.1) (Prod.mk.inj hrender).1, houtput]
  rfl

/-- **Referring to an earlier channel.** Let some channels with pairwise different names be
rendered, and let the next channel be nothing but a reference to one of them. If the output of that
one is inert, the next channel produces the same output and draws nothing, unless the engine allows
less than the two steps that this takes; and whatever channels follow, these outputs stay. For any
output, what the next channel produces is what it would produce if its text were that output. -/
theorem render_reference {counter : Nat} {base : State} {ids texts outputs : List String}
    {id output : String} {r r' : ρ} {j : Nat} (hlength : ids.length = texts.length)
    (hids : ids.Nodup) (hrender : e.render counter base ids texts r = (.ok outputs, r'))
    (hid : ids[j]? = some id) (hname : Referable id) (houtput : outputs[j]? = some output)
    (next : String) :
    (Inert output.toList →
      e.render counter base (ids ++ [next]) (texts ++ ["((" ++ id ++ "))"]) r =
        (if e.maxSteps < 2 then (.error (.expansionLimit e.maxSteps), r')
        else (.ok (outputs ++ [output]), r')) ∧
      ∀ more moreTexts all r'', e.render counter base (ids ++ [next] ++ more)
          (texts ++ ["((" ++ id ++ "))"] ++ moreTexts) r = (.ok all, r'') →
        outputs ++ [output] <+: all) ∧
    ∀ all r'', e.render counter base (ids ++ [next]) (texts ++ ["((" ++ id ++ "))"]) r =
        (.ok all, r'') →
      e.render counter base (ids ++ [next]) (texts ++ [output]) r = (.ok all, r'') := by
  have hvalue := lookup?_stateAfter hlength hids hrender hid hname houtput next
  constructor
  · intro hinert
    have hnext : e.render counter base (ids ++ [next]) (texts ++ ["((" ++ id ++ "))"]) r =
        if e.maxSteps < 2 then (.error (.expansionLimit e.maxSteps), r')
        else (.ok (outputs ++ [output]), r') := by
      rw [render_concat hlength hrender, expand_marked hname.plain hname.not_line hvalue hinert]
      split <;> rfl
    refine ⟨hnext, ?_⟩
    intro more moreTexts all r'' hall
    have hboth : (ids ++ [next]).length = (texts ++ ["((" ++ id ++ "))"]).length := by
      rw [List.length_append, List.length_append, hlength]
      rfl
    obtain ⟨begun, hbegun, hprefix⟩ := render_prefix hboth hall
    rw [hnext] at hbegun
    split at hbegun
    · exact absurd hbegun (by simp)
    · obtain rfl := Except.ok.inj hbegun
      exact hprefix
  · intro all r'' hall
    rw [render_concat hlength hrender] at hall ⊢
    cases hresult : (e.expand ("((" ++ id ++ "))")
        (e.stateAfter counter base ids texts r next) r').result with
    | error error =>
      dsimp only at hall
      rw [hresult] at hall
      exact absurd (Prod.mk.inj hall).1 (by simp [Except.map])
    | ok expanded =>
      rwa [expand_marked_of_ok hname.plain hname.not_line hvalue hresult] at hall

/-- The third channel refers to the first, whose output has parentheses and a backslash; one more
channel follows. -/
theorem render_reference_choice :
    ["a", "b"].Nodup ∧ Referable "a" ∧ Inert "x (y)) \\n".toList ∧
    bare.render 1 {} ["a", "b"] ["((VAR,v,OP,x,z)) (y)) \\n", "((v))"] zeroSource =
      (.ok ["x (y)) \\n", "x"], zeroSource) ∧
    bare.render 1 {} (["a", "b"] ++ ["c"])
      (["((VAR,v,OP,x,z)) (y)) \\n", "((v))"] ++ ["((" ++ "a" ++ "))"]) zeroSource =
      (.ok ["x (y)) \\n", "x", "x (y)) \\n"], zeroSource) ∧
    ["x (y)) \\n", "x", "x (y)) \\n"] <+: ["x (y)) \\n", "x", "x (y)) \\n", "d1"] := by
  have hids : ["a", "b"].Nodup := by decide
  have hname : Referable "a" := ⟨by decide, by decide, by decide, by decide⟩
  have hinert : Inert "x (y)) \\n".toList := by decide
  have hrender : bare.render 1 {} ["a", "b"] ["((VAR,v,OP,x,z)) (y)) \\n", "((v))"] zeroSource =
      (.ok ["x (y)) \\n", "x"], zeroSource) := rfl
  obtain ⟨hreproduced, -⟩ :=
    render_reference (j := 0) (by decide) hids hrender rfl hname rfl "c"
  obtain ⟨hnext, hrest⟩ := hreproduced hinert
  exact ⟨hids, hname, hinert, hrender, hnext,
    hrest ["d"] ["((FILE))((COUNTER))"] _ zeroSource rfl⟩

/-- A channel that escapes a directive produces the directive as text. A channel that refers to it
expands that directive. -/
theorem render_reference_escaped :
    ["a", "b"].Nodup ∧ Referable "a" ∧ Referable "b" ∧
    bare.render 1 {} ["a"] ["\\(\\(ID,x\\)\\)"] zeroSource = (.ok ["((ID,x))"], zeroSource) ∧
    bare.render 1 {} ["a", "b"] ["\\(\\(ID,x\\)\\)", "((a))"] zeroSource =
      (.ok ["((ID,x))", "x"], zeroSource) ∧ "x" ≠ "((ID,x))" :=
  ⟨by decide, ⟨by decide, by decide, by decide, by decide⟩,
    ⟨by decide, by decide, by decide, by decide⟩, rfl, rfl, by decide⟩

end Engine

end Template

end ExamPaper

import ExamPaper.Proofs.Exam.Entering
import ExamPaper.Proofs.Exam.Rendering
import ExamPaper.Proofs.Template.Declaring
import ExamPaper.Proofs.Template.Leading

/-!
# Questions without a text in a channel

What stands for such a text is a template of its own, with the title of the question in it. All of
it but the title is known: the counter is found in the metadata, and the rest is plain.

> It is expanded to `missingLead`, which names the counter and the channel, and to what the title is
> expanded to with one step less (`expand_placeholder`). A title without opening markers and escapes
> stands there as it is, and then a missing text never makes a rendering fail: one that fails does
> so in a channel that has a text (`renderQuestion_missing`).

A title is text of a template like any other, so that one with markers is carried out
(`renderQuestion_markedTitle`).
-/

namespace ExamPaper

namespace Rendering

open Template Template.Engine

/-- What is shown before the title of a question that has no text in a channel. -/
def missingLead (counter : Nat) (id : String) : String :=
  "\n" ++ Nat.repr counter ++ ": No " ++ id ++ " - DEBUG. Question: "

/-- What is shown for a question that has no text in a channel. -/
def missingLine (counter : Nat) (id title : String) : String :=
  missingLead counter id ++ title ++ "\n\n"

variable {ρ : Type} [Draws ρ] {e : Engine} {counter : Nat} {id : String} {s : State}

/-! ## The placeholder expanded -/

section

variable (hplain : Plain id.toList) (hcounter : s.metadata.get? "COUNTER" = some (Nat.repr counter))

include hplain hcounter

/-- Expanding a placeholder puts the counter and the channel in and goes on with the title. -/
theorem expandFrom_placeholder (title : String) (n : Nat) (r : ρ) :
    e.expandFrom (n + 1) (.ofText (placeholder id title).toList) s r =
      (e.expandFrom n (.ofText (title ++ "\n\n").toList) s r).map
        ((missingLead counter id).toList ++ ·) := by
  have hvalue : s.lookup? "COUNTER" = some (Nat.repr counter) := by
    unfold State.lookup?
    rw [hcounter]
    rfl
  have hbehind : Plain (": No " ++ id ++ " - DEBUG. Question: ").toList := by
    rw [String.toList_append, String.toList_append]
    exact (Plain.append (by decide) hplain).append (by decide)
  have hmarked : "\n((COUNTER)): No ".toList =
      "\n".toList ++ (['(', '('] ++ "COUNTER".toList ++ [')', ')'] ++ ": No ".toList) := by decide
  have htext : (placeholder id title).toList = "\n".toList ++ (['(', '('] ++ "COUNTER".toList ++
      [')', ')'] ++ ((": No " ++ id ++ " - DEBUG. Question: ").toList ++
        (title ++ "\n\n").toList)) := by
    unfold placeholder
    simp only [String.toList_append, hmarked, List.append_assoc]
  rw [htext, expandFrom_plain_name (by decide) (by decide) (by decide) hvalue
    (plain_repr (Int.ofNat counter)), expandFrom_plain_append hbehind, Outcome.map_map]
  unfold missingLead
  simp only [String.toList_append, List.append_assoc]

/-- What stands for a missing text is expanded to the lead and to what the title is expanded to
where one step is taken. -/
theorem expand_placeholder (title : String) (hsteps : e.maxSteps ≠ 0) (r : ρ) :
    e.expand (placeholder id title) s r =
      (e.expandFrom (e.maxSteps - 1) (.ofText (title ++ "\n\n").toList) s r).map
        fun text => missingLead counter id ++ String.ofList text := by
  obtain ⟨n, hn⟩ := Nat.exists_eq_succ_of_ne_zero hsteps
  have hrun := expandFrom_placeholder (e := e) hplain hcounter title n r
  have hlead : ∀ text, String.ofList ((missingLead counter id).toList ++ text) =
      missingLead counter id ++ String.ofList text := by
    intro text
    rw [String.ofList_append, String.ofList_toList]
  unfold expand
  rw [hn, hrun]
  show Outcome.map String.ofList (Outcome.map _ _) = _
  rw [Outcome.map_map]
  simp only [hlead]
  rfl

/-- A title without markers and escapes stands in what is shown as it is. -/
theorem expand_placeholder_inert {title : String} (htitle : Inert title.toList)
    (hsteps : 2 ≤ e.maxSteps) (r : ρ) :
    e.expand (placeholder id title) s r = ⟨.ok (missingLine counter id title), s, r⟩ := by
  have hinert : Inert (title ++ "\n\n").toList := by
    rw [String.toList_append]
    exact htitle.append_plain (by decide)
  have hnext : (Scanner.ofText (title ++ "\n\n").toList).next =
      .finished (title ++ "\n\n").toList := hinert.next_eq []
  obtain ⟨n, hn⟩ : ∃ n, e.maxSteps - 1 = n + 1 := ⟨e.maxSteps - 2, by omega⟩
  rw [expand_placeholder hplain hcounter title (by omega), hn, expandFrom, hnext]
  show Outcome.mk (.ok (missingLead counter id ++ String.ofList (unescape _))) s r = _
  rw [hinert.unescape_eq, String.ofList_toList, ← String.append_assoc]
  rfl

end

/-- A question without a text for the channel has the placeholder there. -/
theorem channelText_of_none {q : Question} (h : q.channel? id = none) :
    channelText q id = placeholder id q.title := by
  unfold channelText
  rw [h]
  rfl

/-- A question with a text for the channel has that text. -/
theorem channelText_of_some {q : Question} {text : String} (h : q.channel? id = some text) :
    channelText q id = text := by
  unfold channelText
  rw [h]
  rfl

/-! ## One channel after another -/

/-- The rendering of a question comes to a channel: the channels before it are through, and it is
expanded in some state and from some random source. -/
structure ComesTo (e : Engine) (ids : List String) (counter : Nat) (q : Question) (r : ρ)
    (before : List String) (id : String) (s : State) (r' : ρ) : Prop where
  begins : before ++ [id] <+: ids
  rendered : ∃ outputs, renderQuestion e before counter q r = (.ok outputs, r')
  state : s = e.stateAfter counter { metadata := q.fields } before (before.map (channelText q)) r id

variable {ids : List String} {q : Question} {r r' : ρ}

namespace ComesTo

variable {before : List String} (h : ComesTo e ids counter q r before id s r')

include h

theorem mem : id ∈ ids := h.begins.subset (List.mem_append_right before List.mem_cons_self)

/-- A channel of a question sees the number of the question. -/
theorem counter_eq (hcounter : "COUNTER" ∉ ids) :
    s.metadata.get? "COUNTER" = some (Nat.repr counter) := by
  have hbefore : "COUNTER" ∉ before :=
    fun hmem => hcounter (h.begins.subset (List.mem_append_left [id] hmem))
  rw [h.state]
  exact counter_stateAfter hbefore e counter _ _ r id

variable (hplain : ∀ id ∈ ids, Plain id.toList) (hcounter : "COUNTER" ∉ ids)
  (hmissing : q.channel? id = none)

include hplain hcounter hmissing

/-- The placeholder of a question stands for its line and the expansion of its title. -/
theorem expand_missing (hsteps : e.maxSteps ≠ 0) :
    e.expand (channelText q id) s r' =
      (e.expandFrom (e.maxSteps - 1) (.ofText (q.title ++ "\n\n").toList) s r').map
        fun text => missingLead counter id ++ String.ofList text := by
  rw [channelText_of_none hmissing]
  exact expand_placeholder (hplain id h.mem) (h.counter_eq hcounter) q.title hsteps r'

/-- With a plain title, the placeholder of a question stands for its line as it is. -/
theorem expand_missing_inert (hinert : Inert q.title.toList) (hsteps : 2 ≤ e.maxSteps) :
    e.expand (channelText q id) s r' = ⟨.ok (missingLine counter id q.title), s, r'⟩ := by
  rw [channelText_of_none hmissing]
  exact expand_placeholder_inert (hplain id h.mem) (h.counter_eq hcounter) hinert hsteps r'

end ComesTo

/-- A question is rendered channel after channel, so the last channel starts where the ones before
it end. -/
theorem renderQuestion_concat {before outputs : List String}
    (h : renderQuestion e before counter q r = (.ok outputs, r')) (id : String) :
    renderQuestion e (before ++ [id]) counter q r =
      let o := e.expand (channelText q id) (e.stateAfter counter { metadata := q.fields } before
        (before.map (channelText q)) r id) r'
      (o.result.map fun output => outputs ++ [output], o.rng) := by
  unfold renderQuestion
  rw [List.map_append]
  exact render_concat (List.length_map ..).symm h id (channelText q id)

/-- A rendering that fails is the same with more channels behind. -/
theorem renderQuestion_error_append {before : List String} {error : TemplateError}
    (h : renderQuestion e before counter q r = (.error error, r')) (after : List String) :
    renderQuestion e (before ++ after) counter q r = (.error error, r') := by
  have hlength : before.length = (before.map (channelText q)).length := (List.length_map ..).symm
  unfold renderQuestion Engine.render at h ⊢
  rw [renderFrom_eq] at h ⊢
  obtain ⟨hresult, hrng⟩ := Prod.mk.inj h
  rw [List.map_append, List.zip_append hlength, throughChannels_append]
  unfold Outcome.bind
  rw [hresult, hrng]

/-- A rendering that gives texts comes to each of the channels, and its text is what is expanded
there. -/
theorem exists_comesTo_of_ok {row : List String}
    (h : renderQuestion e ids counter q r = (.ok row, r')) {j : Nat} (hid : ids[j]? = some id) :
    ∃ s r₁ output, ComesTo e ids counter q r (ids.take j) id s r₁ ∧
      (e.expand (channelText q id) s r₁).result = .ok output ∧ row[j]? = some output := by
  obtain ⟨hj, hat⟩ := List.getElem?_eq_some_iff.mp hid
  have htake : ids.take j ++ [id] = ids.take (j + 1) := by
    rw [← hat]
    exact List.take_append_getElem hj
  -- what is rendered of the first channels begins the row
  have hwhole : ∀ n, ∃ outputs r₁,
      renderQuestion e (ids.take n) counter q r = (.ok outputs, r₁) ∧ outputs <+: row := by
    intro n
    rw [← List.take_append_drop n ids] at h
    unfold renderQuestion at h
    rw [List.map_append] at h
    obtain ⟨outputs, houtputs, hbegin⟩ := render_prefix (List.length_map ..).symm h
    exact ⟨outputs, _, Prod.ext houtputs rfl, hbegin⟩
  obtain ⟨outputs, r₁, hbefore, -⟩ := hwhole j
  obtain ⟨more, r₂, hmore, hbegin⟩ := hwhole (j + 1)
  rw [← htake, renderQuestion_concat hbefore] at hmore
  obtain ⟨output, houtput, rfl⟩ := Outcome.result_map (Prod.mk.inj hmore).1
  have hbegins : ids.take j ++ [id] <+: ids := htake ▸ List.take_prefix (j + 1) ids
  have hlength : outputs.length = j := by
    rw [render_length (List.length_map ..) hbefore, List.length_take_of_le (Nat.le_of_lt hj)]
  obtain ⟨rest, rfl⟩ := hbegin
  exact ⟨_, r₁, output, ⟨hbegins, ⟨outputs, hbefore⟩, rfl⟩, houtput, by simp [← hlength]⟩

/-- A rendering that fails comes to a channel whose text fails. -/
theorem exists_comesTo_of_error {error : TemplateError}
    (h : renderQuestion e ids counter q r = (.error error, r')) :
    ∃ before id s r₁, ComesTo e ids counter q r before id s r₁ ∧
      (e.expand (channelText q id) s r₁).result = .error error := by
  induction ids using List.reverseRecOn generalizing r' with
  | nil => exact absurd (Prod.mk.inj h).1 (by simp)
  | append_singleton ids id ih =>
    rcases hbefore : renderQuestion e ids counter q r with ⟨earlier | outputs, r₁⟩
    · -- the channels before the last one fail, and so do all of them
      rw [renderQuestion_error_append hbefore] at h
      obtain ⟨before, id', s, r₂, hcomes, herror⟩ := ih (hbefore.trans h)
      exact ⟨before, id', s, r₂, ⟨hcomes.begins.trans (List.prefix_append ids [id]),
        hcomes.rendered, hcomes.state⟩, herror⟩
    · rw [renderQuestion_concat hbefore] at h
      exact ⟨ids, id, _, r₁, ⟨List.prefix_refl _, ⟨outputs, hbefore⟩, rfl⟩,
        Outcome.error_of_map (Prod.mk.inj h).1⟩

/-- **A question without a text in a channel.** Let no channel be called `COUNTER`, and let the
names of the channels be plain. Where a question has no text, the counter, the channel and what the
title is expanded to stand for it; so a missing text can fail by the title only. If the title has
neither opening markers nor escapes, it never does: whenever there are texts, that of such a channel
is the line with the counter, the channel and the title, and whenever there are none, the text that
failed is that of a channel that has one. -/
theorem renderQuestion_missing (exam : ExamIndex) (today : String) (counter : Nat) (q : Question)
    (r : ρ) (hplain : ∀ id ∈ exam.ids, Plain id.toList) (hcounter : "COUNTER" ∉ exam.ids) :
    let e := engineOf exam today
    (∀ before id s r₁, ComesTo e exam.ids counter q r before id s r₁ → q.channel? id = none →
      e.expand (channelText q id) s r₁ =
        (e.expandFrom (e.maxSteps - 1) (.ofText (q.title ++ "\n\n").toList) s r₁).map
          fun text => missingLead counter id ++ String.ofList text) ∧
    (Inert q.title.toList →
      (∀ (row : List String) (r' : ρ), renderQuestion e exam.ids counter q r = (.ok row, r') →
        ∀ (j : Nat) (id : String), exam.ids[j]? = some id → q.channel? id = none →
          row[j]? = some (missingLine counter id q.title)) ∧
      ∀ error r', renderQuestion e exam.ids counter q r = (.error error, r') →
        ∃ before id s r₁ text, ComesTo e exam.ids counter q r before id s r₁ ∧
          q.channel? id = some text ∧ (e.expand text s r₁).result = .error error) := by
  intro e
  have hsteps : 2 ≤ e.maxSteps := by
    show 2 ≤ 100000
    omega
  refine ⟨?_, fun hinert => ⟨?_, ?_⟩⟩
  · intro before id s r₁ hcomes hmissing
    exact hcomes.expand_missing hplain hcounter hmissing (by omega)
  · intro row r' hrender j id hid hmissing
    obtain ⟨s, r₁, output, hcomes, houtput, hrow⟩ := exists_comesTo_of_ok hrender hid
    rw [hcomes.expand_missing_inert hplain hcounter hmissing hinert hsteps] at houtput
    rw [hrow, ← Except.ok.inj houtput]
  · intro error r' hrender
    obtain ⟨before, id, s, r₁, hcomes, herror⟩ := exists_comesTo_of_error hrender
    cases hchannel : q.channel? id with
    | none =>
      rw [hcomes.expand_missing_inert hplain hcounter hchannel hinert hsteps] at herror
      exact absurd herror (by simp)
    | some text =>
      rw [channelText_of_some hchannel] at herror
      exact ⟨before, id, s, r₁, text, hcomes, hchannel, herror⟩

/-- A question with a text in the first of two channels. -/
def halfQuestion (title : String) : Question := (Question.titled title).withChannel "a" "t"

/-- A title with parentheses and a backslash, none of which means anything to the engine. -/
theorem renderQuestion_missing_formula :
    (twoChannels "").ids = ["a", "b"] ∧ Inert "f(x) = \\sqrt(x)".toList ∧
    (halfQuestion "f(x) = \\sqrt(x)").channel? "b" = none ∧
    renderQuestion (engineOf (twoChannels "") "") ["a", "b"] 3 (halfQuestion "f(x) = \\sqrt(x)")
      zeroSource =
      (.ok ["t", "\n3: No b - DEBUG. Question: f(x) = \\sqrt(x)\n\n"], zeroSource) ∧
    missingLine 3 "b" "f(x) = \\sqrt(x)" =
      "\n3: No b - DEBUG. Question: f(x) = \\sqrt(x)\n\n" := by
  have hplain : ∀ id ∈ (twoChannels "").ids, Plain id.toList := by decide
  have hcounter : "COUNTER" ∉ (twoChannels "").ids := by decide
  have hinert : Inert "f(x) = \\sqrt(x)".toList := by decide
  have hmissing : (halfQuestion "f(x) = \\sqrt(x)").channel? "b" = none := rfl
  have hrender : renderQuestion (engineOf (twoChannels "") "") ["a", "b"] 3
      (halfQuestion "f(x) = \\sqrt(x)") zeroSource =
      (.ok ["t", "\n3: No b - DEBUG. Question: f(x) = \\sqrt(x)\n\n"], zeroSource) := rfl
  obtain ⟨-, hshown⟩ := renderQuestion_missing (twoChannels "") "" 3
    (halfQuestion "f(x) = \\sqrt(x)") zeroSource hplain hcounter
  have hline := (hshown hinert).1 _ _ hrender 1 "b" rfl hmissing
  exact ⟨rfl, hinert, hmissing, hrender, (Option.some.inj hline).symm⟩

/-- A title with a directive is carried out, which can make the rendering fail, and the backslashes
of a title that make escapes are not shown. -/
theorem renderQuestion_markedTitle :
    (twoChannels "").ids = ["a", "b"] ∧ ["a", "b"].Nodup ∧ "COUNTER" ∉ ["a", "b"] ∧
    "FILE" ∉ ["a", "b"] ∧ (∀ id ∈ ["a", "b"], Plain id.toList) ∧
    (halfQuestion "f((x))").channel? "b" = none ∧
    renderQuestion (engineOf (twoChannels "") "") ["a", "b"] 1 (halfQuestion "f((x))") zeroSource =
      (.error (.unknown "x"), zeroSource) ∧
    (halfQuestion "\\(x\\)").channel? "b" = none ∧
    renderQuestion (engineOf (twoChannels "") "") ["a", "b"] 1 (halfQuestion "\\(x\\)") zeroSource =
      (.ok ["t", "\n1: No b - DEBUG. Question: (x)\n\n"], zeroSource) ∧
    missingLine 1 "b" "\\(x\\)" ≠ "\n1: No b - DEBUG. Question: (x)\n\n" :=
  ⟨rfl, by decide, by decide, by decide, by decide, rfl, rfl, rfl, rfl, by decide⟩

end Rendering

end ExamPaper

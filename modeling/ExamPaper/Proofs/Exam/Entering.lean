import ExamPaper.Exam.Rendering
import ExamPaper.Proofs.Exam.Index
import ExamPaper.Proofs.Template.Channels
import ExamPaper.Proofs.Template.Inert

/-!
# What a channel finds when its turn comes

The counter, the name of the current channel, raw texts and outputs stand in one map under their
names, and a channel may have any name that is not reserved for a field of a question. A channel
that is called like another of these entries takes its place.

> If no channel is called `COUNTER`, `FILE` or like the raw text of another (`OwnNames`), then every
> channel finds the counter, its own name, its raw text and the outputs of all channels before it
> (`entered_of_ofEntries`). Otherwise some channel of some question does not (`allEntered_iff`): one
> that is called like the raw text of the one before finds that text for its own
> (`entered_rawName`).
-/

namespace ExamPaper

namespace Rendering

open Template Template.Engine

/-- What the metadata hold when the channel `id` is expanded for the texts `base`, after channels
with some outputs. -/
structure Entered (counter : Nat) (base : State) (before outputs : List String) (id : String)
    (s : State) : Prop where
  counter : s.metadata.get? "COUNTER" = some (Nat.repr counter)
  file : s.metadata.get? "FILE" = some id
  raw : ∀ text : String, base.metadata.get? id = some text →
    s.metadata.get? (id ++ "_raw") = some text
  earlier : ∀ (j : Nat) (other : String), before[j]? = some other →
    s.metadata.get? other = outputs[j]?

/-- No channel is called like an entry that rendering makes for something else. -/
structure OwnNames (ids : List String) : Prop where
  not_counter : "COUNTER" ∉ ids
  not_file : "FILE" ∉ ids
  not_raw : ∀ id ∈ ids, id ++ "_raw" ∉ ids

namespace OwnNames

variable {ids : List String} {id : String}

theorem ne_counter (h : OwnNames ids) (hid : id ∈ ids) : id ≠ "COUNTER" := by
  rintro rfl
  exact h.not_counter hid

theorem ne_file (h : OwnNames ids) (hid : id ∈ ids) : id ≠ "FILE" := by
  rintro rfl
  exact h.not_file hid

/-- No channel is called like the raw text of a channel. -/
theorem ne_raw (h : OwnNames ids) (hid : id ∈ ids) {other : String} (hother : other ∈ ids) :
    id ≠ other ++ "_raw" := by
  rintro rfl
  exact h.not_raw other hother hid

end OwnNames

variable {ρ : Type} [Draws ρ]

/-- The counter is found as long as no channel is called like it: nothing else sets it. -/
theorem counter_stateAfter {before : List String} (hcounter : "COUNTER" ∉ before) (e : Engine)
    (counter : Nat) (base : State) (texts : List String) (r : ρ) (id : String) :
    (e.stateAfter counter base before texts r id).metadata.get? "COUNTER" =
      some (Nat.repr counter) := by
  have hother : ∀ channel ∈ before.zip texts, "COUNTER" ≠ channel.1 := by
    intro channel hchannel heq
    exact hcounter (heq ▸ (List.of_mem_zip hchannel).1)
  unfold stateAfter
  rw [get?_enterChannel (by decide) (Engine.ne_raw (by decide) id),
    throughChannels_get? _ _ (by decide) (fun channel _ => Engine.ne_raw (by decide) channel.1)
      hother]
  exact NameMap.get?_insert_self _ "COUNTER" _

/-- A channel of its own name finds the entries of `Entered` once those before it are through. -/
theorem entered_stateAfter {before after : List String} {id : String}
    (hnodup : (before ++ id :: after).Nodup) (hown : OwnNames (before ++ id :: after)) (e : Engine)
    (counter : Nat) (base : State) {texts outputs : List String}
    (hlength : before.length = texts.length) {r r' : ρ}
    (hrender : e.render counter base before texts r = (.ok outputs, r')) :
    Entered counter base before outputs id (e.stateAfter counter base before texts r id) := by
  have hfst : (before.zip texts).map (·.1) = before := List.map_fst_zip (Nat.le_of_eq hlength)
  have hid : id ∈ before ++ id :: after := List.mem_append_right _ List.mem_cons_self
  have hbefore : ∀ other ∈ before, other ∈ before ++ id :: after :=
    fun other hother => List.mem_append_left _ hother
  have hmem : ∀ channel ∈ before.zip texts, channel.1 ∈ before ++ id :: after :=
    fun channel hchannel => hbefore channel.1 (List.of_mem_zip hchannel).1
  obtain ⟨hbeforeNodup, -, hdisjoint⟩ := List.nodup_append.mp hnodup
  have hnew : ∀ channel ∈ before.zip texts, id ≠ channel.1 := fun channel hchannel heq =>
    hdisjoint channel.1 (List.of_mem_zip hchannel).1 id List.mem_cons_self heq.symm
  unfold Engine.render at hrender
  rw [renderFrom_eq] at hrender
  have hresult := (Prod.mk.inj hrender).1
  unfold stateAfter
  constructor
  · exact counter_stateAfter (fun h => hown.not_counter (hbefore _ h)) e counter base texts r id
  · exact file_enterChannel _ id
  · -- until its turn comes, the raw text of a channel stands under its own name
    intro text htext
    refine raw_enterChannel ?_
    refine (NameMap.get?_insert_of_ne _ (hown.ne_file hid) id).trans ?_
    rw [throughChannels_get? _ _ (hown.ne_file hid)
      (fun channel hchannel => hown.ne_raw hid (hmem channel hchannel)) hnew]
    exact (NameMap.get?_insert_of_ne _ (hown.ne_counter hid) _).trans htext
  · intro j other hother
    have hmemOther := hbefore other (List.mem_of_getElem? hother)
    rw [get?_enterChannel (hown.ne_file hmemOther) (hown.ne_raw hmemOther hid)]
    exact get?_throughChannels (by rwa [hfst]) (by rwa [hfst]) (hown.ne_file hmemOther)
      (fun channel hchannel => hown.ne_raw hmemOther (hmem channel hchannel)) hresult

/-- **What a channel finds.** Let an index be read whose channels have names of their own, and let
the channels before one of them be rendered. Then the text of that channel is expanded where the
metadata hold the counter, the name of the channel, its raw text if the question has one, and the
output of every channel before it. -/
theorem entered_of_ofEntries {path : Path} {entries : Entries} {exam : ExamIndex}
    (hexam : ExamIndex.ofEntries path entries = .ok exam) (hown : OwnNames exam.ids)
    {before after : List String} {id : String} (hids : exam.ids = before ++ id :: after)
    (e : Engine) (counter : Nat) (base : State) {texts outputs : List String}
    (hlength : before.length = texts.length) {r r' : ρ}
    (hrender : e.render counter base before texts r = (.ok outputs, r')) :
    Entered counter base before outputs id (e.stateAfter counter base before texts r id) ∧
    ∀ (text : String) (more : List String),
      e.render counter base exam.ids (texts ++ text :: more) r =
        let o := e.expand text (e.stateAfter counter base before texts r id) r'
        match o.result with
        | .error error => (.error error, o.rng)
        | .ok output =>
          let rest := e.renderFrom (after.zip more) (o.state.setMetadata id output) o.rng
          (rest.1.map fun later => outputs ++ output :: later, rest.2) := by
  have hnodup := (ExamIndex.wellNamed_of_ofEntries hexam).nodup
  rw [hids] at hnodup hown ⊢
  exact ⟨entered_stateAfter hnodup hown e counter base hlength hrender,
    fun text more => render_channel hlength hrender id text after more⟩

/-- The entries of an index with the given files. -/
def fileEntries (files : List String) : Entries :=
  [(.text "difficulty", .number (.int 1)), (.text "files", .list (files.map .text)),
    (.text "parts", .text "all")]

/-- The index that these entries are read as, if the files are called like their channels. -/
def fileExam (ids : List String) : ExamIndex where
  path := ⟨"exam.yaml"⟩
  difficulty := 1.0
  tolerance := none
  tries := none
  seed := none
  bank := none
  channels := ids.map fun id => ⟨id ++ ".md", id, "", ""⟩
  macros := ∅
  metadata := ∅
  parts := .tag "all"

/-- A question with a text in each of three channels. The second keeps what it finds as its raw text,
and the third shows it. -/
def notedQuestion : Question :=
  let q := (Question.titled "q").withChannel "notes" "A((COUNTER))"
  (q.withChannel "notes_raw" "((SAVE,x,notes_raw_raw))B").withChannel "key" "((x))"

/-- The second channel of an index comes after the first. -/
theorem entered_notes :
    ExamIndex.ofEntries ⟨"exam.yaml"⟩ (fileEntries ["notes.md", "key.md"]) =
      .ok (fileExam ["notes", "key"]) ∧
    OwnNames (fileExam ["notes", "key"]).ids ∧
    bare.render 7 { metadata := notedQuestion.fields } ["notes"] ["A((COUNTER))"] zeroSource =
      (.ok ["A7"], zeroSource) ∧
    Entered 7 { metadata := notedQuestion.fields } ["notes"] ["A7"] "key"
      (bare.stateAfter 7 { metadata := notedQuestion.fields } ["notes"] ["A((COUNTER))"]
        zeroSource "key") := by
  have hexam : ExamIndex.ofEntries ⟨"exam.yaml"⟩ (fileEntries ["notes.md", "key.md"]) =
      .ok (fileExam ["notes", "key"]) := rfl
  have hown : OwnNames (fileExam ["notes", "key"]).ids := ⟨by decide, by decide, by decide⟩
  have hids : (fileExam ["notes", "key"]).ids = ["notes"] ++ "key" :: [] := rfl
  have hlength : ["notes"].length = ["A((COUNTER))"].length := rfl
  have hrender : bare.render 7 { metadata := notedQuestion.fields } ["notes"] ["A((COUNTER))"]
      zeroSource = (.ok ["A7"], zeroSource) := rfl
  exact ⟨hexam, hown, hrender,
    (entered_of_ofEntries hexam hown hids bare 7 _ hlength hrender).1⟩

/-- A channel that is called like the raw text of the one before finds that text where its own raw
text is to stand. -/
theorem entered_rawName :
    ExamIndex.ofEntries ⟨"exam.yaml"⟩ (fileEntries ["notes.md", "notes_raw.md", "key.md"]) =
      .ok (fileExam ["notes", "notes_raw", "key"]) ∧
    bare.render 7 { metadata := notedQuestion.fields } ["notes"] ["A((COUNTER))"] zeroSource =
      (.ok ["A7"], zeroSource) ∧
    ¬ Entered 7 { metadata := notedQuestion.fields } ["notes"] ["A7"] "notes_raw"
      (bare.stateAfter 7 { metadata := notedQuestion.fields } ["notes"] ["A((COUNTER))"]
        zeroSource "notes_raw") ∧
    renderQuestion bare (fileExam ["notes", "notes_raw", "key"]).ids 7 notedQuestion zeroSource =
      (.ok ["A7", "B", "A7"], zeroSource) := by
  refine ⟨rfl, rfl, ?_, rfl⟩
  intro hentered
  exact absurd (hentered.raw "((SAVE,x,notes_raw_raw))B" rfl) (by decide)

/-! ## Names that are taken -/

/-- A question with a text in each of some channels. -/
def questionWith (text : String → String) (ids : List String) : Question :=
  ids.foldr (fun id q => q.withChannel id (text id)) (Question.titled "q")

/-- The question made for some texts has for each channel its text. -/
theorem channel?_questionWith (text : String → String) {ids : List String} {id : String}
    (h : id ∈ ids) : (questionWith text ids).channel? id = some (text id) := by
  induction ids with
  | nil => exact absurd h List.not_mem_nil
  | cons other ids ih =>
    show (NameMap.insert (questionWith text ids).fields other (text other)).get? id = some (text id)
    by_cases hother : id = other
    · subst hother
      exact NameMap.get?_insert_self _ id (text id)
    · rw [NameMap.get?_insert_of_ne _ hother]
      exact ih ((List.mem_cons.mp h).resolve_left hother)

/-- What the channels of the question made for some texts start from are these texts. -/
theorem map_channelText_questionWith (text : String → String) {ids before : List String}
    (h : before ⊆ ids) : before.map (channelText (questionWith text ids)) = before.map text := by
  refine List.map_congr_left fun id hid => ?_
  unfold channelText
  rw [channel?_questionWith text (h hid)]
  rfl

variable {e : Engine}

/-- Texts without directives and escapes come out as they are, and no random number is drawn. -/
theorem throughChannels_inert (hsteps : e.maxSteps ≠ 0) : ∀ {channels : List (String × String)}
    (s : State) (r : ρ), (∀ channel ∈ channels, Inert channel.2.toList) →
      (e.throughChannels channels s r).result = .ok (channels.map (·.2)) ∧
        (e.throughChannels channels s r).rng = r := by
  intro channels
  induction channels with
  | nil => intro s r _; exact ⟨rfl, rfl⟩
  | cons channel rest ih =>
    obtain ⟨id, text⟩ := channel
    intro s r h
    obtain ⟨htext, hrest⟩ := List.forall_mem_cons.mp h
    obtain ⟨hresult, hrng⟩ := ih ((enterChannel s id).setMetadata id text) r hrest
    rw [throughChannels, expand_inert htext hsteps]
    constructor
    · show Except.map _ _ = _
      rw [hresult]
      rfl
    · exact hrng

/-- Inert texts are rendered as they are. -/
theorem render_inert (hsteps : e.maxSteps ≠ 0) {text : String → String}
    (hinert : ∀ id, Inert (text id).toList) (ids : List String) (counter : Nat) (base : State)
    (r : ρ) : e.render counter base ids (ids.map text) r = (.ok (ids.map text), r) := by
  have hzip : (ids.zip (ids.map text)).map (·.2) = ids.map text :=
    List.map_snd_zip (by rw [List.length_map])
  have hchannels : ∀ channel ∈ ids.zip (ids.map text), Inert channel.2.toList := by
    intro channel hchannel
    obtain ⟨id, -, hid⟩ := List.mem_map.mp (List.of_mem_zip hchannel).2
    exact hid ▸ hinert id
  obtain ⟨hresult, hrng⟩ := throughChannels_inert hsteps
    (base.setMetadata "COUNTER" (Nat.repr counter)) r hchannels
  unfold Engine.render
  rw [renderFrom_eq, hresult, hrng, hzip]

theorem ne_append_raw (id : String) : id ≠ id ++ "_raw" := by
  intro h
  have hlength := congrArg String.length h
  rw [String.length_append] at hlength
  exact absurd hlength (by simp)

/-- Whatever stands under the name of a channel is kept as its raw text. -/
theorem raw_of_entered {s : State} {id text : String}
    (h : (enterChannel s id).metadata.get? id = some text) :
    (enterChannel s id).metadata.get? (id ++ "_raw") = some text := by
  refine raw_enterChannel ?_
  unfold enterChannel at h
  dsimp only at h
  split at h
  · rwa [State.setMetadata, NameMap.get?_insert_of_ne _ (ne_append_raw id)] at h
  · exact h

/-- A name that no channel sets from one on is found as that one found it. -/
theorem get?_stateAfter_later {counter : Nat} {base : State} {before texts outputs : List String}
    {r r' : ρ} (hlength : before.length = texts.length)
    (hrender : e.render counter base before texts r = (.ok outputs, r'))
    {id text output : String}
    (houtput : (e.expand text (e.stateAfter counter base before texts r id) r').result = .ok output)
    {name : String} (hid : name ≠ id) (hfile : name ≠ "FILE") {between : List String}
    (hbetween : ∀ other ∈ between, name ≠ other ++ "_raw" ∧ name ≠ other) {next : String}
    (hnext : name ≠ next ++ "_raw") (more : List String) :
    (e.stateAfter counter base (before ++ id :: between) (texts ++ text :: more) r
      next).metadata.get? name =
    (e.stateAfter counter base before texts r id).metadata.get? name := by
  unfold Engine.render at hrender
  rw [renderFrom_eq] at hrender
  obtain ⟨hbefore, hrng⟩ := Prod.mk.inj hrender
  unfold stateAfter at houtput ⊢
  rw [get?_enterChannel hfile hnext, List.zip_append hlength, List.zip_cons_cons,
    throughChannels_append, Outcome.bind_of_ok hbefore, throughChannels, hrng,
    Outcome.bind_of_ok houtput]
  show (e.throughChannels (between.zip more) _ _).state.metadata.get? name = _
  rw [throughChannels_get? _ _ hfile
      (fun channel hchannel => (hbetween channel.1 (List.of_mem_zip hchannel).1).1)
      (fun channel hchannel => (hbetween channel.1 (List.of_mem_zip hchannel).1).2),
    State.setMetadata, NameMap.get?_insert_of_ne _ hid, expand_metadata]

/-- Every channel of every question finds what it is to find. -/
def AllEntered (e : Engine) (counter : Nat) (ids : List String) (r : ρ) : Prop :=
  ∀ (q : Question) (before after : List String) (id : String) (outputs : List String) (r' : ρ),
    ids = before ++ id :: after →
    e.render counter { metadata := q.fields } before (before.map (channelText q)) r =
      (.ok outputs, r') →
    Entered counter { metadata := q.fields } before outputs id
      (e.stateAfter counter { metadata := q.fields } before (before.map (channelText q)) r id)

/-- A channel that is reached through inert texts finds the text that it is given. -/
theorem AllEntered.of_inert {counter : Nat} {ids : List String} {r : ρ}
    (h : AllEntered e counter ids r) (hsteps : e.maxSteps ≠ 0) {text : String → String}
    (hinert : ∀ id, Inert (text id).toList) {before after : List String} {id : String}
    (hids : ids = before ++ id :: after) :
    let base : State := { metadata := (questionWith text ids).fields }
    let s := e.stateAfter counter base before (before.map text) r id
    Entered counter base before (before.map text) id s ∧
      s.metadata.get? (id ++ "_raw") = some (text id) := by
  have hbefore : before ⊆ ids := hids ▸ List.subset_append_left before (id :: after)
  have hid : id ∈ ids := hids ▸ List.mem_append_right before List.mem_cons_self
  have hfound := h (questionWith text ids) before after id (before.map text) r hids
  rw [map_channelText_questionWith text hbefore] at hfound
  have hentered := hfound (render_inert hsteps hinert before counter _ r)
  exact ⟨hentered, hentered.raw (text id) (channel?_questionWith text hid)⟩

/-- Different texts for a channel that is called like a raw text and for the others. -/
def rawMarked (id other : String) : String := if other = id ++ "_raw" then "B" else "A"

/-- The text that marks one channel has no directives and no escapes. -/
theorem inert_rawMarked (id other : String) : Inert (rawMarked id other).toList := by
  unfold rawMarked
  split <;> decide

theorem rawMarked_self (id : String) : rawMarked id id = "A" := if_neg (ne_append_raw id)

theorem rawMarked_raw (id : String) : rawMarked id (id ++ "_raw") = "B" := if_pos rfl

/-- A channel that is called like the raw text of an earlier one finds that text for its own. -/
theorem AllEntered.not_later {counter : Nat} {ids : List String} {r : ρ}
    (h : AllEntered e counter ids r) (hnodup : ids.Nodup) (hsteps : e.maxSteps ≠ 0)
    {before between after : List String} {id : String} :
    ids ≠ (before ++ id :: between) ++ (id ++ "_raw") :: after := by
  intro hids
  have hearlier : ids = before ++ id :: (between ++ (id ++ "_raw") :: after) := by
    rw [hids, List.append_assoc, List.cons_append]
  have hbetween : ∀ other ∈ between, id ++ "_raw" ≠ other ++ "_raw" ∧ id ++ "_raw" ≠ other := by
    rw [hids] at hnodup
    obtain ⟨hnodup, -, hdisjoint⟩ := List.nodup_append.mp hnodup
    obtain ⟨-, hnodup, -⟩ := List.nodup_append.mp hnodup
    intro other hother
    constructor
    · intro heq
      obtain rfl := (String.append_left_inj "_raw").mp heq
      exact (List.nodup_cons.mp hnodup).1 hother
    · rintro rfl
      exact hdisjoint _ (List.mem_append_right before (List.mem_cons_of_mem id hother)) _
        List.mem_cons_self rfl
  -- the raw text of the first stands where the second would find its own text
  obtain ⟨-, hkept⟩ := h.of_inert hsteps (inert_rawMarked id) hearlier
  obtain ⟨-, hraw⟩ := h.of_inert hsteps (inert_rawMarked id) hids
  have hsame := get?_stateAfter_later (by rw [List.length_map])
    (render_inert hsteps (inert_rawMarked id) before counter
      { metadata := (questionWith (rawMarked id) ids).fields } r)
    (congrArg Outcome.result (expand_inert (inert_rawMarked id id) hsteps _ _))
    (ne_append_raw id).symm (ne_raw (by decide) id).symm hbetween (ne_append_raw (id ++ "_raw"))
    (between.map (rawMarked id))
  rw [hkept, ← List.map_cons, ← List.map_append, rawMarked_self] at hsame
  have hreplaced := (raw_of_entered hsame).symm.trans hraw
  rw [rawMarked_raw] at hreplaced
  exact absurd hreplaced (by decide)

/-- A channel that is called like the raw text of a later one has its output replaced by it. -/
theorem AllEntered.not_earlier {counter : Nat} {ids : List String} {r : ρ}
    (h : AllEntered e counter ids r) (hsteps : e.maxSteps ≠ 0)
    {before between after : List String} {id : String} :
    ids ≠ (before ++ (id ++ "_raw") :: between) ++ id :: after := by
  intro hids
  obtain ⟨hentered, hraw⟩ := h.of_inert hsteps (inert_rawMarked id) hids
  -- the output of the first is its text, but the raw text of the second is found
  have houtput := hentered.earlier before.length (id ++ "_raw") (by simp)
  rw [hraw, rawMarked_self] at houtput
  simp [rawMarked_raw] at houtput

/-- If every channel of every question finds what it is to find, then no channel is called like
another entry. -/
theorem AllEntered.ownNames {counter : Nat} {ids : List String} {r : ρ}
    (h : AllEntered e counter ids r) (hnodup : ids.Nodup) (hsteps : e.maxSteps ≠ 0) :
    OwnNames ids := by
  constructor
  · intro hmem
    obtain ⟨before, after, hids⟩ := List.append_of_mem hmem
    -- the counter is found as the raw text, whatever that is to be
    have hcounter : ∀ text : String, Inert text.toList → Nat.repr counter = text := by
      intro text hinert
      obtain ⟨hentered, hraw⟩ := h.of_inert hsteps (fun _ => hinert) hids
      exact Option.some.inj ((raw_of_entered hentered.counter).symm.trans hraw)
    exact absurd ((hcounter "A" (by decide)).symm.trans (hcounter "B" (by decide))) (by decide)
  · intro hmem
    obtain ⟨before, after, hids⟩ := List.append_of_mem hmem
    have hinert : Inert "A".toList := by decide
    -- the name of the channel is found as its raw text
    obtain ⟨hentered, hraw⟩ := h.of_inert hsteps (fun _ => hinert) hids
    exact absurd (Option.some.inj ((raw_of_entered hentered.file).symm.trans hraw)) (by decide)
  · intro id hid hmem
    obtain ⟨before, after, hids⟩ := List.append_of_mem hmem
    rw [hids] at hid
    rcases List.mem_append.mp hid with hbefore | hafter
    · obtain ⟨first, between, rfl⟩ := List.append_of_mem hbefore
      exact h.not_later hnodup hsteps hids
    · have hlater := (List.mem_cons.mp hafter).resolve_left (ne_append_raw id)
      obtain ⟨between, last, rfl⟩ := List.append_of_mem hlater
      rw [← List.cons_append, ← List.append_assoc] at hids
      exact h.not_earlier hsteps hids

/-- Every channel of every question of an index finds what it is to find just if the channels have
names of their own. -/
theorem allEntered_iff {path : Path} {entries : Entries} {exam : ExamIndex}
    (hexam : ExamIndex.ofEntries path entries = .ok exam) (hsteps : e.maxSteps ≠ 0) (counter : Nat)
    (r : ρ) : AllEntered e counter exam.ids r ↔ OwnNames exam.ids := by
  have hnodup := (ExamIndex.wellNamed_of_ofEntries hexam).nodup
  constructor
  · exact fun h => h.ownNames hnodup hsteps
  · intro hown q before after id outputs r' hids hrender
    rw [hids] at hnodup hown
    exact entered_stateAfter hnodup hown e counter _ (List.length_map _).symm hrender

end Rendering

end ExamPaper

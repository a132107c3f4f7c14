import ExamPaper.Proofs.Template.Scanning

/-!
# Channels rendered one after another

Each channel is expanded with what the channels before it have left: their variables, and their
outputs as metadata under their names. `throughChannels` keeps the state that `renderFrom` leaves
out of its answer, so that a rendering can be taken apart at any channel.

> A name that no channel sets keeps its value (`throughChannels_get?`). A rendering of some channels
> begins every rendering that goes on with others (`render_prefix`), and the channel after them is
> expanded from where they end (`render_channel`).
-/

namespace ExamPaper

namespace Template

namespace Engine

variable {ρ : Type}

variable [Draws ρ] {e : Engine}

/-! ## A rendering taken apart -/

/-- What rendering channels leaves behind: their outputs, and the state and the random source that
the next channel would start from. -/
def throughChannels (e : Engine) : List (String × String) → State → ρ → Outcome ρ (List String)
  | [], s, r => ⟨.ok [], s, r⟩
  | (id, text) :: rest, s, r =>
    (e.expand text (enterChannel s id) r).bind fun output s r =>
      (throughChannels e rest (s.setMetadata id output) r).map (output :: ·)

/-- Channels are rendered to the texts that are put out by going through them. -/
theorem renderFrom_eq : ∀ (channels : List (String × String)) (s : State) (r : ρ),
    e.renderFrom channels s r =
      ((e.throughChannels channels s r).result, (e.throughChannels channels s r).rng) := by
  intro channels
  induction channels with
  | nil => intro s r; rfl
  | cons channel rest ih =>
    obtain ⟨id, text⟩ := channel
    intro s r
    rw [renderFrom, throughChannels]
    generalize e.expand text (enterChannel s id) r = o
    obtain ⟨result, s', r'⟩ := o
    cases result with
    | error error => rfl
    | ok output =>
      dsimp only [Outcome.bind]
      rw [ih]
      generalize e.throughChannels rest (s'.setMetadata id output) r' = later
      obtain ⟨result, s'', r''⟩ := later
      cases result <;> rfl

/-- To go through channels is to go through the first of them and then through the others. -/
theorem throughChannels_append : ∀ (before after : List (String × String)) (s : State) (r : ρ),
    e.throughChannels (before ++ after) s r =
      (e.throughChannels before s r).bind fun outputs s r =>
        (e.throughChannels after s r).map (outputs ++ ·) := by
  intro before
  induction before with
  | nil => intro after s r; exact (Outcome.map_id _).symm
  | cons channel before ih =>
    obtain ⟨id, text⟩ := channel
    intro after s r
    rw [List.cons_append, throughChannels, throughChannels, Outcome.bind_assoc]
    refine Outcome.bind_congr fun output _ => ?_
    rw [ih, Outcome.bind_map, Outcome.map_bind]
    refine Outcome.bind_congr fun outputs _ => ?_
    rw [Outcome.map_map]
    rfl

/-- There is one text for each channel. -/
theorem throughChannels_length : ∀ {channels : List (String × String)} {s : State} {r : ρ}
    {outputs : List String}, (e.throughChannels channels s r).result = .ok outputs →
      outputs.length = channels.length := by
  intro channels
  induction channels with
  | nil =>
    intro s r outputs h
    obtain rfl := Except.ok.inj h
    rfl
  | cons channel rest ih =>
    obtain ⟨id, text⟩ := channel
    intro s r outputs h
    rw [throughChannels] at h
    obtain ⟨output, _, h⟩ := Outcome.result_bind h
    obtain ⟨later, hlater, rfl⟩ := Outcome.result_map h
    rw [List.length_cons, List.length_cons, ih hlater]

/-! ## What a channel finds of those before it -/

/-- A name that does not end like that of a raw text is that of none. -/
theorem ne_raw {name : String} (h : ¬ "_raw".toList <:+ name.toList) (other : String) :
    name ≠ other ++ "_raw" := by
  rintro rfl
  refine h ?_
  rw [String.toList_append]
  exact List.suffix_append _ _

/-- Entering a channel changes two entries of the metadata. -/
theorem get?_enterChannel {s : State} {id name : String} (hfile : name ≠ "FILE")
    (hraw : name ≠ id ++ "_raw") :
    (enterChannel s id).metadata.get? name = s.metadata.get? name := by
  have hset : (s.setMetadata "FILE" id).metadata.get? name = s.metadata.get? name :=
    NameMap.get?_insert_of_ne _ hfile id
  unfold enterChannel
  dsimp only
  split
  · exact (NameMap.get?_insert_of_ne _ hraw _).trans hset
  · exact hset

/-- The current channel is found under `FILE`. -/
theorem file_enterChannel (s : State) (id : String) :
    (enterChannel s id).metadata.get? "FILE" = some id := by
  have hset : (s.setMetadata "FILE" id).metadata.get? "FILE" = some id :=
    NameMap.get?_insert_self _ "FILE" id
  unfold enterChannel
  dsimp only
  split
  · exact (NameMap.get?_insert_of_ne _ (ne_raw (by decide) id) _).trans hset
  · exact hset

/-- What stood under the name of the channel is found as its raw text. -/
theorem raw_enterChannel {s : State} {id text : String}
    (h : (s.setMetadata "FILE" id).metadata.get? id = some text) :
    (enterChannel s id).metadata.get? (id ++ "_raw") = some text := by
  unfold enterChannel
  dsimp only
  rw [h]
  exact NameMap.get?_insert_self _ (id ++ "_raw") text

/-- A name that no channel sets keeps its value. -/
theorem throughChannels_get? : ∀ {channels : List (String × String)} {name : String} (s : State)
    (r : ρ), name ≠ "FILE" → (∀ channel ∈ channels, name ≠ channel.1 ++ "_raw") →
      (∀ channel ∈ channels, name ≠ channel.1) →
      (e.throughChannels channels s r).state.metadata.get? name = s.metadata.get? name := by
  intro channels
  induction channels with
  | nil => intro name s r _ _ _; rfl
  | cons channel rest ih =>
    obtain ⟨id, text⟩ := channel
    intro name s r hfile hraws hnames
    obtain ⟨hraw, hrestRaws⟩ := List.forall_mem_cons.mp hraws
    obtain ⟨hid, hrest⟩ := List.forall_mem_cons.mp hnames
    have hexpanded : (e.expand text (enterChannel s id) r).state.metadata.get? name =
        s.metadata.get? name := by
      rw [expand_metadata, get?_enterChannel hfile hraw]
    rw [throughChannels]
    refine Outcome.state_bind
      (P := fun s' => s'.metadata.get? name = s.metadata.get? name) hexpanded ?_
    intro output
    show (e.throughChannels rest _ _).state.metadata.get? name = _
    rw [ih _ _ hfile hrestRaws hrest, ← hexpanded]
    exact NameMap.get?_insert_of_ne _ hid output

/-- The output of a channel is found under its name after any channels that do not set it. -/
theorem throughChannels_output {id text : String} {after : List (String × String)}
    (hfile : id ≠ "FILE") (hraws : ∀ channel ∈ after, id ≠ channel.1 ++ "_raw")
    (hafter : ∀ channel ∈ after, id ≠ channel.1) :
    ∀ {before : List (String × String)} {s : State} {r : ρ} {outputs : List String},
      (e.throughChannels (before ++ (id, text) :: after) s r).result = .ok outputs →
      (e.throughChannels (before ++ (id, text) :: after) s r).state.metadata.get? id =
        outputs[before.length]? := by
  intro before
  induction before with
  | nil =>
    intro s r outputs h
    rw [List.nil_append, throughChannels] at h ⊢
    obtain ⟨output, houtput, h⟩ := Outcome.result_bind h
    obtain ⟨later, _, rfl⟩ := Outcome.result_map h
    rw [Outcome.bind_of_ok houtput]
    -- the output is stored now, and no channel after this one sets its name
    show (e.throughChannels after _ _).state.metadata.get? id = some output
    rw [throughChannels_get? _ _ hfile hraws hafter]
    exact NameMap.get?_insert_self _ id output
  | cons channel before ih =>
    obtain ⟨other, otherText⟩ := channel
    intro s r outputs h
    rw [List.cons_append, throughChannels] at h ⊢
    obtain ⟨output, houtput, h⟩ := Outcome.result_bind h
    obtain ⟨later, hlater, rfl⟩ := Outcome.result_map h
    rw [Outcome.bind_of_ok houtput]
    exact ih hlater

/-- The output of each of several channels with different names is found under its name after all
of them, unless the name is that of the current channel or of a raw text. -/
theorem get?_throughChannels {channels : List (String × String)} {id : String} {j : Nat} {s : State}
    {r : ρ} {outputs : List String} (hids : (channels.map (·.1)).Nodup)
    (hid : (channels.map (·.1))[j]? = some id) (hfile : id ≠ "FILE")
    (hraws : ∀ channel ∈ channels, id ≠ channel.1 ++ "_raw")
    (h : (e.throughChannels channels s r).result = .ok outputs) :
    (e.throughChannels channels s r).state.metadata.get? id = outputs[j]? := by
  rw [List.getElem?_map, Option.map_eq_some_iff] at hid
  obtain ⟨⟨id', text⟩, hchannel, hfst⟩ := hid
  obtain rfl : id' = id := hfst
  obtain ⟨hj, hat⟩ := List.getElem?_eq_some_iff.mp hchannel
  have hsplit : channels.take j ++ channels[j] :: channels.drop (j + 1) = channels := by
    rw [← List.drop_eq_getElem_cons hj, List.take_append_drop]
  have hbefore : (channels.take j).length = j := List.length_take_of_le (Nat.le_of_lt hj)
  have hafterRaws : ∀ channel ∈ channels.drop (j + 1), id' ≠ channel.1 ++ "_raw" :=
    fun channel hmem => hraws channel (List.mem_of_mem_drop hmem)
  rw [← hsplit, hat] at h hids ⊢
  have hafter : ∀ channel ∈ channels.drop (j + 1), id' ≠ channel.1 := by
    rw [List.map_append, List.map_cons, List.nodup_append, List.nodup_cons] at hids
    intro channel hmem heq
    exact hids.2.1.1 (List.mem_map.mpr ⟨channel, hmem, heq.symm⟩)
  rw [throughChannels_output hfile hafterRaws hafter h, hbefore]

/-! ## Channels added at the end -/

/-- A rendering of some channels begins every rendering that goes on with others. -/
theorem render_prefix {counter : Nat} {base : State} {ids texts more moreTexts all : List String}
    {r r' : ρ} (hlength : ids.length = texts.length)
    (h : e.render counter base (ids ++ more) (texts ++ moreTexts) r = (.ok all, r')) :
    ∃ outputs, (e.render counter base ids texts r).1 = .ok outputs ∧ outputs <+: all := by
  unfold render at h ⊢
  rw [renderFrom_eq] at h ⊢
  obtain ⟨hresult, _⟩ := Prod.mk.inj h
  rw [List.zip_append hlength, throughChannels_append] at hresult
  obtain ⟨outputs, houtputs, hlater⟩ := Outcome.result_bind hresult
  obtain ⟨later, _, rfl⟩ := Outcome.result_map hlater
  exact ⟨outputs, houtputs, List.prefix_append outputs later⟩

/-- The state in which a channel is expanded that comes after others. -/
def stateAfter (e : Engine) (counter : Nat) (base : State) (ids texts : List String) (r : ρ)
    (next : String) : State :=
  enterChannel (e.throughChannels (ids.zip texts)
    (base.setMetadata "COUNTER" (Nat.repr counter)) r).state next

/-- A channel is expanded from where those before it end, and those after it from where it ends. -/
theorem render_channel {counter : Nat} {base : State} {ids texts outputs : List String} {r r' : ρ}
    (hlength : ids.length = texts.length)
    (hrender : e.render counter base ids texts r = (.ok outputs, r')) (next text : String)
    (after more : List String) :
    e.render counter base (ids ++ next :: after) (texts ++ text :: more) r =
      let o := e.expand text (e.stateAfter counter base ids texts r next) r'
      match o.result with
      | .error error => (.error error, o.rng)
      | .ok output =>
        let rest := e.renderFrom (after.zip more) (o.state.setMetadata next output) o.rng
        (rest.1.map fun later => outputs ++ output :: later, rest.2) := by
  unfold render at hrender ⊢
  unfold stateAfter
  generalize base.setMetadata "COUNTER" (Nat.repr counter) = start at hrender ⊢
  rw [renderFrom_eq] at hrender
  obtain ⟨hresult, hrng⟩ := Prod.mk.inj hrender
  rw [renderFrom_eq, List.zip_append hlength, throughChannels_append, Outcome.bind_of_ok hresult,
    hrng, List.zip_cons_cons, throughChannels]
  generalize e.expand text _ r' = o
  obtain ⟨result, s, r''⟩ := o
  cases result with
  | error error => rfl
  | ok output =>
    dsimp only
    rw [renderFrom_eq, Outcome.bind_of_ok rfl, Outcome.map_map]
    rfl

/-- One more channel is expanded from where the others end. -/
theorem render_concat {counter : Nat} {base : State} {ids texts outputs : List String} {r r' : ρ}
    (hlength : ids.length = texts.length)
    (hrender : e.render counter base ids texts r = (.ok outputs, r')) (next text : String) :
    e.render counter base (ids ++ [next]) (texts ++ [text]) r =
      let o := e.expand text (e.stateAfter counter base ids texts r next) r'
      (o.result.map fun output => outputs ++ [output], o.rng) := by
  rw [render_channel hlength hrender]
  generalize e.expand text _ r' = o
  obtain ⟨result, s, r''⟩ := o
  cases result <;> rfl

end Engine

end Template

end ExamPaper

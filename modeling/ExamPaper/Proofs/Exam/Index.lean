import ExamPaper.Exam.Index
import Mathlib.Data.List.Forall2

/-!
# The channels of an index that was read

Every channel of an index is named by the stem of its file, and no two channels have the same name
(`wellNamed_of_ofEntries`). The names are checked one after another against those before. The
channels are put together from four lists, of which nothing is lost, as these are of one length
(`ReadsAs.length_eq`, `ReadsAs.columns`).
-/

namespace ExamPaper

namespace ExamIndex

/-- A file gives its stem to its channel as a name. -/
def Names (file id : String) : Prop := Path.stem? ⟨file⟩ = some id ∧ id ≠ ""

/-- Every channel is named by its file, and no two channels have one name. -/
structure WellNamed (e : ExamIndex) : Prop where
  names : ∀ c ∈ e.channels, Names c.file c.id
  nodup : e.ids.Nodup

/-- The name of a first file is taken for a channel if it is not reserved and none before it has it.
-/
theorem channelIds_cons {seen files ids : List String} {file : String}
    (h : channelIds seen (file :: files) = .ok ids) :
    ∃ id rest, Names file id ∧ id ∉ reservedFields ∧ id ∉ seen ∧
      channelIds (seen ++ [id]) files = .ok rest ∧ ids = id :: rest := by
  rw [channelIds] at h
  cases hstem : (Path.stem? ⟨file⟩).filter fun id => !id.isEmpty with
  | none => rw [hstem] at h; exact absurd h (by simp)
  | some id =>
    rw [hstem] at h
    dsimp only at h
    obtain ⟨hid, hne⟩ := Option.filter_eq_some_iff.mp hstem
    split at h
    · exact absurd h (by simp)
    · rename_i hreserved
      split at h
      · exact absurd h (by simp)
      · rename_i hseen
        cases hrest : channelIds (seen ++ [id]) files with
        | error e => rw [hrest] at h; exact absurd h (by simp [Except.map])
        | ok rest =>
          rw [hrest] at h
          refine ⟨id, rest, ⟨hid, ?_⟩, fun hmem => hreserved (List.contains_iff_mem.mpr hmem),
            fun hmem => hseen (List.contains_iff_mem.mpr hmem), hrest, (Except.ok.inj h).symm⟩
          rintro rfl
          exact absurd hne (by decide)

/-- The channels of files are named by them, and are different from each other, from fields that
have a meaning and from those before. -/
theorem channelIds_ok : ∀ {files seen ids : List String}, channelIds seen files = .ok ids →
    List.Forall₂ Names files ids ∧ ids.Nodup ∧ ∀ id ∈ ids, id ∉ reservedFields ∧ id ∉ seen := by
  intro files
  induction files with
  | nil =>
    intro seen ids h
    obtain rfl := Except.ok.inj h
    exact ⟨.nil, List.nodup_nil, by simp⟩
  | cons file files ih =>
    intro seen ids h
    obtain ⟨id, rest, hnames, hreserved, hid, hrest, rfl⟩ := channelIds_cons h
    -- the rest differs from the names before it, of which this one is the last
    obtain ⟨hall, hnodup, hnew⟩ := ih hrest
    refine ⟨.cons hnames hall, List.nodup_cons.mpr ⟨?_, hnodup⟩, ?_⟩
    · intro hmem
      exact (hnew id hmem).2 (List.mem_append_right seen List.mem_cons_self)
    · intro other hother
      rcases List.mem_cons.mp hother with rfl | hmem
      · exact ⟨hreserved, hid⟩
      · obtain ⟨hfield, hlater⟩ := hnew other hmem
        exact ⟨hfield, fun hseen => hlater (List.mem_append_left [id] hseen)⟩

/-- There is one text for each channel. -/
theorem readTexts_length {entries : Entries} {start : String} : ∀ {ids texts : List String},
    readTexts entries start ids = .ok texts → texts.length = ids.length := by
  intro ids
  induction ids with
  | nil =>
    intro texts h
    obtain rfl := Except.ok.inj h
    rfl
  | cons id ids ih =>
    intro texts h
    rw [readTexts] at h
    cases htext : readText entries (start ++ id) with
    | error e => rw [htext] at h; exact absurd h (by simp)
    | ok text =>
      rw [htext] at h
      cases hrest : readTexts entries start ids with
      | error e => rw [hrest] at h; exact absurd h (by simp [Except.map])
      | ok rest =>
        rw [hrest] at h
        obtain rfl := Except.ok.inj h
        rw [List.length_cons, List.length_cons, ih hrest]

/-- The lists that the output channels of an index are made of: the files as they are written, the
names of the channels, and the texts at their beginnings and ends. -/
structure ReadsAs (entries : Entries) (files ids headers footers : List String) : Prop where
  files_eq : readFiles entries = .ok files
  ids_eq : channelIds [] files = .ok ids
  headers_eq : readTexts entries "begin_" ids = .ok headers
  footers_eq : readTexts entries "end_" ids = .ok footers

/-- The channels of an index are read column by column: files, names, beginnings and ends. -/
theorem readChannels_lists {entries : Entries} {channels : List OutputChannel}
    (h : readChannels entries = .ok channels) :
    ∃ files ids headers footers, ReadsAs entries files ids headers footers ∧
      channels = outputChannels files ids headers footers := by
  unfold readChannels at h
  cases hfiles : readFiles entries with
  | error e => rw [hfiles] at h; exact absurd h (by simp)
  | ok files =>
  cases hids : channelIds [] files with
  | error e => simp only [hfiles, hids] at h; exact absurd h (by simp)
  | ok ids =>
  cases hheaders : readTexts entries "begin_" ids with
  | error e => simp only [hfiles, hids, hheaders] at h; exact absurd h (by simp)
  | ok headers =>
  cases hfooters : readTexts entries "end_" ids with
  | error e => simp only [hfiles, hids, hheaders, hfooters] at h; exact absurd h (by simp)
  | ok footers =>
    simp only [hfiles, hids, hheaders, hfooters] at h
    exact ⟨files, ids, headers, footers, ⟨hfiles, hids, hheaders, hfooters⟩,
      (Except.ok.inj h).symm⟩

/-- Channels lose nothing of the lists that they are made of. -/
theorem outputChannels_columns : ∀ {files ids headers footers : List String},
    ids.length = files.length → headers.length = files.length → footers.length = files.length →
      let channels := outputChannels files ids headers footers
      channels.map (·.file) = files ∧ channels.map (·.id) = ids ∧
        channels.map (·.header) = headers ∧ channels.map (·.footer) = footers := by
  intro files
  induction files with
  | nil =>
    intro ids headers footers hids hheaders hfooters
    obtain rfl := List.length_eq_zero_iff.mp hids
    obtain rfl := List.length_eq_zero_iff.mp hheaders
    obtain rfl := List.length_eq_zero_iff.mp hfooters
    exact ⟨rfl, rfl, rfl, rfl⟩
  | cons file files ih =>
    intro ids headers footers hids hheaders hfooters
    obtain ⟨id, ids, rfl⟩ := List.exists_cons_of_length_eq_add_one hids
    obtain ⟨header, headers, rfl⟩ := List.exists_cons_of_length_eq_add_one hheaders
    obtain ⟨footer, footers, rfl⟩ := List.exists_cons_of_length_eq_add_one hfooters
    obtain ⟨hfile, hid, hheader, hfooter⟩ :=
      ih (Nat.succ.inj hids) (Nat.succ.inj hheaders) (Nat.succ.inj hfooters)
    exact ⟨congrArg (file :: ·) hfile, congrArg (id :: ·) hid, congrArg (header :: ·) hheader,
      congrArg (footer :: ·) hfooter⟩

namespace ReadsAs

variable {entries : Entries} {files ids headers footers : List String}
  (h : ReadsAs entries files ids headers footers)

include h

/-- There are as many channels and texts as there are files. -/
theorem length_eq :
    ids.length = files.length ∧ headers.length = files.length ∧ footers.length = files.length := by
  have hids := (channelIds_ok h.ids_eq).1.length_eq.symm
  exact ⟨hids, (readTexts_length h.headers_eq).trans hids,
    (readTexts_length h.footers_eq).trans hids⟩

theorem columns :
    let channels := outputChannels files ids headers footers
    channels.map (·.file) = files ∧ channels.map (·.id) = ids ∧
      channels.map (·.header) = headers ∧ channels.map (·.footer) = footers :=
  outputChannels_columns h.length_eq.1 h.length_eq.2.1 h.length_eq.2.2

end ReadsAs

/-- Channels are called like their files without the extension, and no two have one name. -/
theorem readChannels_ok {entries : Entries} {channels : List OutputChannel}
    (h : readChannels entries = .ok channels) :
    (∀ c ∈ channels, Names c.file c.id) ∧ (channels.map (·.id)).Nodup := by
  obtain ⟨files, ids, headers, footers, hreads, hchannels⟩ := readChannels_lists h
  obtain ⟨hnames, hnodup, _⟩ := channelIds_ok hreads.ids_eq
  obtain ⟨hfiles, hids, -⟩ := hreads.columns
  rw [← hchannels] at hfiles hids
  rw [← hfiles, ← hids, List.forall₂_map_left_iff, List.forall₂_map_right_iff,
    List.forall₂_same] at hnames
  rw [hids]
  exact ⟨hnames, hnodup⟩

/-- An index that is read keeps its path, and its channels are those that its entries name. -/
theorem ofEntries_ok {path : Path} {entries : Entries} {e : ExamIndex}
    (h : ofEntries path entries = .ok e) :
    e.path = path ∧ readChannels entries = .ok e.channels := by
  unfold ofEntries at h
  -- a field that cannot be read ends the reading
  repeat
    split at h
    · exact absurd h (by simp)
  obtain rfl := Except.ok.inj h
  exact ⟨rfl, ‹readChannels entries = .ok _›⟩

/-- In an index that is read the channels are well named. -/
theorem wellNamed_of_ofEntries {path : Path} {entries : Entries} {e : ExamIndex}
    (h : ofEntries path entries = .ok e) : e.WellNamed := by
  obtain ⟨hnames, hnodup⟩ := readChannels_ok (ofEntries_ok h).2
  exact ⟨hnames, hnodup⟩

end ExamIndex

end ExamPaper

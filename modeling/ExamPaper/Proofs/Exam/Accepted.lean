import ExamPaper.Proofs.Exam.Outputs

/-!
# The files of an index that was read

An index is refused if one of its files gives no name to a channel, or a name that is taken. Only
these names are compared; the files that are written are called for the index, the channel and the
edition, with the extension of the file at the end.

> Files, channels, beginnings and ends are as many as each other, and at least one
> (`ReadsAs.length_eq`, `readFiles_ne_nil`). The paths of an edition lead to different files, also
> for an index at another path, so that no text of an edition takes the place of another
> (`ofEntries_files`).
-/

namespace ExamPaper

open ExamIndex (ReadsAs)

namespace Outputs

/-- Two paths of two files: they differ, also if they are compared by their components, and on no
disk do they lead to one place. -/
structure TwoFiles (p q : Path) : Prop where
  ne : p ≠ q
  components_ne : p.components ≠ q.components
  locate_ne : ∀ (disk : Disk) l, disk.locate p = .ok l → disk.locate q ≠ .ok l

/-- Different names in a directory are those of two files. -/
theorem twoFiles_join {name other : String} (directory : Path) (hname : IsEntryName name)
    (hother : IsEntryName other) (hne : name ≠ other) :
    TwoFiles (directory.join ⟨name⟩) (directory.join ⟨other⟩) := by
  have hcomponents : (directory.join ⟨name⟩).components ≠ (directory.join ⟨other⟩).components :=
    fun heq => hne (hname.eq_of_components_join hother heq)
  refine ⟨fun heq => hcomponents (congrArg Path.components heq), hcomponents, ?_⟩
  intro disk l hl
  exact Disk.locate_ne hname hother hne.symm hl

/-- Different names of one directory are paths of different files. -/
theorem pairwise_inside {names : List String} (directory : Path) (hnodup : names.Nodup)
    (hnames : ∀ name ∈ names, IsEntryName name) :
    (inside directory names).Pairwise TwoFiles := by
  refine List.pairwise_map.mpr (List.Pairwise.imp_of_mem ?_ hnodup)
  intro name other hname hother hne
  exact twoFiles_join directory (hnames name hname) (hnames other hother) hne

end Outputs

namespace ExamIndex

/-- An index that is read has at least one output file. -/
theorem readFiles_ne_nil {entries : Entries} {files : List String}
    (h : readFiles entries = .ok files) : files ≠ [] := by
  rintro rfl
  unfold readFiles at h
  split at h
  · exact absurd h (by simp)
  · exact absurd h (by simp)
  · split at h
    · exact absurd h (by simp)
    · exact absurd h (by simp)
    · next hnil _ => exact hnil (Except.ok.inj h)
  · exact absurd h (by simp)

/-- **The files of an index.** If an index is read, its files, channels, beginnings and ends are as
many as each other and not none. No channel is called by nothing or like a field that has a meaning,
and no two channels have one name. For an index at any path and for any edition, the paths of the
channels are those of different files; so if the texts of an edition can be written, all of them are
there afterwards. -/
theorem ofEntries_files {path : Path} {entries : Entries} {exam : ExamIndex}
    (h : ofEntries path entries = .ok exam) :
    (∃ headers footers, ReadsAs entries exam.files exam.ids headers footers ∧
      exam.channels = outputChannels exam.files exam.ids headers footers ∧
      0 < exam.files.length ∧ exam.ids.length = exam.files.length ∧
      headers.length = exam.files.length ∧ footers.length = exam.files.length) ∧
    (∀ id ∈ exam.ids, id ≠ "" ∧ id ∉ reservedFields) ∧ exam.ids.Nodup ∧
    ∀ (index : Path) (edition : Nat),
      (Outputs.paths index exam.files edition).Pairwise Outputs.TwoFiles ∧
      ∀ (disk after : Disk) (texts : List String), texts.length = exam.files.length →
        Outputs.write disk (Outputs.paths index exam.files edition) texts = ⟨.ok (), after⟩ →
        List.Forall₂ (fun path text => after.read path = .ok text)
          (Outputs.paths index exam.files edition) texts := by
  have hwell := wellNamed_of_ofEntries h
  obtain ⟨files, ids, headers, footers, hreads, hchannels⟩ := readChannels_lists (ofEntries_ok h).2
  obtain ⟨hfiles, hids, -⟩ := hreads.columns
  rw [← hchannels] at hfiles hids
  obtain rfl : exam.files = files := hfiles
  obtain rfl : exam.ids = ids := hids
  obtain ⟨hnames, hnodup, hnew⟩ := channelIds_ok hreads.ids_eq
  refine ⟨⟨headers, footers, hreads, hchannels, ?_, hreads.length_eq⟩, ?_, hnodup, ?_⟩
  · exact List.length_pos_iff.mpr (readFiles_ne_nil hreads.files_eq)
  · intro id hid
    obtain ⟨c, hc, rfl⟩ := List.mem_map.mp hid
    exact ⟨(hwell.names c hc).2, (hnew c.id hid).1⟩
  · intro index edition
    have hentries := Outputs.isEntryName_of_mem index exam.files edition
    have hdistinct := Outputs.nodup_names hwell index edition
    rw [Outputs.paths_eq]
    refine ⟨Outputs.pairwise_inside index.directory hdistinct hentries, ?_⟩
    intro disk after texts hlength hwrite
    obtain ⟨k, hstored, -, hall⟩ := Outputs.write_stored index.directory disk hdistinct hentries
      ((List.length_map _).trans hlength.symm)
    rw [hwrite] at hstored hall
    -- the writing was not broken off, so that all texts are stored
    obtain rfl : k = _ := hall
    rw [List.take_length, List.take_of_length_le (by simp [hlength])] at hstored
    exact hstored.read_eq

/-- The fields of an index whose files have several dots, one at the start only, and none. -/
def dottedEntries : Entries :=
  [(.text "difficulty", .number (.int 1)),
    (.text "files", .list [.text "d/a.b.md", .text ".hidden", .text "a"]),
    (.text "begin_a.b", .text "x"), (.text "parts", .text "all")]

/-- The index that the fields are read as. -/
def dottedExam : ExamIndex where
  path := ⟨"exam.yaml"⟩
  difficulty := 1.0
  tolerance := none
  tries := none
  seed := none
  bank := none
  channels := [⟨"d/a.b.md", "a.b", "x", ""⟩, ⟨".hidden", ".hidden", "", ""⟩, ⟨"a", "a", "", ""⟩]
  macros := ∅
  metadata := ∅
  parts := .tag "all"

theorem ofEntries_files_dotted :
    ofEntries ⟨"exam.yaml"⟩ dottedEntries = .ok dottedExam ∧
    Outputs.paths ⟨"e/final.v2.yaml"⟩ dottedExam.files 3 =
      [⟨"e/final.v2_a.b_3.md"⟩, ⟨"e/final.v2_.hidden_3"⟩, ⟨"e/final.v2_a_3"⟩] ∧
    [(⟨"e/final.v2_a.b_3.md"⟩ : Path), ⟨"e/final.v2_.hidden_3"⟩, ⟨"e/final.v2_a_3"⟩].Pairwise
      Outputs.TwoFiles := by
  have hexam : ofEntries ⟨"exam.yaml"⟩ dottedEntries = .ok dottedExam := rfl
  have hpaths : Outputs.paths ⟨"e/final.v2.yaml"⟩ dottedExam.files 3 =
      [⟨"e/final.v2_a.b_3.md"⟩, ⟨"e/final.v2_.hidden_3"⟩, ⟨"e/final.v2_a_3"⟩] := by decide
  obtain ⟨-, -, -, hfiles⟩ := ofEntries_files hexam
  exact ⟨hexam, hpaths, hpaths ▸ (hfiles ⟨"e/final.v2.yaml"⟩ 3).1⟩

end ExamIndex

end ExamPaper

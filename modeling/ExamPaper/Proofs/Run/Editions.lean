import ExamPaper.Proofs.Run.Generation

/-!
# Files that two editions have in common

The file of a channel in an edition is called like the index and the channel, with the number of the
edition after that unless it is edition 0. A channel may itself be called like another one with a
number after it: with `notes.md` and `notes_1.md`, edition 0 of the second and edition 1 of the
first are one file. An index like that is accepted, and a run that is told its edition does not look
at what is there.

> Nothing else makes two editions share a file, and two editions with a number never do. So a run
> of one edition leaves all files of another as they were but those that are shared
> (`generate_other_edition`).
-/

namespace ExamPaper

open ExamIndex (Names)
open Outputs (nameFor inside)

/-- A channel is called like another one with a number, and their files have one extension. -/
structure OutputChannel.CalledLike (c other : OutputChannel) (number : Nat) : Prop where
  id_eq : c.id = other.id ++ "_" ++ Nat.repr number
  extension_eq : Path.extension? ⟨c.file⟩ = Path.extension? ⟨other.file⟩

/-- The file of a channel in one edition is that of a channel in another edition: one of the two is
edition 0, and its channel is called like the other one with the number of the other edition. -/
def SharesFile (k : Nat) (c : OutputChannel) (k' : Nat) (c' : OutputChannel) : Prop :=
  k = 0 ∧ c.CalledLike c' k' ∨ k' = 0 ∧ c'.CalledLike c k

instance (c other : OutputChannel) (number : Nat) : Decidable (c.CalledLike other number) :=
  decidable_of_iff (c.id = other.id ++ "_" ++ Nat.repr number ∧
      Path.extension? ⟨c.file⟩ = Path.extension? ⟨other.file⟩)
    ⟨fun h => ⟨h.1, h.2⟩, fun h => ⟨h.id_eq, h.extension_eq⟩⟩

instance (k : Nat) (c : OutputChannel) (k' : Nat) (c' : OutputChannel) :
    Decidable (SharesFile k c k' c') :=
  inferInstanceAs (Decidable (_ ∨ _))

namespace Outputs

/-- Two names with different numbers are spelled alike only if one of the numbers is left out and
the name ends in the other. -/
theorem append_numberText_eq_iff {id id' : String} {k k' : Nat} (hne : k ≠ k') :
    id.toList ++ numberText k = id'.toList ++ numberText k' ↔
      k = 0 ∧ id = id' ++ "_" ++ Nat.repr k' ∨ k' = 0 ∧ id' = id ++ "_" ++ Nat.repr k := by
  have hnumbered : ∀ (s s' : String) (n : Nat),
      s = s' ++ "_" ++ Nat.repr (n + 1) ↔ s.toList = s'.toList ++ numberText (n + 1) := by
    intro s s' n
    rw [← String.toList_inj, String.toList_append, String.toList_append, Nat.toList_repr,
      List.append_assoc]
    rfl
  cases k with
  | zero =>
    cases k' with
    | zero => exact absurd rfl hne
    | succ n =>
      rw [hnumbered]
      simp [numberText]
  | succ m =>
    cases k' with
    | zero =>
      rw [hnumbered id' id m]
      simp [numberText, eq_comm]
    | succ n =>
      constructor
      · intro h
        exact absurd (congrArg (· + 1) (number_eq_of_append_eq h)) hne
      · rintro (⟨h, -⟩ | ⟨h, -⟩)
        · exact absurd h (Nat.succ_ne_zero m)
        · exact absurd h (Nat.succ_ne_zero n)

/-- The names of two channels in two editions agree just if they share a file. -/
theorem nameFor_eq_iff {index : Path} {c c' : OutputChannel} {k k' : Nat} (hne : k ≠ k')
    (h : Names c.file c.id) (h' : Names c'.file c'.id) :
    nameFor index k c.file = nameFor index k' c'.file ↔ SharesFile k c k' c' := by
  unfold nameFor
  rw [name_eq_iff h h', append_numberText_eq_iff hne]
  constructor
  · rintro ⟨⟨hk, hid⟩ | ⟨hk', hid⟩, hextension⟩
    · exact Or.inl ⟨hk, hid, hextension⟩
    · exact Or.inr ⟨hk', hid, hextension.symm⟩
  · rintro (⟨hk, hid, hextension⟩ | ⟨hk', hid, hextension⟩)
    · exact ⟨Or.inl ⟨hk, hid⟩, hextension⟩
    · exact ⟨Or.inr ⟨hk', hid⟩, hextension.symm⟩

/-- The paths of two channels in two editions are one path, be they compared as texts or by their
components, just if they share a file. -/
theorem path_eq_iff {index : Path} {c c' : OutputChannel} {k k' : Nat} (hne : k ≠ k')
    (h : Names c.file c.id) (h' : Names c'.file c'.id) :
    (path index k c.file = path index k' c'.file ↔ SharesFile k c k' c') ∧
    ((path index k c.file).components = (path index k' c'.file).components ↔
      SharesFile k c k' c') := by
  have hname : nameFor index k c.file = nameFor index k' c'.file ↔ SharesFile k c k' c' :=
    nameFor_eq_iff hne h h'
  have hpath : SharesFile k c k' c' → path index k c.file = path index k' c'.file := by
    intro hshares
    show index.directory.join ⟨nameFor index k c.file⟩ = index.directory.join ⟨nameFor _ _ _⟩
    rw [hname.mpr hshares]
  have hcomponents : (path index k c.file).components = (path index k' c'.file).components →
      SharesFile k c k' c' :=
    fun heq => hname.mp ((isEntryName_nameOf index k c.file).eq_of_components_join
      (isEntryName_nameOf index k' c'.file) heq)
  exact ⟨⟨fun heq => hcomponents (congrArg Path.components heq), hpath⟩,
    ⟨hcomponents, fun hshares => congrArg Path.components (hpath hshares)⟩⟩

end Outputs

namespace Prepared

section

variable [Generator]

/-- A run leaves the disk as it is, or writes texts to the paths of its edition. -/
theorem generate_disk (p : Prepared) (options : GenerateOptions) (today : String) (disk : Disk) :
    (p.generate options today disk).disk = disk ∨
    ∃ texts, (p.generate options today disk).disk =
      (Outputs.write disk (Outputs.paths p.exam.path p.exam.files (p.edition disk options))
        texts).disk := by
  rcases generate_cases p options today disk with
    ⟨e, _, hg⟩ | ⟨_, ⟨stats, hg⟩ | ⟨e, hg⟩ | ⟨attempt, bestEffort, texts, _, hg⟩⟩
  · exact Or.inl (by rw [hg])
  · exact Or.inl (by rw [hg])
  · exact Or.inl (by rw [hg])
  · refine Or.inr ⟨texts, ?_⟩
    rw [hg]
    unfold writeEdition editionOf
    dsimp only
    rcases Outputs.write disk _ texts with ⟨e | u, after⟩
    · rfl
    · rfl

/-- What a name leads to that is none of an edition stays as it was when the edition is made. -/
theorem find_generate_of_notMem {p : Prepared} (hexam : p.exam.WellNamed)
    (options : GenerateOptions) (today : String) (disk : Disk) {name : String}
    (hname : IsEntryName name)
    (hnot : name ∉ p.exam.files.map (nameFor p.exam.path (p.edition disk options))) :
    (p.generate options today disk).disk.find (p.exam.path.directory.join ⟨name⟩) =
      disk.find (p.exam.path.directory.join ⟨name⟩) := by
  rcases generate_disk p options today disk with hsame | ⟨texts, hwritten⟩
  · rw [hsame]
  · rw [hwritten, Outputs.paths_eq]
    refine Outputs.find_write_of_notMem hname ?_ hnot
    intro other hother
    obtain ⟨file, hfile, rfl⟩ := List.mem_map.mp hother
    obtain ⟨c, hc, rfl⟩ := List.mem_map.mp hfile
    exact Outputs.isEntryName_nameFor _ _ (hexam.names c hc)

/-- **Files of two editions.** For an index that was read, the paths of two channels in two editions
are different, unless one of the editions is edition 0 and the channel of it is called like the
other channel with the number of the other edition. A run of one edition, whether it was asked for
or not, leaves what is at the path of a channel in another edition as it was, unless a channel of
its own shares the file. -/
theorem generate_other_edition {p : Prepared} {entries : Entries}
    (hexam : ExamIndex.ofEntries p.exam.path entries = .ok p.exam) {k k' : Nat} (hne : k ≠ k') :
    (∀ c ∈ p.exam.channels, ∀ c' ∈ p.exam.channels,
      (Outputs.path p.exam.path k c.file = Outputs.path p.exam.path k' c'.file ↔
        SharesFile k c k' c') ∧
      ((Outputs.path p.exam.path k c.file).components =
          (Outputs.path p.exam.path k' c'.file).components ↔
        SharesFile k c k' c')) ∧
    ∀ (options : GenerateOptions) (today : String) (disk : Disk), p.edition disk options = k →
      ∀ c' ∈ p.exam.channels, (∀ c ∈ p.exam.channels, ¬ SharesFile k c k' c') →
        (p.generate options today disk).disk.find (Outputs.path p.exam.path k' c'.file) =
          disk.find (Outputs.path p.exam.path k' c'.file) := by
  have hwell := ExamIndex.wellNamed_of_ofEntries hexam
  constructor
  · intro c hc c' hc'
    exact Outputs.path_eq_iff hne (hwell.names c hc) (hwell.names c' hc')
  · intro options today disk hedition c' hc' hnone
    refine find_generate_of_notMem hwell options today disk
      (Outputs.isEntryName_nameFor p.exam.path k' (hwell.names c' hc')) ?_
    intro hmem
    obtain ⟨file, hfile, heq⟩ := List.mem_map.mp hmem
    obtain ⟨c, hc, rfl⟩ := List.mem_map.mp hfile
    rw [hedition] at heq
    exact hnone c hc
      ((Outputs.nameFor_eq_iff hne (hwell.names c hc) (hwell.names c' hc')).mp heq)

end

def notes : OutputChannel := ⟨"notes.md", "notes", "", ""⟩

/-- A channel that is called like the one before with a number. -/
def numberedNotes : OutputChannel := ⟨"notes_1.md", "notes_1", "", ""⟩

/-- The fields of an index with the files of both. -/
def sharingEntries : Entries :=
  [(.text "difficulty", .number (.int 1)),
    (.text "files", .list [.text "notes.md", .text "notes_1.md"]), (.text "parts", .text "all")]

def sharingExam : ExamIndex where
  path := ⟨"exam.yaml"⟩
  difficulty := 1.0
  tolerance := none
  tries := none
  seed := none
  bank := none
  channels := [notes, numberedNotes]
  macros := ∅
  metadata := ∅
  parts := .tag "all"

/-- A question with a text for the first file. -/
def sharingQuestion : Question := (Question.titled "t").withChannel "notes" "q"

/-- A run for the index over a bank of one question. -/
def sharingRun : Prepared where
  exam := sharingExam
  settings := { bank := ⟨"bank"⟩, seed := 0, tries := 1, tolerance := 0.5 }
  questions := [sharingQuestion]
  tree := .leaf { label := "all", min := 1, max := 1 } [sharingQuestion]

/-- A disk with the files of edition 0. -/
def sharingDisk : Disk where
  entries := [(["exam_notes.md"], .file (some "first")),
    (["exam_notes_1.md"], .file (some "second"))]

/-- Two editions of an index that is accepted share a file, and making edition 1 puts the text of
its first channel where the second channel of edition 0 was. -/
theorem editions_share :
    ExamIndex.ofEntries sharingExam.path sharingEntries = .ok sharingExam ∧
    (¬ ∀ k k', k ≠ k' → ∀ path ∈ Outputs.paths sharingExam.path sharingExam.files k,
      path ∉ Outputs.paths sharingExam.path sharingExam.files k') ∧
    (⟨"exam_notes_1.md"⟩ : Path) ∈ Outputs.paths sharingExam.path sharingExam.files 0 ∧
    sharingDisk.read ⟨"exam_notes_1.md"⟩ = .ok "second" ∧
    (sharingRun.generate { edition := some 1 } "" sharingDisk).disk.read ⟨"exam_notes_1.md"⟩ =
      .ok "q\n" := by
  have hzero : (⟨"exam_notes_1.md"⟩ : Path) ∈
      Outputs.paths sharingExam.path sharingExam.files 0 := by decide +kernel
  have hone : (⟨"exam_notes_1.md"⟩ : Path) ∈
      Outputs.paths sharingExam.path sharingExam.files 1 := by decide +kernel
  refine ⟨rfl, ?_, hzero, by decide +kernel, by decide +kernel⟩
  intro hapart
  exact hapart 0 1 (by decide) _ hzero hone

/-- Edition 1 is made over edition 0: the second file of edition 0 is lost to the first one of
edition 1, and the first file of edition 0 stays. -/
theorem generate_other_edition_sharing :
    ExamIndex.ofEntries sharingRun.exam.path sharingEntries = .ok sharingRun.exam ∧
    SharesFile 1 notes 0 numberedNotes ∧
    Outputs.path sharingRun.exam.path 1 notes.file =
      Outputs.path sharingRun.exam.path 0 numberedNotes.file ∧
    (sharingRun.generate { edition := some 1 } "" sharingDisk).disk.find ⟨"exam_notes.md"⟩ =
      .ok (.file (some "first")) := by
  have hexam : ExamIndex.ofEntries sharingRun.exam.path sharingEntries = .ok sharingRun.exam := rfl
  have hshares : SharesFile 1 notes 0 numberedNotes := by decide +kernel
  obtain ⟨hpaths, hkept⟩ := generate_other_edition hexam (show (1 : Nat) ≠ 0 by decide)
  have hpath := (hpaths notes (by decide) numberedNotes (by decide)).1
  have hfirst := hkept { edition := some 1 } "" sharingDisk rfl notes (by decide)
    (by decide +kernel)
  exact ⟨hexam, hshares, hpath.mpr hshares, hfirst⟩

end Prepared

end ExamPaper

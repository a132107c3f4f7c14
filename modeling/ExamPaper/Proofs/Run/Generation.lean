import ExamPaper.Proofs.Exam.Outputs
import ExamPaper.Proofs.Exam.Rendering
import ExamPaper.Run.Generation

/-!
# What a run does to the disk

A run writes nothing before it has searched and rendered. What it then writes is the files of its
edition, one after another, as long as the system does not refuse:

> A run that ends without an edition, or fails before it writes, leaves the disk as it was. A run
> that writes an edition stores the text of every channel at its path and changes nothing else. If
> a file cannot be written, the files before it are stored, and nothing else is changed. A run
> without an edition of its own writes no file that was there (`generate_effect`).
-/

namespace ExamPaper

open Outputs (Stored nameFor inside)

namespace Prepared

section

variable [Generator]

/-- The search of a run. -/
def searched (p : Prepared) (options : GenerateOptions) (disk : Disk) :
    Except SearchError SearchOutcome × Generator.State :=
  Search.search p.tree p.searchParams
    (Generator.seeded (UInt64.ofNat (p.seedOf (p.edition disk options))))

/-- The run has a selection, with what the search has seen if it is only the closest one, and the
texts of it for the channels. -/
def Produces (p : Prepared) (options : GenerateOptions) (today : String) (disk : Disk)
    (attempt : Attempt) (bestEffort : Option SearchStats) (texts : List String) : Prop :=
  ∃ outcome rng, p.searched options disk = (.ok outcome, rng) ∧
    accepted options outcome = .ok (attempt, bestEffort) ∧
    (Rendering.render p.exam today attempt.questions rng).1 = .ok texts

/-- What a run produces has one text for each channel. -/
theorem Produces.length_eq {p : Prepared} {options : GenerateOptions} {today : String} {disk : Disk}
    {attempt : Attempt} {bestEffort : Option SearchStats} {texts : List String}
    (h : p.Produces options today disk attempt bestEffort texts) :
    texts.length = p.exam.channels.length := by
  obtain ⟨_, _, _, _, hrender⟩ := h
  exact Rendering.length_of_render hrender

/-- The edition that a run writes for a selection. -/
def editionOf (p : Prepared) (options : GenerateOptions) (disk : Disk) (attempt : Attempt)
    (bestEffort : Option SearchStats) : Edition where
  number := p.edition disk options
  seed := p.seedOf (p.edition disk options)
  target := p.exam.difficulty
  attempt := attempt
  paths := Outputs.paths p.exam.path p.exam.files (p.edition disk options)
  bestEffort := bestEffort

/-- A run ends before it writes, or writes what it produces. -/
theorem generate_cases (p : Prepared) (options : GenerateOptions) (today : String) (disk : Disk) :
    (∃ e, (p.searched options disk).1 = .error e ∧
      p.generate options today disk = ⟨.error (.ofSearch e), disk⟩) ∨
    (∃ outcome, (p.searched options disk).1 = .ok outcome) ∧
      ((∃ stats, p.generate options today disk = ⟨.ok (.exhausted stats), disk⟩) ∨
        (∃ e, p.generate options today disk = ⟨.error (.template e), disk⟩) ∨
        ∃ attempt bestEffort texts, p.Produces options today disk attempt bestEffort texts ∧
          p.generate options today disk =
            writeEdition (p.editionOf options disk attempt bestEffort) texts disk) := by
  unfold generate Produces searched
  dsimp only
  rcases hsearch : Search.search p.tree p.searchParams
    (Generator.seeded (UInt64.ofNat (p.seedOf (p.edition disk options)))) with ⟨e | outcome, rng⟩
  · exact Or.inl ⟨e, rfl, rfl⟩
  refine Or.inr ⟨⟨outcome, rfl⟩, ?_⟩
  dsimp only
  rcases haccepted : accepted options outcome with stats | ⟨attempt, bestEffort⟩
  · exact Or.inl ⟨stats, rfl⟩
  dsimp only
  rcases hrender : (Rendering.render p.exam today attempt.questions rng).1 with e | texts
  · exact Or.inr (Or.inl ⟨e, rfl⟩)
  · exact Or.inr (Or.inr
      ⟨attempt, bestEffort, texts, ⟨outcome, rng, rfl, haccepted, hrender⟩, rfl⟩)

omit [Generator] in
/-- A run that stored as many of the texts of an edition as it could, `k` of them. -/
theorem writeEdition_stored {exam : ExamIndex} (hexam : exam.WellNamed) {edition : Edition}
    (hpaths : edition.paths = Outputs.paths exam.path exam.files edition.number)
    {texts : List String} (htexts : texts.length = exam.channels.length) (disk : Disk) :
    let g := writeEdition edition texts disk
    ∃ k, Stored disk g.disk (edition.paths.take k) (texts.take k) ∧
      (∀ path ∈ edition.paths.drop k, g.disk.find path = disk.find path) ∧
      (g.result = .ok (.written edition) ∧ k = edition.paths.length ∨
        ∃ e, g.result = .error (.output e) ∧ edition.paths[k]? = some e.path) := by
  have hnames := Outputs.isEntryName_of_mem exam.path exam.files edition.number
  have hlength : (exam.files.map (nameFor exam.path edition.number)).length = texts.length := by
    unfold ExamIndex.files
    rw [List.length_map, List.length_map, htexts]
  obtain ⟨k, hstored, hlater, hresult⟩ := Outputs.write_stored exam.path.directory disk
    (Outputs.nodup_names hexam exam.path edition.number) hnames hlength
  have hall : edition.paths =
      inside exam.path.directory (exam.files.map (nameFor exam.path edition.number)) := by
    rw [hpaths, Outputs.paths_eq]
  rw [Outputs.inside_take, ← hall] at hstored
  rw [Outputs.inside_drop, ← hall] at hlater
  rw [← hall] at hresult
  unfold writeEdition
  dsimp only
  rcases hwrite : Outputs.write disk edition.paths texts with ⟨e | u, after⟩
  · rw [hwrite] at hstored hlater hresult
    exact ⟨k, hstored, hlater, Or.inr ⟨e, rfl, hresult⟩⟩
  · rw [hwrite] at hstored hlater hresult
    refine ⟨k, hstored, hlater, Or.inl ⟨rfl, ?_⟩⟩
    rw [hall]
    exact hresult.trans (List.length_map _).symm

/-- What a run did to a disk, where `paths` are those of its edition. -/
structure Effect (p : Prepared) (options : GenerateOptions) (today : String) (disk : Disk)
    (paths : List Path) (g : Generation) : Prop where
  /-- An edition was written: every path holds the text of its channel. -/
  written : ∀ e, g.result = .ok (.written e) →
    e.paths = paths ∧ ∃ texts, p.Produces options today disk e.attempt e.bestEffort texts ∧
      Stored disk g.disk paths texts
  exhausted : ∀ stats, g.result = .ok (.exhausted stats) → g.disk = disk
  /-- The run failed before it wrote. -/
  failed : ∀ e, g.result = .error e → (∀ o, e ≠ .output o) → g.disk = disk
  /-- A file could not be written: the paths before it hold the texts of their channels, and it and
  the paths after it lead to what they led to. -/
  broken : ∀ e, g.result = .error (.output e) →
    ∃ attempt bestEffort texts k, p.Produces options today disk attempt bestEffort texts ∧
      texts.length = paths.length ∧ paths[k]? = some e.path ∧
      Stored disk g.disk (paths.take k) (texts.take k) ∧
      ∀ path ∈ paths.drop k, g.disk.find path = disk.find path

/-- A run that neither writes an edition nor fails in writing leaves the disk as it is. -/
theorem Effect.of_unchanged {p : Prepared} {options : GenerateOptions} {today : String}
    {disk : Disk} {paths : List Path} {g : Generation} (hdisk : g.disk = disk)
    (hwritten : ∀ e, g.result ≠ .ok (.written e)) (houtput : ∀ e, g.result ≠ .error (.output e)) :
    p.Effect options today disk paths g :=
  ⟨fun e h => absurd h (hwritten e), fun _ _ => hdisk, fun _ _ _ => hdisk,
    fun e h => absurd h (houtput e)⟩

/-- A run that comes to its texts has the effect of writing them. -/
theorem effect_of_produces {p : Prepared} (hexam : p.exam.WellNamed) {options : GenerateOptions}
    {today : String} {disk : Disk} {attempt : Attempt} {bestEffort : Option SearchStats}
    {texts : List String} (h : p.Produces options today disk attempt bestEffort texts) :
    p.Effect options today disk
      (Outputs.paths p.exam.path p.exam.files (p.edition disk options))
      (writeEdition (p.editionOf options disk attempt bestEffort) texts disk) := by
  have hpaths : (p.editionOf options disk attempt bestEffort).paths =
      Outputs.paths p.exam.path p.exam.files (p.edition disk options) := rfl
  have hlength : texts.length = (p.editionOf options disk attempt bestEffort).paths.length := by
    rw [hpaths, h.length_eq]
    simp [Outputs.paths, ExamIndex.files]
  obtain ⟨k, hstored, hlater, hresult⟩ := writeEdition_stored hexam hpaths h.length_eq disk
  rw [← hpaths]
  rcases hresult with ⟨hok, rfl⟩ | ⟨e, herror, hpath⟩
  · rw [List.take_length, ← hlength, List.take_length] at hstored
    refine ⟨?_, ?_, ?_, ?_⟩
    · intro e he
      obtain rfl := GenerateOutcome.written.inj (Except.ok.inj (hok.symm.trans he))
      exact ⟨rfl, texts, h, hstored⟩
    · intro stats hstats
      exact absurd (hok.symm.trans hstats) (by simp)
    · intro e he
      exact absurd (hok.symm.trans he) (by simp)
    · intro e he
      exact absurd (hok.symm.trans he) (by simp)
  · refine ⟨?_, ?_, ?_, ?_⟩
    · intro e he
      exact absurd (herror.symm.trans he) (by simp)
    · intro stats hstats
      exact absurd (herror.symm.trans hstats) (by simp)
    · intro e' he hother
      exact absurd (Except.error.inj (he.symm.trans herror)) (hother e)
    · intro e' he
      obtain rfl := RunError.output.inj (Except.error.inj (herror.symm.trans he))
      exact ⟨attempt, bestEffort, texts, k, h, hlength, hpath, hstored, hlater⟩

/-- **What a run does to the disk.** For an index that was read, a run that writes an edition stores
the texts of the channels at its paths and changes nothing else. A run that cannot write a file has
stored the texts before it and changed nothing else; every other run leaves the disk as it was. The
paths of an edition that was not asked for lead to nothing before the run. -/
theorem generate_effect {p : Prepared} {entries : Entries}
    (hexam : ExamIndex.ofEntries p.exam.path entries = .ok p.exam) (options : GenerateOptions)
    (today : String) (disk : Disk) :
    p.Effect options today disk
      (Outputs.paths p.exam.path p.exam.files (p.edition disk options))
      (p.generate options today disk) ∧
    (options.edition = none →
      ∀ path ∈ Outputs.paths p.exam.path p.exam.files (p.edition disk options),
        disk.contains path = false) := by
  have hwell := ExamIndex.wellNamed_of_ofEntries hexam
  constructor
  · rcases generate_cases p options today disk with
      ⟨e, _, hg⟩ | ⟨_, ⟨stats, hg⟩ | ⟨e, hg⟩ | ⟨attempt, bestEffort, texts, hproduces, hg⟩⟩
    · rw [hg]
      exact .of_unchanged rfl (by simp) (by cases e <;> simp [RunError.ofSearch])
    · rw [hg]
      exact .of_unchanged rfl (by simp) (by simp)
    · rw [hg]
      exact .of_unchanged rfl (by simp) (by simp)
    · rw [hg]
      exact effect_of_produces hwell hproduces
  · intro hnone path hpath
    have hedition : p.edition disk options =
        Outputs.firstFree disk p.exam.path p.exam.files := by
      unfold edition
      rw [hnone]
      rfl
    have hfiles : ∀ file ∈ p.exam.files, ∃ id, ExamIndex.Names file id := by
      intro file hfile
      obtain ⟨c, hc, rfl⟩ := List.mem_map.mp hfile
      exact ⟨c.id, hwell.names c hc⟩
    have hfree := Outputs.isFree_firstFree disk p.exam.path hfiles
    rw [hedition] at hpath
    unfold Outputs.isFree at hfree
    rw [Bool.not_eq_true', List.any_eq_false] at hfree
    exact Bool.eq_false_iff.mpr (hfree path hpath)

end

/-- The fields of an index with two files. -/
def twoFileEntries : Entries :=
  [(.text "difficulty", .number (.int 1)), (.text "files", .list [.text "a.md", .text "b.md"]),
    (.text "end_b", .text "((FILE))"), (.text "parts", .text "all")]

/-- The index that the fields are read as. -/
def twoFileExam : ExamIndex where
  path := ⟨"exams/final.yaml"⟩
  difficulty := 1.0
  tolerance := none
  tries := none
  seed := none
  bank := none
  channels := [⟨"a.md", "a", "", ""⟩, ⟨"b.md", "b", "", "((FILE))"⟩]
  macros := ∅
  metadata := ∅
  parts := .tag "all"

/-- A question with a text for each of two channels. -/
def twoTextQuestion : Question :=
  ((Question.titled "t").withChannel "a" "((COUNTER))").withChannel "b" "q"

/-- A run for the index over a bank of one question. -/
def twoFileRun : Prepared where
  exam := twoFileExam
  settings := { bank := ⟨"bank"⟩, seed := 0, tries := 1, tolerance := 0.5 }
  questions := [twoTextQuestion]
  tree := .leaf { label := "all", min := 1, max := 1 } [twoTextQuestion]

/-- A disk with one of the files of edition 0. -/
def twoFileDisk : Disk where
  entries := [(["exams"], .directory), (["exams", "final_b.md"], .file (some "old"))]

/-- The edition that the run writes there. -/
def twoFileEdition : Edition where
  number := 1
  seed := 1
  target := 1.0
  attempt := { questions := [twoTextQuestion], difficulty := 1.0 }
  paths := [⟨"exams/final_a_1.md"⟩, ⟨"exams/final_b_1.md"⟩]
  bestEffort := none

/-- The same disk, where the system does not let the second file of edition 1 be written. -/
def protectedDisk : Disk :=
  { twoFileDisk with refusals := [(["exams", "final_b_1.md"], "Permission denied (os error 13)")] }

/-- What the run fails with there. -/
def protectedError : OutputError :=
  ⟨⟨"exams/final_b_1.md"⟩, .refused "Permission denied (os error 13)"⟩

/-- The run finds its question and writes edition 1 beside what is left of edition 0. Where it may
not write the second file, it has stored the first one. -/
theorem generate_effect_twoFiles :
    ExamIndex.ofEntries twoFileRun.exam.path twoFileEntries = .ok twoFileRun.exam ∧
    (twoFileRun.generate {} "" twoFileDisk).result = .ok (.written twoFileEdition) ∧
    (∃ texts, twoFileRun.Produces {} "" twoFileDisk twoFileEdition.attempt none texts ∧
      Stored twoFileDisk (twoFileRun.generate {} "" twoFileDisk).disk twoFileEdition.paths texts) ∧
    (∀ path ∈ twoFileEdition.paths, twoFileDisk.contains path = false) ∧
    (twoFileRun.generate {} "" protectedDisk).result = .error (.output protectedError) ∧
    ∃ text, Stored protectedDisk (twoFileRun.generate {} "" protectedDisk).disk
      [⟨"exams/final_a_1.md"⟩] [text] := by
  have hexam : ExamIndex.ofEntries twoFileRun.exam.path twoFileEntries = .ok twoFileRun.exam := rfl
  have hresult : (twoFileRun.generate {} "" twoFileDisk).result =
      .ok (.written twoFileEdition) := by
    decide +kernel
  obtain ⟨heffect, hnew⟩ := generate_effect hexam {} "" twoFileDisk
  obtain ⟨hpaths, texts, hproduces, hstored⟩ := heffect.written twoFileEdition hresult
  rw [← hpaths] at hstored hnew
  have hrefused : (twoFileRun.generate {} "" protectedDisk).result =
      .error (.output protectedError) := by
    decide +kernel
  obtain ⟨heffect', -⟩ := generate_effect hexam {} "" protectedDisk
  obtain ⟨_, _, texts', k, -, hlength, hpath, hstored', -⟩ :=
    heffect'.broken protectedError hrefused
  have hall : Outputs.paths twoFileRun.exam.path twoFileRun.exam.files
      (twoFileRun.edition protectedDisk {}) = twoFileEdition.paths := by
    decide +kernel
  rw [hall] at hlength hpath hstored'
  -- the path that was refused is the second of the two
  obtain rfl : k = 1 := by
    match k, hpath with
    | 0, hpath => exact absurd hpath (by decide)
    | 1, _ => rfl
    | k + 2, hpath => exact absurd hpath (by simp [twoFileEdition])
  obtain ⟨text, rest, rfl⟩ : ∃ text rest, texts' = text :: rest :=
    List.exists_cons_of_length_eq_add_one hlength
  exact ⟨hexam, hresult, ⟨texts, hproduces, hstored⟩, hnew rfl, hrefused, text, hstored'⟩

end Prepared

end ExamPaper

import ExamPaper.Exam.Outputs
import ExamPaper.Proofs.Exam.Index
import ExamPaper.Proofs.File.Disk
import Mathlib.Data.List.Nodup
import Mathlib.Data.List.Perm.Subperm
import Mathlib.Order.Bounds.Defs

/-!
# Naming and writing the files of an edition

The names of an edition differ, since the stems of its files do (`nodup_names`), and no two editions
with a number have a name in common (`edition_eq_of_name_eq`). Both hold because a name tells what
precedes its extension, and that is the stem with the number (`name_eq_iff_stem`).

> The first free edition is the least that is free (`isLeast_firstFree`): were it not free, there
> would be more editions with a number on the disk than entries (`exists_free`). Texts are written
> one after another; what is on the disk afterwards is as before, but for the paths written, which
> hold their texts (`write_stored`).
-/

namespace ExamPaper

open ExamIndex (Names)

namespace Path

/-- The name of a path is cut into its stem and its extension; where there is no name, both are
empty. -/
theorem exists_cut (p : Path) :
    ∃ extension, IsCut (p.stem?.getD "").toList extension ∧
      p.extension? = extension.map String.ofList ∧
      '/' ∉ (p.stem?.getD "").toList ∧ '/' ∉ dotted extension := by
  unfold stem? extension?
  cases hname : p.nameChars? with
  | none => exact ⟨none, List.not_mem_nil, rfl, List.not_mem_nil, List.not_mem_nil⟩
  | some name =>
    have hslash := notMem_nameChars? hname
    rw [← splitName_append name, List.mem_append, not_or] at hslash
    have hstem : ((some name).map fun n => String.ofList (splitName n).1).getD "" =
        String.ofList (splitName name).1 := rfl
    rw [hstem, String.toList_ofList]
    exact ⟨(splitName name).2, isCut_splitName name, rfl, hslash.1, hslash.2⟩

end Path

namespace Outputs

/-! ## Names -/

/-- What the number of an edition adds to a stem. -/
def numberText (edition : Nat) : List Char :=
  if edition = 0 then [] else '_' :: Nat.toDigits 10 edition

/-- A number is written in digits only. -/
theorem notMem_toDigits {c : Char} (hc : c.isDigit = false) (n : Nat) : c ∉ Nat.toDigits 10 n := by
  intro h
  rw [Nat.isDigit_of_mem_toDigits (by decide) (by decide) h] at hc
  exact absurd hc (by decide)

theorem notMem_numberText {c : Char} (hc : c.isDigit = false) (hne : c ≠ '_') (edition : Nat) :
    c ∉ numberText edition := by
  unfold numberText
  split
  · exact List.not_mem_nil
  · rw [List.mem_cons, not_or]
    exact ⟨hne, notMem_toDigits hc edition⟩

/-- The name of an output file: the index, the channel, the number of the edition and the extension.
-/
theorem toList_name (base : String) {file : Path} {extension : Option (List Char)}
    (hextension : file.extension? = extension.map String.ofList) (edition : Nat) :
    (name base edition file).toList = base.toList ++
      '_' :: ((file.stem?.getD "").toList ++ numberText edition ++ Path.dotted extension) := by
  have hnumber : (if edition = 0 then "" else "_" ++ Nat.repr edition).toList =
      numberText edition := by
    unfold numberText
    split
    · rfl
    · rw [String.toList_append, Nat.toList_repr]
      rfl
  unfold name
  rw [hextension]
  simp only [String.toList_append, hnumber]
  cases extension with
  | none => simp [Path.dotted]
  | some extension => simp [Path.dotted]

/-- The names of two files agree where their stems with the numbers after them do, and their
extensions. -/
theorem name_eq_iff_stem {base : String} {file file' : Path} {k k' : Nat} :
    name base k file = name base k' file' ↔
      (file.stem?.getD "").toList ++ numberText k = (file'.stem?.getD "").toList ++ numberText k' ∧
        file.extension? = file'.extension? := by
  obtain ⟨extension, hcut, hextension, _⟩ := file.exists_cut
  obtain ⟨extension', hcut', hextension', _⟩ := file'.exists_cut
  have hdot := notMem_numberText (c := '.') (by decide) (by decide)
  rw [← String.toList_inj, toList_name _ hextension, toList_name _ hextension',
    List.append_cancel_left_eq, hextension, hextension']
  constructor
  · intro heq
    obtain ⟨hstem, rfl⟩ := (hcut.append (hdot k)).unique (hcut'.append (hdot k'))
      (List.cons.inj heq).2
    exact ⟨hstem, rfl⟩
  · rintro ⟨hstem, hsame⟩
    obtain rfl : extension = extension' :=
      Option.map_injective (fun _ _ => String.ofList_injective) hsame
    rw [hstem]

/-- The names of the files of two channels agree where the channels with the numbers after them do,
and the extensions. -/
theorem name_eq_iff {base file file' id id' : String} {k k' : Nat} (h : Names file id)
    (h' : Names file' id') :
    name base k ⟨file⟩ = name base k' ⟨file'⟩ ↔
      id.toList ++ numberText k = id'.toList ++ numberText k' ∧
        Path.extension? ⟨file⟩ = Path.extension? ⟨file'⟩ := by
  rw [name_eq_iff_stem, h.1, h'.1]
  rfl

/-- The names of one edition tell the channels apart. -/
theorem id_eq_of_name_eq {base file file' id id' : String} {k : Nat} (h : Names file id)
    (h' : Names file' id') (heq : name base k ⟨file⟩ = name base k ⟨file'⟩) : id = id' :=
  String.toList_inj.mp (List.append_cancel_right ((name_eq_iff h h').mp heq).1)

/-- The number at the end of a name can be told from the name before it. -/
theorem number_eq_of_append_eq {stem stem' : List Char} {k k' : Nat}
    (h : stem ++ numberText (k + 1) = stem' ++ numberText (k' + 1)) : k = k' := by
  have hdigits := Text.eq_of_append_cons (notMem_toDigits (c := '_') (by decide) (k + 1))
    (notMem_toDigits (by decide) (k' + 1)) h
  have hnumber := congrArg (fun digits => Nat.ofDigitChars 10 digits 0) hdigits.2
  rw [Nat.ofDigitChars_ten_toDigits, Nat.ofDigitChars_ten_toDigits] at hnumber
  exact Nat.succ.inj hnumber

/-- The names of editions with a number tell the editions apart. -/
theorem edition_eq_of_name_eq {base : String} {file file' : Path} {k k' : Nat}
    (h : name base (k + 1) file = name base (k' + 1) file') : k = k' :=
  number_eq_of_append_eq (name_eq_iff_stem.mp h).1

/-- The name of a file of an edition, for the index at a path. -/
def nameFor (index : Path) (edition : Nat) (file : String) : String :=
  name (index.stem?.getD "") edition ⟨file⟩

/-- Output files have names that a directory can have. -/
theorem isEntryName_nameOf (index : Path) (edition : Nat) (file : String) :
    IsEntryName (nameFor index edition file) := by
  obtain ⟨extension, _, hextension, hstem, hdotted⟩ := Path.exists_cut ⟨file⟩
  obtain ⟨_, _, _, hbase, _⟩ := index.exists_cut
  have hlist := toList_name (index.stem?.getD "") hextension edition
  have hunderscore : '_' ∈ (nameFor index edition file).toList := by
    unfold nameFor
    rw [hlist]
    exact List.mem_append_right _ List.mem_cons_self
  refine ⟨?_, ?_, ?_, ?_⟩
  · unfold nameFor
    rw [hlist]
    have hnumber : '/' ∉ numberText edition := notMem_numberText (by decide) (by decide) edition
    simp only [List.mem_append, List.mem_cons, not_or]
    exact ⟨hbase, by decide, ⟨hstem, hnumber⟩, hdotted⟩
  all_goals
    intro heq
    rw [heq] at hunderscore
    exact absurd hunderscore (by decide)

theorem isEntryName_of_mem (index : Path) (files : List String) (edition : Nat) :
    ∀ name ∈ files.map (nameFor index edition), IsEntryName name := by
  intro name hname
  obtain ⟨file, _, rfl⟩ := List.mem_map.mp hname
  exact isEntryName_nameOf index edition file

/-- The files of channels have the names of entries. -/
theorem isEntryName_nameFor {file id : String} (index : Path) (edition : Nat)
    (_ : Names file id) : IsEntryName (nameFor index edition file) :=
  isEntryName_nameOf index edition file

/-- The paths of names in a directory. -/
def inside (directory : Path) (names : List String) : List Path :=
  names.map fun name => directory.join ⟨name⟩

theorem inside_cons (directory : Path) (name : String) (names : List String) :
    inside directory (name :: names) = directory.join ⟨name⟩ :: inside directory names := rfl

/-- The output files of an edition lie in the directory of the index, under the names of the
edition. -/
theorem paths_eq (index : Path) (files : List String) (edition : Nat) :
    paths index files edition = inside index.directory (files.map (nameFor index edition)) := by
  unfold inside
  rw [List.map_map]
  rfl

/-- The names of an edition differ. -/
theorem nodup_names {e : ExamIndex} (h : e.WellNamed) (index : Path) (edition : Nat) :
    (e.files.map (nameFor index edition)).Nodup := by
  have hids : e.channels.Pairwise fun c c' => c.id ≠ c'.id := List.pairwise_map.mp h.nodup
  unfold ExamIndex.files
  rw [List.map_map]
  refine List.pairwise_map.mpr (hids.imp_of_mem ?_)
  intro c c' hc hc' hne heq
  exact hne (id_eq_of_name_eq (h.names c hc) (h.names c' hc') heq)

/-! ## The first free edition -/

/-- No file of an edition is there, for a notion of what is there. -/
def Free (there : Path → Prop) (index : Path) (files : List String) (edition : Nat) : Prop :=
  ∀ path ∈ paths index files edition, ¬ there path

/-- An edition is free on a disk if the disk has none of its paths. -/
theorem isFree_iff {disk : Disk} {index : Path} {files : List String} {k : Nat} :
    isFree disk index files k = true ↔
      Free (fun path => disk.contains path = true) index files k := by
  unfold isFree
  rw [Bool.not_eq_true', List.any_eq_false]
  rfl

/-- **Few editions are taken.** Let everything that is in the way of a file show the name of that
file. No two editions with a number have a name in common, so no more of them are taken than there
are things in the way. -/
theorem exists_free {α : Type} (there : Path → Prop) {index : Path} {files : List String}
    (obstacles : List α) (last : α → Option String)
    (hshown : ∀ k, ∀ file ∈ files, there (path index k file) →
      ∃ a ∈ obstacles, last a = some (nameFor index k file)) :
    ∃ i ≤ obstacles.length, Free there index files (i + 1) := by
  by_contra hnone
  have htaken : ∀ i : Fin (obstacles.length + 1), ∃ a ∈ obstacles,
      ∃ file, last a = some (nameFor index (i + 1) file) := by
    intro i
    have hsome : ¬ Free there index files (i + 1) :=
      fun hfree => hnone ⟨i, Nat.le_of_lt_succ i.isLt, hfree⟩
    unfold Free at hsome
    push Not at hsome
    obtain ⟨path, hpath, hthere⟩ := hsome
    obtain ⟨file, hfile, rfl⟩ := List.mem_map.mp hpath
    obtain ⟨a, ha, hlast⟩ := hshown (i + 1) file hfile hthere
    exact ⟨a, ha, file, hlast⟩
  choose obstacle hmem hlast using htaken
  -- what is in the way of the editions differs in the names that it shows
  have hinjective : obstacle.Injective := by
    intro i j heq
    obtain ⟨file, hi⟩ := hlast i
    obtain ⟨file', hj⟩ := hlast j
    rw [heq, hj] at hi
    exact Fin.ext (edition_eq_of_name_eq (Option.some.inj hi).symm)
  have hsubset : (List.finRange (obstacles.length + 1)).map obstacle ⊆ obstacles := by
    intro a ha
    obtain ⟨i, _, rfl⟩ := List.mem_map.mp ha
    exact hmem i
  have hnodup := (List.nodup_finRange (obstacles.length + 1)).map hinjective
  have hcard := (List.subperm_of_subset hnodup hsubset).length_le
  rw [List.length_map, List.length_finRange] at hcard
  exact absurd hcard (Nat.not_succ_le_self _)

/-- No more editions with a number are taken than there are entries on the disk. -/
theorem exists_isFree (disk : Disk) (index : Path) (files : List String) :
    ∃ i ≤ disk.entries.length, isFree disk index files (i + 1) = true := by
  have hshown : ∀ k, ∀ file ∈ files, disk.contains (path index k file) = true →
      ∃ place ∈ disk.entries.map (·.1), place.getLast? = some (nameFor index k file) := by
    intro k file _ hthere
    obtain ⟨l, hl⟩ := Disk.exists_entry_of_contains (isEntryName_nameOf index k file) hthere
    exact ⟨_, hl, List.getLast?_concat⟩
  obtain ⟨i, hi, hfree⟩ := exists_free (fun path => disk.contains path = true)
    (disk.entries.map (·.1)) List.getLast? hshown
  rw [List.length_map] at hi
  exact ⟨i, hi, isFree_iff.mpr hfree⟩

/-- What a search among some editions ends at is free or the last one, and none before it is free.
-/
theorem firstFreeFrom_spec (disk : Disk) (index : Path) (files : List String) : ∀ n k,
    let found := firstFreeFrom disk index files n k
    k ≤ found ∧ (∀ i, k ≤ i → i < found → isFree disk index files i = false) ∧
      (isFree disk index files found = true ∨ found = k + n) := by
  intro n
  induction n with
  | zero =>
    intro k
    exact ⟨Nat.le_refl k, fun i hi hlt => absurd hi (Nat.not_le_of_lt hlt), Or.inr rfl⟩
  | succ n ih =>
    intro k
    dsimp only
    rw [firstFreeFrom]
    by_cases hfree : isFree disk index files k = true
    · rw [if_pos hfree]
      exact ⟨Nat.le_refl k, fun i hi hlt => absurd hi (Nat.not_le_of_lt hlt), Or.inl hfree⟩
    · rw [if_neg hfree]
      obtain ⟨hle, htaken, hfound⟩ := ih (k + 1)
      refine ⟨by omega, ?_, hfound.imp_right fun hlast => by omega⟩
      intro i hi hlt
      rcases Nat.eq_or_lt_of_le hi with rfl | hlater
      · exact Bool.eq_false_iff.mpr hfree
      · exact htaken i hlater hlt

/-- The first free edition is free, and those before it are taken. -/
theorem isLeast_firstFree (disk : Disk) (index : Path) (files : List String) :
    IsLeast {k | isFree disk index files k = true} (firstFree disk index files) := by
  obtain ⟨-, htaken, hfound⟩ :=
    firstFreeFrom_spec disk index files (disk.entries.length + 1) 0
  have hleast : ∀ k, isFree disk index files k = true → firstFree disk index files ≤ k := by
    intro k hfree
    by_contra hlt
    have hfalse := htaken k (Nat.zero_le k) (Nat.lt_of_not_le hlt)
    rw [hfree] at hfalse
    exact absurd hfalse (by decide)
  refine ⟨?_, hleast⟩
  rcases hfound with hfree | hlast
  · exact hfree
  · -- the last edition that can be the free one is taken without a look at it
    obtain ⟨i, hi, hfree⟩ := exists_isFree disk index files
    have hle : firstFreeFrom disk index files (disk.entries.length + 1) 0 ≤ i + 1 :=
      hleast (i + 1) hfree
    obtain rfl : i = disk.entries.length := by omega
    have hsame : firstFree disk index files = disk.entries.length + 1 :=
      hlast.trans (Nat.zero_add _)
    show isFree disk index files (firstFree disk index files) = true
    rw [hsame]
    exact hfree

/-- No file of the channels is there in the first free edition. -/
theorem isFree_firstFree (disk : Disk) (index : Path) {files : List String}
    (_ : ∀ file ∈ files, ∃ id, Names file id) :
    isFree disk index files (firstFree disk index files) = true :=
  (isLeast_firstFree disk index files).1

/-! ## Writing texts -/

/-- What a disk is after texts were stored at paths: every path holds its text, and what no path
leads to is as before. -/
structure Stored (before after : Disk) (paths : List Path) (texts : List String) : Prop where
  read_eq : List.Forall₂ (fun path text => after.read path = .ok text) paths texts
  entryAt?_eq : ∀ l, (∀ path ∈ paths, before.locate path ≠ .ok l) →
    after.entryAt? l = before.entryAt? l
  workingDirectory_eq : after.workingDirectory = before.workingDirectory
  refusals_eq : after.refusals = before.refusals

/-- Nothing changes if nothing is written. -/
theorem Stored.nil (disk : Disk) : Stored disk disk [] [] := ⟨.nil, fun _ _ => rfl, rfl, rfl⟩

section

variable {directory : Path} {name : String} {names texts : List String} {disk after : Disk}

theorem inside_take (directory : Path) (names : List String) (k : Nat) :
    inside directory (names.take k) = (inside directory names).take k := List.map_take

theorem inside_drop (directory : Path) (names : List String) (k : Nat) :
    inside directory (names.drop k) = (inside directory names).drop k := List.map_drop

/-- What a name leads to stays while others are written. -/
theorem find_write_of_notMem (hname : IsEntryName name) :
    ∀ {names texts : List String} {disk : Disk}, (∀ n ∈ names, IsEntryName n) → name ∉ names →
      (write disk (inside directory names) texts).disk.find (directory.join ⟨name⟩) =
        disk.find (directory.join ⟨name⟩) := by
  intro names
  induction names with
  | nil => intro texts disk _ _; rfl
  | cons first names ih =>
    intro texts disk hnames hnot
    obtain ⟨hfirst, hrest⟩ := List.forall_mem_cons.mp hnames
    rw [List.mem_cons, not_or] at hnot
    cases texts with
    | nil => rfl
    | cons text texts =>
      rw [inside_cons, write]
      cases hwrite : disk.write (directory.join ⟨first⟩) text with
      | error e => rfl
      | ok disk' =>
        exact (ih hrest hnot.2).trans (Disk.find_write_of_ne hfirst hwrite hname hnot.1)

/-- One more text is stored before others. -/
theorem Stored.cons {disk' : Disk} {text : String} (hname : IsEntryName name)
    (hnames : ∀ n ∈ names, IsEntryName n)
    (hwrite : disk.write (directory.join ⟨name⟩) text = .ok disk')
    (hkept : after.find (directory.join ⟨name⟩) = disk'.find (directory.join ⟨name⟩))
    (h : Stored disk' after (inside directory names) texts) :
    Stored disk after (inside directory (name :: names)) (text :: texts) := by
  obtain ⟨l, _, _, _, _, hinserted⟩ := Disk.write_join hname hwrite
  refine ⟨.cons ?_ h.read_eq, ?_, ?_, ?_⟩
  · unfold Disk.read
    rw [hkept, Disk.find_write_self hname hwrite]
  · intro l hl
    obtain ⟨hfirst, hrest⟩ := List.forall_mem_cons.mp hl
    rw [← Disk.entryAt?_write hname hwrite hfirst]
    refine h.entryAt?_eq l ?_
    -- the first text moves none of the other paths
    intro path hpath
    obtain ⟨n, hn, rfl⟩ := List.mem_map.mp hpath
    rw [Disk.locate_write hname hwrite (hnames n hn)]
    exact hrest _ (List.mem_map_of_mem hn)
  · rw [h.workingDirectory_eq, hinserted]
    rfl
  · rw [h.refusals_eq, hinserted]
    rfl

/-- Texts are stored at the paths up to the first that cannot be written, and the paths from there
on lead to what they led to. -/
theorem write_stored (directory : Path) : ∀ {names texts : List String} (disk : Disk),
    names.Nodup → (∀ n ∈ names, IsEntryName n) → names.length = texts.length →
      let w := write disk (inside directory names) texts
      ∃ k, Stored disk w.disk (inside directory (names.take k)) (texts.take k) ∧
        (∀ path ∈ inside directory (names.drop k), w.disk.find path = disk.find path) ∧
        match w.result with
        | .ok () => k = names.length
        | .error e => (inside directory names)[k]? = some e.path := by
  intro names
  induction names with
  | nil =>
    intro texts disk _ _ hlength
    obtain rfl := List.length_eq_zero_iff.mp hlength.symm
    exact ⟨0, .nil disk, by simp [inside], rfl⟩
  | cons name names ih =>
    intro texts disk hnodup hnames hlength
    obtain ⟨hname, hrest⟩ := List.forall_mem_cons.mp hnames
    obtain ⟨hnot, hnodup⟩ := List.nodup_cons.mp hnodup
    obtain ⟨text, texts, rfl⟩ := List.exists_cons_of_length_eq_add_one hlength.symm
    rw [inside_cons, write]
    cases hwrite : disk.write (directory.join ⟨name⟩) text with
    | error e => exact ⟨0, .nil disk, fun _ _ => rfl, rfl⟩
    | ok disk' =>
      obtain ⟨k, hstored, hlater, hresult⟩ := ih disk' hnodup hrest (Nat.succ.inj hlength)
      refine ⟨k + 1, ?_, ?_, ?_⟩
      · refine hstored.cons hname ?_ hwrite (find_write_of_notMem hname hrest hnot)
        exact fun n hn => hrest n (List.mem_of_mem_take hn)
      · -- what the first text changed is none of the later paths
        intro path hpath
        obtain ⟨n, hn, rfl⟩ := List.mem_map.mp hpath
        have hmem : n ∈ names := List.mem_of_mem_drop hn
        have hne : n ≠ name := fun heq => hnot (heq ▸ hmem)
        rw [← Disk.find_write_of_ne hname hwrite (hrest n hmem) hne]
        exact hlater _ (List.mem_map_of_mem hn)
      · dsimp only
        cases hcase : (write disk' (inside directory names) texts).result with
        | error e =>
          rw [hcase] at hresult
          exact hresult
        | ok u =>
          rw [hcase] at hresult
          exact congrArg (· + 1) hresult

end

end Outputs

end ExamPaper

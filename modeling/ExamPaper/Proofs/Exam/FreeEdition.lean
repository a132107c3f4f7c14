import ExamPaper.Proofs.Exam.Outputs
import Mathlib.Data.Finset.Card
import Mathlib.Order.Bounds.Basic

/-!
# The search for a free edition

A run without an edition of its own looks at one edition after another, from edition 0 on, until it
comes to one of which no file is there (`Finds`). Nothing bounds this search but what is there: a
path that is there is in the way of one edition with a number at most, whatever the names of the
files are, and whether they are names at all (`exists_free`).

> So the search always ends. It ends at the least edition that is free, and gives the paths of that
> edition (`finds_iff`); and `firstFree`, which looks at no more editions than the entries of a disk
> can be in the way of, is the edition at which it ends (`finds_firstFree`).
-/

namespace ExamPaper

namespace Outputs

variable {there : Path → Prop} {index : Path} {files : List String} {k found : Nat}
  {ps : List Path}

/-- The search from an edition on ends at an edition and gives some paths. -/
inductive Finds (there : Path → Prop) (index : Path) (files : List String) :
    Nat → Nat → List Path → Prop where
  | free {k : Nat} (hfree : Free there index files k) :
      Finds there index files k k (paths index files k)
  | taken {k found : Nat} {ps : List Path} (htaken : ¬ Free there index files k)
      (hlater : Finds there index files (k + 1) found ps) : Finds there index files k found ps

/-- What a search is for: the least edition of which no file is there, and its paths. -/
structure IsFirstFree (there : Path → Prop) (index : Path) (files : List String) (found : Nat)
    (ps : List Path) : Prop where
  isLeast : IsLeast {k | Free there index files k} found
  taken : ∀ k < found, ∃ path ∈ paths index files k, there path
  paths_eq : ps = paths index files found

/-- The loop over editions stops at the least free one. -/
theorem IsFirstFree.of_isLeast (h : IsLeast {k | Free there index files k} found) :
    IsFirstFree there index files found (paths index files found) := by
  refine ⟨h, ?_, rfl⟩
  intro k hk
  by_contra hnone
  push Not at hnone
  exact absurd (h.2 hnone) (Nat.not_le_of_lt hk)

/-- A search ends at an edition that is free, and passes only by editions that are not. -/
theorem Finds.spec (h : Finds there index files k found ps) :
    ps = paths index files found ∧ Free there index files found ∧
      ∀ i, k ≤ i → Free there index files i → found ≤ i := by
  induction h with
  | free hfree => exact ⟨rfl, hfree, fun i hi _ => hi⟩
  | @taken k found ps htaken _ ih =>
    obtain ⟨hpaths, hfound, hleast⟩ := ih
    refine ⟨hpaths, hfound, ?_⟩
    intro i hi hfree
    have hne : k ≠ i := by
      rintro rfl
      exact htaken hfree
    exact hleast i (by omega) hfree

/-- A search ends if there is a free edition ahead. -/
theorem exists_finds : ∀ (n : Nat) {k : Nat}, Free there index files (k + n) →
    ∃ found ps, Finds there index files k found ps := by
  intro n
  induction n with
  | zero => intro k hfree; exact ⟨k, _, .free hfree⟩
  | succ n ih =>
    intro k hfree
    by_cases hhere : Free there index files k
    · exact ⟨k, _, .free hhere⟩
    · rw [Nat.add_succ, ← Nat.succ_add] at hfree
      obtain ⟨found, ps, hlater⟩ := ih hfree
      exact ⟨found, ps, .taken hhere hlater⟩

/-- A search from edition 0 on ends at the least edition that is free, with the paths of that
edition, and nowhere else. -/
theorem finds_iff :
    Finds there index files 0 found ps ↔ IsFirstFree there index files found ps := by
  constructor
  · intro h
    obtain ⟨rfl, hfree, hleast⟩ := h.spec
    exact .of_isLeast ⟨hfree, fun i hi => hleast i (Nat.zero_le i) hi⟩
  · rintro ⟨hleast, -, rfl⟩
    have hfree : Free there index files (0 + found) := (Nat.zero_add found).symm ▸ hleast.1
    obtain ⟨found', ps, h⟩ := exists_finds found hfree
    obtain ⟨rfl, hfree', hleast'⟩ := h.spec
    obtain rfl : found' = found :=
      Nat.le_antisymm (hleast' found (Nat.zero_le found) hleast.1) (hleast.2 hfree')
    exact h

/-- A path is one of those listed, written in one way or another. -/
def Listed (existing : Finset Path) (path : Path) : Prop :=
  ∃ other ∈ existing, other.components = path.components

/-- No more editions with a number are taken than there are paths listed. -/
theorem exists_free_listed (existing : Finset Path) (index : Path) (files : List String) :
    ∃ i ≤ existing.card, Free (Listed existing) index files (i + 1) := by
  have hshown : ∀ k, ∀ file ∈ files, Listed existing (path index k file) →
      ∃ other ∈ existing.toList,
        other.components.getLast?.map String.ofList = some (nameFor index k file) := by
    rintro k file - ⟨other, hother, hsame⟩
    have hlast : (path index k file).components.getLast? = some (nameFor index k file).toList :=
      (isEntryName_nameOf index k file).getLast?_components_join index.directory
    refine ⟨other, Finset.mem_toList.mpr hother, ?_⟩
    rw [hsame, hlast, Option.map_some, String.ofList_toList]
  have hfree := exists_free (Listed existing) existing.toList
    (fun other => other.components.getLast?.map String.ofList) hshown
  rwa [Finset.length_toList] at hfree

/-- **The search for a free edition ends.** Whatever the index and the files are called, and
whichever finitely many paths are there, the search ends at one edition: the least one of which no
path is there, with the paths of that edition, which is at most one more than the number of paths
there. On a disk it ends at `firstFree`. -/
theorem finds_firstFree (index : Path) (files : List String) :
    (∀ existing : Finset Path, ∃ found ps, Finds (Listed existing) index files 0 found ps ∧
      IsFirstFree (Listed existing) index files found ps ∧ found ≤ existing.card + 1 ∧
      ∀ found' ps', Finds (Listed existing) index files 0 found' ps' →
        found' = found ∧ ps' = ps) ∧
    ∀ disk : Disk,
      let there := fun path => disk.contains path = true
      let found := firstFree disk index files
      Finds there index files 0 found (paths index files found) ∧
        IsFirstFree there index files found (paths index files found) := by
  constructor
  · intro existing
    obtain ⟨i, hi, hfree⟩ := exists_free_listed existing index files
    obtain ⟨found, ps, hfinds⟩ := exists_finds (i + 1) ((Nat.zero_add (i + 1)).symm ▸ hfree)
    have hfirst := finds_iff.mp hfinds
    refine ⟨found, ps, hfinds, hfirst, ?_, ?_⟩
    · have hle := hfirst.isLeast.2 hfree
      omega
    · intro found' ps' hfinds'
      have hfirst' := finds_iff.mp hfinds'
      obtain rfl := hfirst'.isLeast.unique hfirst.isLeast
      exact ⟨rfl, hfirst'.paths_eq.trans hfirst.paths_eq.symm⟩
  · intro disk there found
    have hleast : IsLeast {k | Free there index files k} found := by
      have hisFree := isLeast_firstFree disk index files
      simp only [isFree_iff] at hisFree
      exact hisFree
    have hfirst := IsFirstFree.of_isLeast hleast
    exact ⟨finds_iff.mpr hfirst, hfirst⟩

/-- One path can be in the way of edition 0 and of another edition. -/
example : firstFree { entries := [(["exam_notes_1.md"], .file (some ""))] } ⟨"exam.yaml"⟩
    ["notes.md", "notes_1.md"] = 2 := by decide

end Outputs

end ExamPaper

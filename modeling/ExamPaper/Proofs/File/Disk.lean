import ExamPaper.File.Disk
import ExamPaper.Proofs.File.Path

/-!
# Writing one of the files of a directory

Where the path of a name in a directory leads depends on the directories on the way and on the name,
and on nothing else that is on the disk (`DirectoryAt.locate_join`). Writing a file there changes no
directory, so

> every name of the directory still leads where it led (`locate_write`), the file written holds its
> text (`find_write_self`), the other names of the directory lead to what they led to
> (`find_write_of_ne`), and so does every location but the one written to (`entryAt?_write`).
-/

namespace ExamPaper

/-- What an entry of a directory can be named. -/
structure IsEntryName (name : String) : Prop where
  no_slash : '/' ∉ name.toList
  ne_empty : name ≠ ""
  ne_dot : name ≠ "."
  ne_dots : name ≠ ".."

namespace IsEntryName

variable {name other : String}

/-- A name that is put behind a directory is the last component of the path. -/
theorem getLast?_components_join (h : IsEntryName name) (directory : Path) :
    (directory.join ⟨name⟩).components.getLast? = some name.toList :=
  Path.getLast?_components_join directory h.no_slash h.ne_empty h.ne_dot

/-- The components of the path of a name in a directory tell the name. -/
theorem eq_of_components_join (h : IsEntryName name) (hother : IsEntryName other) {directory : Path}
    (heq : (directory.join ⟨name⟩).components = (directory.join ⟨other⟩).components) :
    name = other := by
  have hlast := h.getLast?_components_join directory
  rw [heq, hother.getLast?_components_join, Option.some.injEq, String.toList_inj] at hlast
  exact hlast.symm

end IsEntryName

namespace Disk

variable {d d' : Disk} {directory : Path} {name other text : String} {l m : Location}

/-! ## Walks -/

/-- A way is walked part by part. -/
theorem walk_append (d : Disk) (after : List String) : ∀ (before : List String) (l : Location),
    d.walk l (before ++ after) = (d.walk l before).bind fun m => d.walk m after := by
  intro before
  induction before with
  | nil => intro l; rfl
  | cons first before ih =>
    intro l
    rw [List.cons_append, walk, walk]
    cases d.entryAt? l with
    | none => rfl
    | some entry =>
      cases entry with
      | file content => rfl
      | directory =>
        dsimp only
        split
        · exact ih l
        · split
          · exact ih l.dropLast
          · split
            · rfl
            · exact ih (l ++ [first])

/-- Where directories are not lost, a walk that comes to an end still does. -/
theorem walk_of_directories
    (h : ∀ l, d.entryAt? l = some .directory → d'.entryAt? l = some .directory) :
    ∀ {names : List String} {l : Location}, d.walk l names = .ok m → d'.walk l names = .ok m := by
  intro names
  induction names with
  | nil => intro l hwalk; exact hwalk
  | cons first names ih =>
    intro l hwalk
    rw [walk] at hwalk ⊢
    cases hentry : d.entryAt? l with
    | none => rw [hentry] at hwalk; exact absurd hwalk (by simp)
    | some entry =>
      rw [hentry] at hwalk
      cases entry with
      | file content => exact absurd hwalk (by simp)
      | directory =>
        -- a walk goes on from directories only, and none of them is lost
        rw [h l hentry]
        dsimp only at hwalk ⊢
        by_cases hfiller : first = "" ∨ first = "."
        · rw [if_pos hfiller] at hwalk ⊢
          exact ih hwalk
        rw [if_neg hfiller] at hwalk ⊢
        by_cases hup : first = ".."
        · rw [if_pos hup] at hwalk ⊢
          exact ih hwalk
        rw [if_neg hup] at hwalk ⊢
        by_cases hlong : nameLimit < first.utf8ByteSize
        · rw [if_pos hlong] at hwalk
          exact absurd hwalk (by simp)
        · rw [if_neg hlong] at hwalk ⊢
          exact ih hwalk

/-! ## The names in a directory -/

/-- The directory at a path is there, at a location. -/
structure DirectoryAt (d : Disk) (directory : Path) (l : Location) : Prop where
  walk_eq : d.walk (if directory.opening.head? == some '/' then [] else d.workingDirectory)
    (directory.outerSegments.map String.ofList) = .ok l
  entryAt?_eq : d.entryAt? l = some .directory

/-- Where a path leads whose last name is in a directory at a location. -/
def entryIn (l : Location) (p : Path) (name : String) : Except DiskError Location :=
  match fault? p with
  | some e => .error e
  | none => if nameLimit < name.utf8ByteSize then .error .nameTooLong else .ok (l ++ [name])

/-- The way to a file of a directory is the way to the directory, and then its name. -/
theorem names_join (directory : Path) (h : '/' ∉ name.toList) :
    names (directory.join ⟨name⟩) = directory.outerSegments.map String.ofList ++ [name] := by
  unfold names
  rw [Path.segments_join directory h, List.map_append, List.map_singleton, String.ofList_toList]

/-- One step of a way leads into a directory, and names that are too long lead nowhere. -/
theorem walk_name (hname : IsEntryName name) (l : Location) :
    d.walk l [name] =
      match d.entryAt? l with
      | none => .error .missing
      | some (.file _) => .error .notADirectory
      | some .directory =>
        if nameLimit < name.utf8ByteSize then .error .nameTooLong else .ok (l ++ [name]) := by
  have hplain : ¬ (name = "" ∨ name = ".") := fun h => h.elim hname.ne_empty hname.ne_dot
  rw [walk, if_neg hplain, if_neg hname.ne_dots]
  rfl

/-- A path into a directory that is there leads to a place in that directory. -/
theorem DirectoryAt.locate_join (h : d.DirectoryAt directory l) (hname : IsEntryName name) :
    d.locate (directory.join ⟨name⟩) = entryIn l (directory.join ⟨name⟩) name := by
  unfold locate entryIn
  rw [names_join directory hname.no_slash, Path.isAbsolute_join directory hname.no_slash,
    walk_append, h.walk_eq]
  show (match fault? _ with | some e => Except.error e | none => d.walk l [name]) = _
  rw [walk_name hname, h.entryAt?_eq]

/-- A name that leads somewhere leads to its place in the directory. -/
theorem directoryAt_of_locate (hname : IsEntryName name)
    (h : d.locate (directory.join ⟨name⟩) = .ok m) :
    ∃ l, d.DirectoryAt directory l ∧ m = l ++ [name] := by
  unfold locate at h
  cases hfault : fault? (directory.join ⟨name⟩) with
  | some e => rw [hfault] at h; exact absurd h (by simp)
  | none =>
    rw [hfault, names_join directory hname.no_slash,
      Path.isAbsolute_join directory hname.no_slash, walk_append] at h
    dsimp only at h
    cases hwalk : d.walk (if directory.opening.head? == some '/' then [] else d.workingDirectory)
        (directory.outerSegments.map String.ofList) with
    | error e => rw [hwalk] at h; exact absurd h (by simp [Except.bind])
    | ok l =>
      rw [hwalk] at h
      change d.walk l [name] = .ok m at h
      rw [walk_name hname] at h
      cases hentry : d.entryAt? l with
      | none => rw [hentry] at h; exact absurd h (by simp)
      | some entry =>
        rw [hentry] at h
        cases entry with
        | file content => exact absurd h (by simp)
        | directory =>
          dsimp only at h
          by_cases hlong : nameLimit < name.utf8ByteSize
          · rw [if_pos hlong] at h
            exact absurd h (by simp)
          · rw [if_neg hlong] at h
            exact ⟨l, ⟨hwalk, hentry⟩, (Except.ok.inj h).symm⟩

/-- Nothing that is in the directory has the same place as another name. -/
theorem locate_ne (hname : IsEntryName name) (hother : IsEntryName other) (hne : other ≠ name)
    (h : d.locate (directory.join ⟨name⟩) = .ok m) :
    d.locate (directory.join ⟨other⟩) ≠ .ok m := by
  intro h'
  obtain ⟨l, _, rfl⟩ := directoryAt_of_locate hname h
  obtain ⟨l', _, hsame⟩ := directoryAt_of_locate hother h'
  exact hne (List.append_inj_right' hsame.symm rfl |> List.singleton_inj.mp)

/-- A name that leads to something is the last one of an entry of the disk. -/
theorem exists_entry_of_contains (hname : IsEntryName name)
    (h : d.contains (directory.join ⟨name⟩) = true) :
    ∃ l, l ++ [name] ∈ d.entries.map (·.1) := by
  unfold contains find at h
  cases hlocate : d.locate (directory.join ⟨name⟩) with
  | error e => rw [hlocate] at h; exact absurd h (by simp [Except.isOk, Except.toBool])
  | ok m =>
    rw [hlocate] at h
    obtain ⟨l, _, rfl⟩ := directoryAt_of_locate hname hlocate
    dsimp only at h
    cases hentry : d.entryAt? (l ++ [name]) with
    | none => rw [hentry] at h; exact absurd h (by simp [Except.isOk, Except.toBool])
    | some entry =>
      -- only the root is there without an entry of its own, and this is another location
      have hlookup : d.entries.lookup (l ++ [name]) = some entry := by
        rw [← hentry]
        cases l <;> rfl
      obtain ⟨before, after, hentries, _⟩ := List.lookup_eq_some_iff.mp hlookup
      refine ⟨l, ?_⟩
      rw [hentries]
      simp

/-! ## Writing a file of the directory -/

theorem getLast?_join (directory : Path) (hname : IsEntryName name) :
    (directory.join ⟨name⟩).text.toList.getLast? ≠ some '/' := by
  rw [Path.toList_join directory hname.no_slash]
  have hnil : name.toList ≠ [] := fun h => hname.ne_empty (String.toList_eq_nil_iff.mp h)
  rw [List.getLast?_append, List.getLast?_eq_some_getLast hnil]
  intro h
  have hlast : name.toList.getLast hnil = '/' := Option.some.inj h
  exact hname.no_slash (hlast ▸ List.getLast_mem hnil)

/-- Only slashes at the end of a path are dropped. -/
theorem withoutFinalSlashes_of_getLast? {p : Path} (h : p.text.toList.getLast? ≠ some '/') :
    withoutFinalSlashes p = p := by
  have hkept : p.text.toList.reverse.dropWhile (· == '/') = p.text.toList.reverse := by
    cases hreverse : p.text.toList.reverse with
    | nil => rfl
    | cons c rest =>
      refine List.dropWhile_cons_of_neg ?_
      rw [beq_iff_eq]
      rintro rfl
      rw [← List.head?_reverse, hreverse] at h
      exact h rfl
  unfold withoutFinalSlashes
  rw [hkept, List.reverse_reverse, String.ofList_toList]

/-- A name is written to where it leads, unless a directory is there. -/
theorem target_join (hname : IsEntryName name) (h : d.target (directory.join ⟨name⟩) = .ok m) :
    d.locate (directory.join ⟨name⟩) = .ok m ∧ d.entryAt? m ≠ some .directory := by
  have hlast := getLast?_join directory hname
  have hentry : d.locateEntry (directory.join ⟨name⟩) = d.locate (directory.join ⟨name⟩) := by
    unfold locateEntry
    rw [withoutFinalSlashes_of_getLast? hlast]
    unfold locate
    cases fault? (directory.join ⟨name⟩) <;> rfl
  unfold target at h
  rw [hentry] at h
  cases hlocate : d.locate (directory.join ⟨name⟩) with
  | error e => rw [hlocate] at h; exact absurd h (by simp)
  | ok l =>
    rw [hlocate] at h
    dsimp only at h
    rw [if_neg hlast] at h
    by_cases hdirectory : d.entryAt? l = some .directory
    · rw [hdirectory] at h
      exact absurd h (by simp)
    · split at h
      · exact absurd h (by simp)
      · obtain rfl := Except.ok.inj h
        exact ⟨rfl, hdirectory⟩

/-- Writing to a name puts a file at its place, which is no directory and where the system does not
refuse. -/
theorem write_join (hname : IsEntryName name)
    (h : d.write (directory.join ⟨name⟩) text = .ok d') :
    ∃ l, d.DirectoryAt directory l ∧ d.locate (directory.join ⟨name⟩) = .ok (l ++ [name]) ∧
      d.entryAt? (l ++ [name]) ≠ some .directory ∧ d.refusal? (l ++ [name]) = none ∧
      d' = d.insert (l ++ [name]) (.file (some text)) := by
  unfold write at h
  cases htarget : d.target (directory.join ⟨name⟩) with
  | error e => rw [htarget] at h; exact absurd h (by simp)
  | ok m =>
    rw [htarget] at h
    obtain ⟨hlocate, hdirectory⟩ := target_join hname htarget
    obtain ⟨l, hl, rfl⟩ := directoryAt_of_locate hname hlocate
    obtain ⟨hgranted, hd'⟩ := put_eq_ok_iff.mp h
    exact ⟨l, hl, hlocate, hdirectory, hgranted, hd'⟩

/-- Directories outlive the files put on a disk. -/
theorem DirectoryAt.insert (h : d.DirectoryAt directory l) (hm : d.entryAt? m ≠ some .directory)
    (e : Entry) : (d.insert m e).DirectoryAt directory l := by
  have hkept : ∀ l, d.entryAt? l = some .directory →
      (d.insert m e).entryAt? l = some .directory := by
    intro l hl
    rw [entryAt?_insert_of_ne]
    · exact hl
    · rintro rfl
      exact hm hl
  exact ⟨walk_of_directories hkept h.walk_eq, hkept l h.entryAt?_eq⟩

/-- Writing a file of a directory moves no other file of it. -/
theorem locate_write (hname : IsEntryName name)
    (h : d.write (directory.join ⟨name⟩) text = .ok d') (hother : IsEntryName other) :
    d'.locate (directory.join ⟨other⟩) = d.locate (directory.join ⟨other⟩) := by
  obtain ⟨l, hl, _, hentry, _, rfl⟩ := write_join hname h
  rw [hl.locate_join hother, (hl.insert hentry _).locate_join hother]

/-- What was written is found at its path. -/
theorem find_write_self (hname : IsEntryName name)
    (h : d.write (directory.join ⟨name⟩) text = .ok d') :
    d'.find (directory.join ⟨name⟩) = .ok (.file (some text)) := by
  have hsame := locate_write hname h hname
  obtain ⟨l, _, hlocate, _, _, rfl⟩ := write_join hname h
  have hnil : l ++ [name] ≠ [] := by simp
  unfold find
  rw [hsame, hlocate]
  dsimp only
  rw [entryAt?_insert_self d hnil]

/-- What is at any other location stays. -/
theorem entryAt?_write (hname : IsEntryName name)
    (h : d.write (directory.join ⟨name⟩) text = .ok d')
    (hm : d.locate (directory.join ⟨name⟩) ≠ .ok m) : d'.entryAt? m = d.entryAt? m := by
  obtain ⟨l, _, hlocate, _, _, rfl⟩ := write_join hname h
  refine entryAt?_insert_of_ne d ?_ _
  rintro rfl
  exact hm hlocate

/-- Under the other names of the directory the same is found as before. -/
theorem find_write_of_ne (hname : IsEntryName name)
    (h : d.write (directory.join ⟨name⟩) text = .ok d') (hother : IsEntryName other)
    (hne : other ≠ name) :
    d'.find (directory.join ⟨other⟩) = d.find (directory.join ⟨other⟩) := by
  unfold find
  rw [locate_write hname h hother]
  cases hlocate : d.locate (directory.join ⟨other⟩) with
  | error e => rfl
  | ok m =>
    dsimp only
    rw [entryAt?_write hname h (locate_ne hother hname hne.symm hlocate)]

end Disk

end ExamPaper

import ExamPaper.File.Path
import ExamPaper.Proofs.Text.Pieces
import Mathlib.Data.List.TakeWhile

/-!
# Names in a directory

What the slashes and dots of a path separate. The path of a name in a directory has the segments of
the directory and the name as its last one (`segments_join`). A name is its stem, and after a dot
its extension, if it has one (`IsCut`); so a name tells its stem (`IsCut.unique`), and goes on
telling it when something without a dot is put at the end of the stem (`IsCut.append`).
-/

namespace ExamPaper

namespace Path

/-! ## Names -/

theorem mem_of_mem_dropFiller {segment : List Char} : ∀ {segments : List (List Char)},
    segment ∈ dropFiller segments → segment ∈ segments := by
  intro segments
  fun_induction dropFiller segments with
  | case1 => exact id
  | case2 => exact id
  | case3 first rest _ hfiller ih => exact fun h => List.mem_cons_of_mem _ (ih h)
  | case4 => exact id

/-- The name of a path has no slash in it. -/
theorem notMem_nameChars? {p : Path} {name : List Char} (h : p.nameChars? = some name) :
    '/' ∉ name := by
  unfold nameChars? at h
  cases hsegments : dropFiller p.segments.reverse with
  | nil => rw [hsegments] at h; exact absurd h (by simp)
  | cons segment rest =>
    rw [hsegments] at h
    dsimp only at h
    split at h
    · exact absurd h (by simp)
    · obtain rfl := Option.some.inj h
      have hmem : segment ∈ p.segments.reverse :=
        mem_of_mem_dropFiller (hsegments ▸ List.mem_cons_self)
      exact Text.notMem_of_mem_splitOnto List.not_mem_nil (List.mem_reverse.mp hmem)

/-- An extension with its dot. -/
def dotted : Option (List Char) → List Char
  | none => []
  | some extension => '.' :: extension

/-- A stem and an extension that a name can be cut into: a name without an extension has no dot but
perhaps at its start, and one with an extension is cut at its last dot. -/
def IsCut (stem : List Char) : Option (List Char) → Prop
  | none => '.' ∉ stem.tail
  | some extension => stem ≠ [] ∧ '.' ∉ extension

/-- A name without dots has no extension. -/
theorem splitName_of_notMem {name : List Char} (h : '.' ∉ name) :
    splitName name = (name, none) := by
  have hkept : ∀ c ∈ name.reverse, decide (c ≠ '.') = true := by
    intro c hc
    rw [decide_eq_true_iff]
    rintro rfl
    exact h (List.mem_reverse.mp hc)
  unfold splitName
  rw [List.dropWhile_eq_nil_iff.mpr hkept]
  rfl

/-- A name is split at its last dot, unless that is its first character. -/
theorem splitName_append_cons {before after : List Char} (h : '.' ∉ after) :
    splitName (before ++ '.' :: after) =
      if before.isEmpty then (before ++ '.' :: after, none) else (before, some after) := by
  have hkept : ∀ c ∈ after.reverse, decide (c ≠ '.') = true := by
    intro c hc
    rw [decide_eq_true_iff]
    rintro rfl
    exact h (List.mem_reverse.mp hc)
  have hreverse : (before ++ '.' :: after).reverse = after.reverse ++ '.' :: before.reverse := by
    simp
  unfold splitName
  rw [hreverse, List.takeWhile_append_of_pos hkept, List.dropWhile_append_of_pos hkept,
    List.takeWhile_cons_of_neg (by simp), List.dropWhile_cons_of_neg (by simp)]
  simp

/-- A name has no dot, or it is cut at its last dot. -/
theorem splitName_cases (name : List Char) :
    ('.' ∉ name ∧ splitName name = (name, none)) ∨
    ∃ before after, name = before ++ '.' :: after ∧ '.' ∉ after ∧
      splitName name = if before.isEmpty then (name, none) else (before, some after) := by
  by_cases hdot : '.' ∈ name
  · obtain ⟨after, before, hreverse, hafter⟩ :=
      List.eq_append_cons_of_mem (List.mem_reverse.mpr hdot)
    have hname : name = before.reverse ++ '.' :: after.reverse := by
      rw [← List.reverse_inj, hreverse]
      simp
    have hnot : '.' ∉ after.reverse := by rwa [List.mem_reverse]
    refine Or.inr ⟨before.reverse, after.reverse, hname, hnot, ?_⟩
    rw [hname]
    exact splitName_append_cons hnot
  · exact Or.inl ⟨hdot, splitName_of_notMem hdot⟩

/-- A name is cut where its extension begins. -/
theorem isCut_splitName (name : List Char) : IsCut (splitName name).1 (splitName name).2 := by
  rcases splitName_cases name with ⟨hdot, hsplit⟩ | ⟨before, after, rfl, hafter, hsplit⟩
  · rw [hsplit]
    exact fun h => hdot (List.mem_of_mem_tail h)
  · rw [hsplit]
    cases before with
    | nil => exact hafter
    | cons c before => exact ⟨List.cons_ne_nil c before, hafter⟩

/-- Stem and extension with the dot between them are the whole name. -/
theorem splitName_append (name : List Char) :
    (splitName name).1 ++ dotted (splitName name).2 = name := by
  rcases splitName_cases name with ⟨_, hsplit⟩ | ⟨before, after, rfl, _, hsplit⟩
  · rw [hsplit]
    exact List.append_nil name
  · rw [hsplit]
    cases before with
    | nil => exact List.append_nil _
    | cons c before => rfl

/-- A name with an extension cannot be a name without one. -/
theorem IsCut.ne_bare {stem extension name : List Char} (h : IsCut stem (some extension))
    (hbare : IsCut name none) : stem ++ '.' :: extension ≠ name := by
  rintro rfl
  obtain ⟨c, stem, rfl⟩ := List.exists_cons_of_ne_nil h.1
  exact hbare (List.mem_append_right stem List.mem_cons_self)

/-- A name can be cut in one way only. -/
theorem IsCut.unique {stem stem' : List Char} {extension extension' : Option (List Char)}
    (h : IsCut stem extension) (h' : IsCut stem' extension')
    (heq : stem ++ dotted extension = stem' ++ dotted extension') :
    stem = stem' ∧ extension = extension' := by
  cases extension with
  | none =>
    cases extension' with
    | none =>
      rw [dotted, List.append_nil, List.append_nil] at heq
      exact ⟨heq, rfl⟩
    | some after' =>
      rw [dotted, List.append_nil] at heq
      exact absurd heq.symm (h'.ne_bare h)
  | some after =>
    cases extension' with
    | none => exact absurd (heq.trans (List.append_nil stem')) (h.ne_bare h')
    | some after' =>
      obtain ⟨rfl, rfl⟩ := Text.eq_of_append_cons h.2 h'.2 heq
      exact ⟨rfl, rfl⟩

/-- What follows the stem without a dot goes to the stem. -/
theorem IsCut.append {stem number : List Char} {extension : Option (List Char)}
    (h : IsCut stem extension) (hnumber : '.' ∉ number) : IsCut (stem ++ number) extension := by
  cases extension with
  | none =>
    cases stem with
    | nil => exact fun hmem => hnumber (List.mem_of_mem_tail hmem)
    | cons c stem =>
      show '.' ∉ stem ++ number
      rw [List.mem_append, not_or]
      exact ⟨h, hnumber⟩
  | some extension => exact ⟨List.append_ne_nil_of_left_ne_nil h.1 number, h.2⟩

/-! ## The path of a name in a directory -/

/-- What precedes the names in a directory: its path with a slash at the end, and nothing for the
empty path. -/
def opening (directory : Path) : List Char :=
  if directory.text.isEmpty then []
  else if directory.text.toList.getLast? == some '/' then directory.text.toList
  else directory.text.toList ++ ['/']

/-- What stands before a name that is put behind a directory is nothing, or it ends in a slash. -/
theorem opening_cases (directory : Path) :
    directory.opening = [] ∨ ∃ front, directory.opening = front ++ ['/'] := by
  unfold opening
  split
  · exact Or.inl rfl
  · split
    · rename_i hlast
      obtain ⟨front, hfront⟩ := List.getLast?_eq_some_iff.mp (eq_of_beq hlast)
      exact Or.inr ⟨front, hfront⟩
    · exact Or.inr ⟨_, rfl⟩

variable {name : String}

/-- A name without slashes is no absolute path. -/
theorem not_isAbsolute (h : '/' ∉ name.toList) : isAbsolute ⟨name⟩ = false := by
  unfold isAbsolute
  rw [beq_eq_false_iff_ne]
  exact fun hhead => h (List.mem_of_mem_head? hhead)

/-- A name is put behind a directory as it is. -/
theorem toList_join (directory : Path) (h : '/' ∉ name.toList) :
    (directory.join ⟨name⟩).text.toList = directory.opening ++ name.toList := by
  unfold join opening
  rw [not_isAbsolute h, Bool.false_or]
  split
  · rfl
  · split
    · exact String.toList_append
    · simp

/-- The segments of a directory, seen from the names in it. -/
def outerSegments (directory : Path) : List (List Char) :=
  (Text.splitAtChar '/' directory.opening).dropLast

/-- A name that is put behind a directory is the last segment of the path. -/
theorem segments_join (directory : Path) (h : '/' ∉ name.toList) :
    (directory.join ⟨name⟩).segments = directory.outerSegments ++ [name.toList] := by
  unfold segments outerSegments
  rw [toList_join directory h]
  rcases directory.opening_cases with hopening | ⟨front, hopening⟩
  · rw [hopening, List.nil_append, Text.splitAtChar_of_notMem h]
    rfl
  · rw [hopening, List.append_assoc, List.singleton_append, Text.splitAtChar_append_cons,
      Text.splitAtChar_append_cons, Text.splitAtChar_of_notMem h,
      Text.splitAtChar_of_notMem List.not_mem_nil, List.dropLast_concat]

/-- A path into a directory is absolute if its opening begins with a slash. -/
theorem isAbsolute_join (directory : Path) (h : '/' ∉ name.toList) :
    (directory.join ⟨name⟩).isAbsolute = (directory.opening.head? == some '/') := by
  unfold isAbsolute
  rw [toList_join directory h, List.head?_append]
  cases directory.opening with
  | nil => exact not_isAbsolute h
  | cons c rest => rfl

/-- Of the segments of a path, only those behind the first one can be fillers. -/
theorem components_of_segments {p : Path} {first : List Char} {rest : List (List Char)}
    (h : p.segments = first :: rest) (hrest : rest ≠ []) :
    p.components = first :: rest.filter fun segment => !isFiller segment := by
  unfold components
  rw [h]
  cases rest with
  | nil => exact absurd rfl hrest
  | cons second rest => cases first <;> rfl

/-- The name is the last component of its path in a directory. -/
theorem getLast?_components_join (directory : Path) (h : '/' ∉ name.toList) (hempty : name ≠ "")
    (hdot : name ≠ ".") : (directory.join ⟨name⟩).components.getLast? = some name.toList := by
  have hne : name.toList ≠ [] := fun hnil => hempty (String.toList_eq_nil_iff.mp hnil)
  have hkept : isFiller name.toList = false := by
    have hsegment : name.toList ≠ ['.'] := fun heq => hdot (String.toList_inj.mp heq)
    simp [isFiller, hne, hsegment]
  have hsegments := segments_join directory h
  cases houter : directory.outerSegments with
  | nil =>
    rw [houter, List.nil_append] at hsegments
    unfold components
    rw [hsegments]
    cases hname : name.toList with
    | nil => exact absurd hname hne
    | cons c rest => rfl
  | cons first outer =>
    rw [houter, List.cons_append] at hsegments
    have hlast : (outer ++ [name.toList]).filter (fun segment => !isFiller segment) =
        outer.filter (fun segment => !isFiller segment) ++ [name.toList] := by
      simp [hkept]
    rw [components_of_segments hsegments (by simp), hlast, ← List.cons_append,
      List.getLast?_concat]

end Path

end ExamPaper

import ExamPaper.Proofs.Text.Blank
import ExamPaper.Text.Pieces
import Mathlib.Data.List.Forall2

/-!
# Pieces with blanks around them

Cutting at a separator is the `List.splitOn` of the library (`splitAtChar_eq_splitOn`), so that
putting the separators back undoes it.

> A text lists the pieces that it is cut into, with the separator between them and blanks around
> each (`listed_splitAtChar`), and a text that lists trimmed pieces is cut into these, once the
> blanks are trimmed (`Listed.map_trimChars_splitAtChar`).

Blanks around the whole text make no difference (`Padded.map_trimChars_splitAtChar`).
-/

namespace ExamPaper

namespace Text

/-! ## Prefixes and suffixes -/

/-- A pattern is dropped from the front of a text that begins with it. -/
theorem dropPrefix?_eq_some_iff {pattern : List Char} : ∀ {cs rest : List Char},
    dropPrefix? pattern cs = some rest ↔ cs = pattern ++ rest := by
  induction pattern with
  | nil =>
    intro cs rest
    rw [dropPrefix?, Option.some.injEq, List.nil_append]
  | cons p pattern ih =>
    intro cs rest
    cases cs with
    | nil => simp [dropPrefix?]
    | cons c cs =>
      rw [dropPrefix?, List.cons_append, List.cons.injEq, ← ih]
      by_cases hp : p = c
      · simp [hp]
      · simp [hp, Ne.symm hp]

/-- A pattern is dropped from the end of a text that ends with it. -/
theorem dropSuffix?_eq_some_iff {pattern cs rest : List Char} :
    dropSuffix? pattern cs = some rest ↔ cs = rest ++ pattern := by
  unfold dropSuffix?
  rw [Option.map_eq_some_iff]
  simp only [dropPrefix?_eq_some_iff]
  constructor
  · rintro ⟨found, hfound, rfl⟩
    rw [← List.reverse_reverse cs, hfound, List.reverse_append, List.reverse_reverse]
  · rintro rfl
    exact ⟨rest.reverse, List.reverse_append, List.reverse_reverse rest⟩

/-! ## Cutting -/

variable {separator : Char}

theorem splitOnto_eq_splitOnPPrepend (separator : Char) : ∀ cs piece : List Char,
    splitOnto separator piece cs = cs.splitOnPPrepend (· == separator) piece := by
  intro cs
  induction cs with
  | nil => intro piece; rw [splitOnto, List.splitOnPPrepend_nil]
  | cons c cs ih =>
    intro piece
    rw [splitOnto, List.splitOnPPrepend_cons_eq_if, ih, ih]
    simp

/-- Cutting at a separator is the cutting of the library. -/
theorem splitAtChar_eq_splitOn (separator : Char) (cs : List Char) :
    splitAtChar separator cs = cs.splitOn separator :=
  splitOnto_eq_splitOnPPrepend separator cs []

/-- Characters other than the separator are put to what has been read of a piece. -/
theorem splitOnto_append_of_notMem {cs : List Char} (h : separator ∉ cs) :
    ∀ piece rest : List Char,
      splitOnto separator piece (cs ++ rest) = splitOnto separator (cs.reverse ++ piece) rest := by
  induction cs with
  | nil => intro piece rest; rfl
  | cons c cs ih =>
    rw [List.mem_cons, not_or] at h
    intro piece rest
    rw [List.cons_append, splitOnto, if_neg (Ne.symm h.1), ih h.2, List.reverse_cons,
      List.append_assoc]
    rfl

/-- A text without the separator is one piece. -/
theorem splitAtChar_of_notMem {cs : List Char} (h : separator ∉ cs) :
    splitAtChar separator cs = [cs] :=
  (splitAtChar_eq_splitOn separator cs).trans (List.splitOn_eq_singleton h)

/-- A text is cut at a separator into the pieces before it and those behind it. -/
theorem splitAtChar_append_cons (separator : Char) (cs ds : List Char) :
    splitAtChar separator (cs ++ separator :: ds) =
      splitAtChar separator cs ++ splitAtChar separator ds := by
  simp only [splitAtChar_eq_splitOn]
  exact List.splitOn_append_cons_self cs ds

/-- No piece has the separator in it. -/
theorem notMem_of_mem_splitOnto {separator : Char} : ∀ {cs piece found : List Char},
    separator ∉ piece → found ∈ splitOnto separator piece cs → separator ∉ found := by
  intro cs
  induction cs with
  | nil =>
    intro piece found hpiece h
    obtain rfl := List.mem_singleton.mp h
    rwa [List.mem_reverse]
  | cons c cs ih =>
    intro piece found hpiece h
    rw [splitOnto] at h
    by_cases hc : c = separator
    · rw [if_pos hc] at h
      rcases List.mem_cons.mp h with rfl | hrest
      · rwa [List.mem_reverse]
      · exact ih List.not_mem_nil hrest
    · rw [if_neg hc] at h
      refine ih ?_ h
      rw [List.mem_cons, not_or]
      exact ⟨Ne.symm hc, hpiece⟩

/-- A text cut at the last separator can be cut in one way only. -/
theorem eq_of_append_cons {separator : Char} {cs cs' ds ds' : List Char} (hds : separator ∉ ds)
    (hds' : separator ∉ ds') (h : cs ++ separator :: ds = cs' ++ separator :: ds') :
    cs = cs' ∧ ds = ds' := by
  rcases List.append_eq_append_iff.mp h with ⟨mid, rfl, hmid⟩ | ⟨mid, rfl, hmid⟩
  · cases mid with
    | nil => exact ⟨(List.append_nil _).symm, (List.cons.inj hmid).2⟩
    | cons c mid =>
      -- the separator of the second would be in what follows that of the first
      obtain ⟨_, rfl⟩ := List.cons.inj hmid
      exact absurd (List.mem_append_right mid List.mem_cons_self) hds
  · cases mid with
    | nil => exact ⟨List.append_nil _, ((List.cons.inj hmid).2).symm⟩
    | cons c mid =>
      obtain ⟨_, rfl⟩ := List.cons.inj hmid
      exact absurd (List.mem_append_right mid List.mem_cons_self) hds'

/-! ## Cutting and trimming -/

theorem map_trimChars_splitOnto_before {before : List Char} (h : Blanks before) :
    ∀ cs piece : List Char, (splitOnto separator (piece ++ before.reverse) cs).map trimChars =
      (splitOnto separator piece cs).map trimChars := by
  intro cs
  induction cs with
  | nil =>
    intro piece
    simp only [splitOnto, List.reverse_append, List.reverse_reverse, List.map_cons, List.map_nil,
      trimChars_append_left h]
  | cons c cs ih =>
    intro piece
    rw [splitOnto, splitOnto]
    split
    · simp only [List.reverse_append, List.reverse_reverse, List.map_cons,
        trimChars_append_left h]
    · exact ih (c :: piece)

theorem map_trimChars_splitOnto_after {after : List Char} (h : Blanks after)
    (hseparator : separator ∉ after) : ∀ cs piece : List Char,
      (splitOnto separator piece (cs ++ after)).map trimChars =
        (splitOnto separator piece cs).map trimChars := by
  intro cs
  induction cs with
  | nil =>
    intro piece
    have hlast : splitOnto separator piece after = [piece.reverse ++ after] := by
      rw [← List.append_nil after, splitOnto_append_of_notMem hseparator, splitOnto]
      simp
    rw [List.nil_append, hlast, splitOnto]
    simp only [List.map_cons, List.map_nil, trimChars_append_right h]
  | cons c cs ih =>
    intro piece
    rw [List.cons_append, splitOnto, splitOnto]
    split
    · rw [List.map_cons, List.map_cons, ih]
    · exact ih (c :: piece)

/-- Blanks around a text make no difference to its trimmed pieces. -/
theorem Padded.map_trimChars_splitAtChar (hseparator : isBlank separator = false)
    {inner cs : List Char} (h : Padded inner cs) :
    (splitAtChar separator cs).map trimChars = (splitAtChar separator inner).map trimChars := by
  obtain ⟨before, after, hbefore, hafter, rfl⟩ := h
  unfold splitAtChar
  rw [map_trimChars_splitOnto_after hafter (notMem_of_blanks hseparator hafter),
    splitOnto_append_of_notMem (notMem_of_blanks hseparator hbefore), List.append_nil]
  exact map_trimChars_splitOnto_before hbefore inner []

/-! ## Lists of pieces -/

/-- Pieces one after another, each with any blanks around it, and the separator between them. -/
def Listed (separator : Char) (pieces : List (List Char)) (cs : List Char) : Prop :=
  ∃ padded, List.Forall₂ Padded pieces padded ∧ cs = [separator].intercalate padded

/-- A text lists the trimmed pieces that it is cut into. -/
theorem listed_splitAtChar (separator : Char) (cs : List Char) :
    Listed separator ((splitAtChar separator cs).map trimChars) cs := by
  refine ⟨splitAtChar separator cs, ?_, ?_⟩
  · rw [List.forall₂_map_left_iff, List.forall₂_same]
    exact fun piece _ => padded_trimChars piece
  · rw [splitAtChar_eq_splitOn, List.intercalate_splitOn]

/-- Trimming takes the blanks off every piece. -/
theorem map_trimChars_of_forall₂ {pieces padded : List (List Char)}
    (h : List.Forall₂ Padded pieces padded) (hpieces : ∀ piece ∈ pieces, Trimmed piece) :
    padded.map trimChars = pieces := by
  induction h with
  | nil => rfl
  | cons hpadded _ ih =>
    obtain ⟨hpiece, hpieces⟩ := List.forall_mem_cons.mp hpieces
    rw [List.map_cons, hpiece.trimChars_eq hpadded, ih hpieces]

/-- A text that lists trimmed pieces is cut into them. -/
theorem Listed.map_trimChars_splitAtChar (hseparator : isBlank separator = false)
    {pieces : List (List Char)} {cs : List Char} (h : Listed separator pieces cs)
    (hne : pieces ≠ []) (htrimmed : ∀ piece ∈ pieces, Trimmed piece)
    (hnotMem : ∀ piece ∈ pieces, separator ∉ piece) :
    (splitAtChar separator cs).map trimChars = pieces := by
  obtain ⟨padded, hpadded, rfl⟩ := h
  have hcut : ∀ piece ∈ padded, separator ∉ piece := by
    clear hne htrimmed
    induction hpadded with
    | nil => exact List.forall_mem_nil _
    | cons hpadded _ ih =>
      obtain ⟨hpiece, hpieces⟩ := List.forall_mem_cons.mp hnotMem
      exact List.forall_mem_cons.mpr
        ⟨fun hmem => hpiece (hpadded.mem_inner hmem hseparator), ih hpieces⟩
  have hpaddedne : padded ≠ [] := by
    rintro rfl
    exact hne (List.forall₂_nil_right_iff.mp hpadded)
  rw [splitAtChar_eq_splitOn, List.splitOn_intercalate separator hcut hpaddedne]
  exact map_trimChars_of_forall₂ hpadded htrimmed

end Text

end ExamPaper

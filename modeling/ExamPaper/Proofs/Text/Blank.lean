import ExamPaper.Text.Blank
import Mathlib.Data.List.TakeWhile

/-!
# Blanks at the ends of a text and between its words

What trimming and cutting into words give, said by the text alone.

> `trimChars_eq_iff`: the trimmed text is the one that has no blank at its ends (`Trimmed`) and
> makes up the text with blanks before and after it (`Padded`).
> `words_eq_iff`: the words of a text are what makes it up with blanks between them (`Spaced`).
-/

namespace ExamPaper

namespace Text

/-- Nothing but blanks. -/
def Blanks (cs : List Char) : Prop := ∀ c ∈ cs, isBlank c = true

theorem blanks_nil : Blanks [] := List.forall_mem_nil _

theorem Blanks.cons {c : Char} {gap : List Char} (h : Blanks gap) (hc : isBlank c = true) :
    Blanks (c :: gap) :=
  List.forall_mem_cons.mpr ⟨hc, h⟩

/-- Nothing but blanks is in a gap. -/
theorem notMem_of_blanks {c : Char} (hc : isBlank c = false) {gap : List Char} (h : Blanks gap) :
    c ∉ gap := by
  intro hmem
  exact absurd ((h c hmem).symm.trans hc) (by decide)

/-! ## Blanks at the ends -/

/-- A text with any blanks before and after it. -/
def Padded (inner cs : List Char) : Prop :=
  ∃ before after, Blanks before ∧ Blanks after ∧ cs = before ++ inner ++ after

/-- There is no blank at either end of a text. -/
structure Trimmed (cs : List Char) : Prop where
  first : ∀ c ∈ cs.head?, isBlank c = false
  last : ∀ c ∈ cs.getLast?, isBlank c = false

theorem padded_self (cs : List Char) : Padded cs cs :=
  ⟨[], [], blanks_nil, blanks_nil, (List.append_nil cs).symm⟩

/-- A text without blanks has none at its ends. -/
theorem trimmed_of_not_isBlank {cs : List Char} (h : ∀ c ∈ cs, isBlank c = false) : Trimmed cs :=
  ⟨fun c hc => h c (List.mem_of_mem_head? hc), fun c hc => h c (List.mem_of_mem_getLast? hc)⟩

/-- Blanks before a padded text are padding. -/
theorem Padded.append_left {inner cs before : List Char} (h : Padded inner cs)
    (hbefore : Blanks before) : Padded inner (before ++ cs) := by
  obtain ⟨before', after, hbefore', hafter, rfl⟩ := h
  exact ⟨before ++ before', after, List.forall_mem_append.mpr ⟨hbefore, hbefore'⟩, hafter,
    by simp⟩

/-- Blanks after a padded text are padding. -/
theorem Padded.append_right {inner cs after : List Char} (h : Padded inner cs)
    (hafter : Blanks after) : Padded inner (cs ++ after) := by
  obtain ⟨before, after', hbefore, hafter', rfl⟩ := h
  exact ⟨before, after' ++ after, hbefore, List.forall_mem_append.mpr ⟨hafter', hafter⟩,
    by simp⟩

/-- What is in a text is in it with blanks around. -/
theorem Padded.mem {inner cs : List Char} (h : Padded inner cs) {c : Char} (hc : c ∈ inner) :
    c ∈ cs := by
  obtain ⟨before, after, -, -, rfl⟩ := h
  exact List.mem_append_left after (List.mem_append_right before hc)

/-- A character that is no blank is not among those around a text. -/
theorem Padded.mem_inner {inner cs : List Char} (h : Padded inner cs) {c : Char} (hc : c ∈ cs)
    (hblank : isBlank c = false) : c ∈ inner := by
  obtain ⟨before, after, hbefore, hafter, rfl⟩ := h
  simpa [notMem_of_blanks hblank hbefore, notMem_of_blanks hblank hafter] using hc

/-- Blanks before a text that does not start with one are dropped, and no more. -/
theorem dropWhile_append {before cs : List Char} (hbefore : Blanks before)
    (hcs : ∀ c ∈ cs.head?, isBlank c = false) : (before ++ cs).dropWhile isBlank = cs := by
  rw [List.dropWhile_append_of_pos hbefore]
  cases cs with
  | nil => rfl
  | cons c cs => exact List.dropWhile_cons_of_neg (by rw [hcs c rfl]; decide)

/-- Trimming takes the padding off and nothing else. -/
theorem Trimmed.trimChars_eq {inner cs : List Char} (h : Trimmed inner) (hcs : Padded inner cs) :
    trimChars cs = inner := by
  obtain ⟨before, after, hbefore, hafter, rfl⟩ := hcs
  have hreversed : Blanks after.reverse := fun c hc => hafter c (List.mem_reverse.mp hc)
  unfold trimChars trimEndChars
  rw [List.append_assoc, List.dropWhile_append_of_pos hbefore]
  cases inner with
  | nil =>
    rw [List.nil_append, List.dropWhile_eq_nil_iff.mpr hafter]
    rfl
  | cons c inner =>
    rw [List.cons_append, List.dropWhile_cons_of_neg (by rw [h.first c rfl]; decide),
      ← List.cons_append, List.reverse_append,
      dropWhile_append hreversed (by rw [List.head?_reverse]; exact h.last), List.reverse_reverse]

/-- What is trimmed off the end are blanks. -/
theorem trimEndChars_append (cs : List Char) :
    ∃ after, Blanks after ∧ cs = trimEndChars cs ++ after := by
  refine ⟨(cs.reverse.takeWhile isBlank).reverse, fun c hc => ?_, ?_⟩
  · exact List.all_eq_true.mp List.all_takeWhile c (List.mem_reverse.mp hc)
  · unfold trimEndChars
    rw [← List.reverse_append, List.takeWhile_append_dropWhile, List.reverse_reverse]

/-- A text is its trimmed text with blanks around. -/
theorem padded_trimChars (cs : List Char) : Padded (trimChars cs) cs := by
  obtain ⟨after, hafter, hdropped⟩ := trimEndChars_append (cs.dropWhile isBlank)
  refine ⟨cs.takeWhile isBlank, after, List.all_eq_true.mp List.all_takeWhile, hafter, ?_⟩
  rw [List.append_assoc]
  unfold trimChars
  rw [← hdropped, List.takeWhile_append_dropWhile]

/-- Where the blanks at the front are dropped, something else stands first. -/
theorem not_isBlank_head?_dropWhile {cs : List Char} :
    ∀ c ∈ (cs.dropWhile isBlank).head?, isBlank c = false := by
  intro c hc
  have hfirst := List.head?_dropWhile_not isBlank cs
  rwa [Option.mem_def.mp hc] at hfirst

/-- A trimmed text has no blanks at its ends. -/
theorem trimmed_trimChars (cs : List Char) : Trimmed (trimChars cs) := by
  constructor
  · intro c hc
    -- the first character that is kept is the first that is not dropped
    obtain ⟨after, -, hdropped⟩ := trimEndChars_append (cs.dropWhile isBlank)
    have hkept : (trimEndChars (cs.dropWhile isBlank)).head? = some c := hc
    have hfirst : (cs.dropWhile isBlank).head? = some c := by
      rw [hdropped, List.head?_append, hkept]
      rfl
    exact not_isBlank_head?_dropWhile c hfirst
  · unfold trimChars trimEndChars
    rw [List.getLast?_reverse]
    exact not_isBlank_head?_dropWhile

/-- Trimming finds the one text without blanks at its ends that makes up the whole with blanks
around. -/
theorem trimChars_eq_iff {inner cs : List Char} :
    trimChars cs = inner ↔ Trimmed inner ∧ Padded inner cs := by
  constructor
  · rintro rfl
    exact ⟨trimmed_trimChars cs, padded_trimChars cs⟩
  · rintro ⟨htrimmed, hpadded⟩
    exact htrimmed.trimChars_eq hpadded

/-- Blanks before a text make no difference to its trimmed text. -/
theorem trimChars_append_left {before : List Char} (h : Blanks before) (cs : List Char) :
    trimChars (before ++ cs) = trimChars cs :=
  (trimmed_trimChars cs).trimChars_eq ((padded_trimChars cs).append_left h)

/-- Blanks after a text make no difference to its trimmed text. -/
theorem trimChars_append_right {after : List Char} (h : Blanks after) (cs : List Char) :
    trimChars (cs ++ after) = trimChars cs :=
  (trimmed_trimChars cs).trimChars_eq ((padded_trimChars cs).append_right h)

/-! ## Blanks between words -/

/-- One or more characters, none of them a blank. -/
def IsWord (word : List Char) : Prop := word ≠ [] ∧ ∀ c ∈ word, isBlank c = false

/-- A text of words with at least one blank between two of them. -/
inductive Spaced : List (List Char) → List Char → Prop where
  | blanks {gap : List Char} : Blanks gap → Spaced [] gap
  | last {gap word : List Char} : Blanks gap → IsWord word → Spaced [word] (gap ++ word)
  | word {gap word rest : List Char} {c : Char} {words : List (List Char)} : Blanks gap →
      IsWord word → isBlank c = true → Spaced words (c :: rest) →
      Spaced (word :: words) (gap ++ (word ++ c :: rest))

/-- A blank before words makes no other words. -/
theorem Spaced.cons_blank {words : List (List Char)} {cs : List Char} {c : Char}
    (h : Spaced words cs) (hc : isBlank c = true) : Spaced words (c :: cs) := by
  cases h with
  | blanks hgap => exact .blanks (hgap.cons hc)
  | last hgap hword => exact .last (hgap.cons hc) hword
  | word hgap hword hnext hrest => exact .word (hgap.cons hc) hword hnext hrest

theorem wordsFrom_blank {c : Char} (h : isBlank c = true) (cs : List Char) :
    wordsFrom [] (c :: cs) = wordsFrom [] cs := by
  rw [wordsFrom, if_pos h]
  rfl

/-- Blanks before a text make no difference to its words. -/
theorem wordsFrom_blanks {gap : List Char} (h : Blanks gap) (cs : List Char) :
    wordsFrom [] (gap ++ cs) = wordsFrom [] cs := by
  induction gap with
  | nil => rfl
  | cons c gap ih =>
    obtain ⟨hc, hgap⟩ := List.forall_mem_cons.mp h
    rw [List.cons_append, wordsFrom_blank hc, ih hgap]

/-- The characters of a word are put to what has been read of it. -/
theorem wordsFrom_append {word : List Char} (h : ∀ c ∈ word, isBlank c = false) :
    ∀ begun cs : List Char,
      wordsFrom begun (word ++ cs) = wordsFrom (word.reverse ++ begun) cs := by
  induction word with
  | nil => intro begun cs; rfl
  | cons c word ih =>
    obtain ⟨hc, hword⟩ := List.forall_mem_cons.mp h
    intro begun cs
    rw [List.cons_append, wordsFrom, if_neg (by rw [hc]; decide), ih hword, List.reverse_cons,
      List.append_assoc]
    rfl

/-- A word ends at the end of the text. -/
theorem wordsFrom_nil {begun : List Char} (h : begun ≠ []) :
    wordsFrom begun [] = [begun.reverse] := by
  rw [wordsFrom, if_neg (by simpa using h)]

/-- A word ends at a blank. -/
theorem wordsFrom_cons_blank {begun : List Char} {c : Char} (h : begun ≠ [])
    (hc : isBlank c = true) (cs : List Char) :
    wordsFrom begun (c :: cs) = begun.reverse :: wordsFrom [] cs := by
  rw [wordsFrom, if_pos hc, if_neg (by simpa using h)]

/-- Words with blanks between them are found. -/
theorem Spaced.wordsFrom_eq {words : List (List Char)} {cs : List Char} (h : Spaced words cs) :
    wordsFrom [] cs = words := by
  induction h with
  | @blanks gap hgap =>
    rw [← List.append_nil gap, wordsFrom_blanks hgap]
    rfl
  | @last gap word hgap hword =>
    rw [wordsFrom_blanks hgap, ← List.append_nil word, wordsFrom_append hword.2,
      wordsFrom_nil (by simpa using hword.1)]
    simp
  | word hgap hword hc hrest ih =>
    rw [wordsFrom_blank hc] at ih
    rw [wordsFrom_blanks hgap, wordsFrom_append hword.2,
      wordsFrom_cons_blank (by simpa using hword.1) hc, ih]
    simp

/-- The rest of a text is spaced by its words, and what has been read of a word is the start of the
first one. -/
theorem spaced_wordsFrom (cs : List Char) :
    Spaced (wordsFrom [] cs) cs ∧ ∀ begun, begun ≠ [] → (∀ c ∈ begun, isBlank c = false) →
      Spaced (wordsFrom begun cs) (begun.reverse ++ cs) := by
  induction cs with
  | nil =>
    refine ⟨.blanks blanks_nil, fun begun hne hbegun => ?_⟩
    rw [wordsFrom_nil hne, List.append_nil]
    exact .last blanks_nil
      ⟨by simpa using hne, fun c hc => hbegun c (List.mem_reverse.mp hc)⟩
  | cons c cs ih =>
    obtain ⟨ihfresh, ihbegun⟩ := ih
    by_cases hc : isBlank c = true
    · refine ⟨?_, fun begun hne hbegun => ?_⟩
      · rw [wordsFrom_blank hc]
        exact ihfresh.cons_blank hc
      · rw [wordsFrom_cons_blank hne hc]
        exact .word blanks_nil
          ⟨by simpa using hne, fun c hc => hbegun c (List.mem_reverse.mp hc)⟩ hc
          (ihfresh.cons_blank hc)
    · have hword : isBlank c = false := Bool.eq_false_iff.mpr hc
      refine ⟨?_, fun begun hne hbegun => ?_⟩
      · rw [wordsFrom, if_neg hc]
        exact ihbegun [c] (List.cons_ne_nil c []) (by simpa using hword)
      · rw [wordsFrom, if_neg hc]
        have hcons := ihbegun (c :: begun) (List.cons_ne_nil c begun)
          (List.forall_mem_cons.mpr ⟨hword, hbegun⟩)
        rwa [List.reverse_cons, List.append_assoc] at hcons

theorem map_toList_ofList (pieces : List (List Char)) :
    (pieces.map String.ofList).map String.toList = pieces := by
  simp [Function.comp_def]

theorem map_ofList_toList (texts : List String) :
    (texts.map String.toList).map String.ofList = texts := by
  simp [Function.comp_def]

/-- The words of a text are what makes it up with blanks between. -/
theorem words_eq_iff {words : List String} {s : String} :
    Text.words s = words ↔ Spaced (words.map String.toList) s.toList := by
  unfold Text.words
  constructor
  · rintro rfl
    rw [map_toList_ofList]
    exact (spaced_wordsFrom s.toList).1
  · intro h
    rw [h.wordsFrom_eq, map_ofList_toList]

end Text

end ExamPaper

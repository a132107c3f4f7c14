import ExamPaper.Proofs.Text.Pieces
import Mathlib.Data.List.Basic

/-!
# Replacing a pattern in a text

Replacing goes through the text once, from the left. A pattern at the front is replaced and passed
over (`replaceAll_pattern_append`), and a stretch in which no occurrence begins is kept
(`replaceAll_append`); these two say what becomes of any text, and at which of its `places` it is
replaced. All of this is about patterns that have some characters.

> A stretch is kept whatever stands around it if no pattern can reach into it: if none fits into it,
> across one of its ends, or around it (`Apart`). A stretch of some characters is apart from every
> pattern that shares none of them (`apart_of_disjoint`), and apart from a single character just if
> it does not have it (`apart_singleton_iff`).
-/

namespace ExamPaper

namespace Text

variable {pattern new : List Char}

/-! ## Replacing from the left -/

/-- What has been read only stands before the rest. -/
theorem replaceOnto_eq_append (p : Char) (pattern new : List Char) : ∀ (cs done : List Char)
    (skip : Nat), replaceOnto p pattern new done skip cs =
      done.reverse ++ replaceOnto p pattern new [] skip cs := by
  intro cs
  induction cs with
  | nil => intro done skip; exact (List.append_nil _).symm
  | cons c cs ih =>
    intro done skip
    cases skip with
    | succ skip => exact ih done skip
    | zero =>
      rw [replaceOnto, replaceOnto]
      split
      · rw [ih, ih (new.reverseAux []), List.reverseAux_eq, List.reverseAux_eq]
        simp
      · rw [ih, ih [c]]
        simp

/-- What is left of an occurrence is passed over. -/
theorem replaceOnto_skip (p : Char) (pattern new : List Char) : ∀ cs ds : List Char,
    replaceOnto p pattern new [] cs.length (cs ++ ds) = replaceOnto p pattern new [] 0 ds := by
  intro cs
  induction cs with
  | nil => intro ds; rfl
  | cons c cs ih => intro ds; exact ih ds

theorem replaceAll_nil (h : pattern ≠ []) (new : List Char) : replaceAll pattern new [] = [] := by
  cases pattern with
  | nil => exact absurd rfl h
  | cons p pattern => rfl

/-- A pattern is there to drop just if the text begins with it. -/
theorem isSome_dropPrefix?_iff {cs : List Char} :
    (dropPrefix? pattern cs).isSome = true ↔ pattern <+: cs := by
  rw [Option.isSome_iff_exists]
  constructor
  · rintro ⟨rest, h⟩
    exact ⟨rest, (dropPrefix?_eq_some_iff.mp h).symm⟩
  · rintro ⟨rest, h⟩
    exact ⟨rest, dropPrefix?_eq_some_iff.mpr h.symm⟩

/-- A character at which no occurrence begins is kept. -/
theorem replaceAll_cons {c : Char} {cs : List Char} (h : ¬ pattern <+: c :: cs) :
    replaceAll pattern new (c :: cs) = c :: replaceAll pattern new cs := by
  cases pattern with
  | nil => exact absurd List.nil_prefix h
  | cons p pattern =>
    show replaceOnto p pattern new [] 0 (c :: cs) = c :: replaceOnto p pattern new [] 0 cs
    rw [replaceOnto, if_neg (fun hsome => h (isSome_dropPrefix?_iff.mp hsome)),
      replaceOnto_eq_append]
    rfl

/-- An occurrence at the front is replaced, and what follows it is read from its end on. -/
theorem replaceAll_pattern_append (h : pattern ≠ []) (cs : List Char) :
    replaceAll pattern new (pattern ++ cs) = new ++ replaceAll pattern new cs := by
  cases pattern with
  | nil => exact absurd rfl h
  | cons p pattern =>
    show replaceOnto p pattern new [] 0 (p :: (pattern ++ cs)) =
      new ++ replaceOnto p pattern new [] 0 cs
    have hfront : p :: pattern <+: p :: (pattern ++ cs) := List.prefix_append (p :: pattern) cs
    rw [replaceOnto, if_pos (isSome_dropPrefix?_iff.mpr hfront), replaceOnto_eq_append,
      replaceOnto_skip, List.reverseAux_eq, List.append_nil, List.reverse_reverse]

/-- No occurrence of the pattern begins in the first of two stretches of a text. -/
def NoneBegins (pattern cs ds : List Char) : Prop :=
  ∀ before after, cs = before ++ after → after ≠ [] → ¬ pattern <+: after ++ ds

/-- No occurrence begins at the first character of such a stretch. -/
theorem NoneBegins.head {c : Char} {cs ds : List Char} (h : NoneBegins pattern (c :: cs) ds) :
    ¬ pattern <+: c :: (cs ++ ds) :=
  h [] (c :: cs) rfl (List.cons_ne_nil c cs)

theorem NoneBegins.tail {c : Char} {cs ds : List Char} (h : NoneBegins pattern (c :: cs) ds) :
    NoneBegins pattern cs ds :=
  fun before after hcs => h (c :: before) after (congrArg (c :: ·) hcs)

theorem noneBegins_nil (pattern ds : List Char) : NoneBegins pattern [] ds :=
  fun _ _ hnil hafter => absurd (List.append_eq_nil_iff.mp hnil.symm).2 hafter

theorem noneBegins_singleton {c : Char} {ds : List Char} (h : ¬ pattern <+: c :: ds) :
    NoneBegins pattern [c] ds := by
  intro before after hc hafter
  obtain ⟨rfl, rfl⟩ | ⟨rfl, rfl⟩ := List.append_eq_singleton_iff.mp hc.symm
  · exact h
  · exact absurd rfl hafter

/-- Either no occurrence begins in a stretch, or one begins there before all others. -/
theorem noneBegins_or_first (pattern cs ds : List Char) :
    NoneBegins pattern cs ds ∨ ∃ before after, cs = before ++ after ∧ after ≠ [] ∧
      NoneBegins pattern before (after ++ ds) ∧ pattern <+: after ++ ds := by
  induction cs with
  | nil => exact .inl (noneBegins_nil pattern ds)
  | cons c cs ih =>
    by_cases hhead : pattern <+: c :: (cs ++ ds)
    · exact .inr ⟨[], c :: cs, rfl, List.cons_ne_nil c cs, noneBegins_nil pattern _, hhead⟩
    have hcons : ∀ {before rest : List Char}, ¬ pattern <+: c :: (before ++ rest) →
        NoneBegins pattern before rest → NoneBegins pattern (c :: before) rest := by
      intro before rest hnot hbefore front after hfront hafter
      cases front with
      | nil =>
        rw [List.nil_append] at hfront
        rwa [← hfront]
      | cons d front => exact hbefore front after (List.cons.inj hfront).2 hafter
    rcases ih with hnone | ⟨before, after, rfl, hafter, hbefore, hfirst⟩
    · exact .inl (hcons hhead hnone)
    · refine .inr ⟨c :: before, after, rfl, hafter, hcons ?_ hbefore, hfirst⟩
      rwa [← List.append_assoc]

/-- A stretch in which no occurrence begins is kept. -/
theorem replaceAll_append {cs ds : List Char} (h : NoneBegins pattern cs ds) :
    replaceAll pattern new (cs ++ ds) = cs ++ replaceAll pattern new ds := by
  induction cs with
  | nil => rfl
  | cons c cs ih => rw [List.cons_append, replaceAll_cons h.head, ih h.tail, List.cons_append]

/-- A pattern that is replaced by itself leaves every text as it is. -/
theorem replaceAll_self (h : pattern ≠ []) (cs : List Char) :
    replaceAll pattern pattern cs = cs := by
  induction hlength : cs.length using Nat.strongRecOn generalizing cs with
  | ind n ih =>
    subst hlength
    by_cases hprefix : pattern <+: cs
    · obtain ⟨rest, rfl⟩ := hprefix
      have hpositive := List.length_pos_iff.mpr h
      rw [replaceAll_pattern_append h, ih rest.length (by rw [List.length_append]; omega) rest rfl]
    · cases cs with
      | nil => exact replaceAll_nil h pattern
      | cons c cs => rw [replaceAll_cons hprefix, ih cs.length (Nat.lt_succ_self _) cs rfl]

/-! ## Where a pattern is replaced -/

/-- The places at which a pattern is replaced, where `skip` characters of an occurrence that has
been replaced are passed over. -/
def placesFrom (pattern : List Char) : (place skip : Nat) → List Char → List Nat
  | _, _, [] => []
  | place, skip + 1, _ :: cs => placesFrom pattern (place + 1) skip cs
  | place, 0, c :: cs =>
    if pattern.isPrefixOf (c :: cs) then
      place :: placesFrom pattern (place + 1) (pattern.length - 1) cs
    else placesFrom pattern (place + 1) 0 cs

/-- The places at which a pattern, which has some characters, is replaced in a text: where it is
found from the left and without overlaps. The text itself begins at a place of its own. -/
def places (pattern : List Char) (place : Nat) (cs : List Char) : List Nat :=
  placesFrom pattern place 0 cs

/-- What is left of an occurrence has no places of its own. -/
theorem placesFrom_skip (pattern : List Char) : ∀ (cs ds : List Char) (place : Nat),
    placesFrom pattern place cs.length (cs ++ ds) =
      placesFrom pattern (place + cs.length) 0 ds := by
  intro cs
  induction cs with
  | nil => intro ds place; rfl
  | cons c cs ih =>
    intro ds place
    show placesFrom pattern (place + 1) cs.length (cs ++ ds) = _
    rw [ih, List.length_cons, Nat.add_assoc, Nat.add_comm 1]

/-- A character at which no occurrence begins is no place. -/
theorem places_cons {c : Char} {cs : List Char} (h : ¬ pattern <+: c :: cs) (place : Nat) :
    places pattern place (c :: cs) = places pattern (place + 1) cs := by
  unfold places
  rw [placesFrom, if_neg fun hprefix => h (List.isPrefixOf_iff_prefix.mp hprefix)]

/-- A stretch in which no occurrence begins has no places. -/
theorem places_append {cs ds : List Char} (h : NoneBegins pattern cs ds) (place : Nat) :
    places pattern place (cs ++ ds) = places pattern (place + cs.length) ds := by
  induction cs generalizing place with
  | nil => rfl
  | cons c cs ih =>
    rw [List.cons_append, places_cons h.head, ih h.tail, List.length_cons, Nat.add_assoc,
      Nat.add_comm 1]

/-- An occurrence at the front is replaced at its place, and what follows is read on from its end. -/
theorem places_pattern_append (h : pattern ≠ []) (cs : List Char) (place : Nat) :
    places pattern place (pattern ++ cs) = place :: places pattern (place + pattern.length) cs := by
  obtain ⟨p, rest, rfl⟩ := List.exists_cons_of_ne_nil h
  have hfront : (p :: rest).isPrefixOf (p :: (rest ++ cs)) = true :=
    List.isPrefixOf_iff_prefix.mpr (List.prefix_append (p :: rest) cs)
  unfold places
  rw [List.cons_append, placesFrom, if_pos hfront, List.length_cons, Nat.add_sub_cancel,
    placesFrom_skip, Nat.add_assoc, Nat.add_comm 1]

/-- A place of the text lies behind everything that stands before it. -/
theorem le_of_mem_places {pattern : List Char} : ∀ {cs : List Char} {place skip i : Nat},
    i ∈ placesFrom pattern place skip cs → place ≤ i
  | [], _, _, _, h => absurd h List.not_mem_nil
  | _ :: cs, place, skip + 1, i, h => by
    have hrest : i ∈ placesFrom pattern (place + 1) skip cs := h
    exact Nat.le_of_succ_le (le_of_mem_places hrest)
  | c :: cs, place, 0, i, h => by
    rw [placesFrom] at h
    split at h
    · rcases List.mem_cons.mp h with rfl | h
      · exact Nat.le_refl _
      · exact Nat.le_of_succ_le (le_of_mem_places h)
    · exact Nat.le_of_succ_le (le_of_mem_places h)

/-- Wherever a pattern is replaced, it stands in the text. -/
theorem exists_of_mem_places (h : pattern ≠ []) : ∀ {cs : List Char} {place i : Nat},
    i ∈ places pattern place cs →
      ∃ front rest, cs = front ++ pattern ++ rest ∧ i = place + front.length := by
  intro cs
  induction hlength : cs.length using Nat.strongRecOn generalizing cs with
  | ind n ih =>
    subst hlength
    intro place i hi
    by_cases hprefix : pattern <+: cs
    · obtain ⟨rest, rfl⟩ := hprefix
      rw [places_pattern_append h] at hi
      rcases List.mem_cons.mp hi with rfl | hi
      · exact ⟨[], rest, rfl, rfl⟩
      · have hpositive := List.length_pos_iff.mpr h
        obtain ⟨front, after, rfl, rfl⟩ :=
          ih rest.length (by rw [List.length_append]; omega) rfl hi
        refine ⟨pattern ++ front, after, by simp only [List.append_assoc], ?_⟩
        rw [List.length_append, Nat.add_assoc]
    · cases cs with
      | nil => exact absurd hi List.not_mem_nil
      | cons c cs =>
        rw [places_cons hprefix] at hi
        obtain ⟨front, rest, rfl, rfl⟩ := ih cs.length (Nat.lt_succ_self _) rfl hi
        refine ⟨c :: front, rest, rfl, ?_⟩
        rw [List.length_cons, Nat.add_assoc, Nat.add_comm 1]

/-- A pattern is replaced somewhere in every text that has it. -/
theorem places_ne_nil (h : pattern ≠ []) {cs : List Char} (hinside : pattern <:+: cs)
    (place : Nat) : places pattern place cs ≠ [] := by
  induction cs generalizing place with
  | nil => exact absurd (List.infix_nil.mp hinside) h
  | cons c cs ih =>
    by_cases hprefix : pattern <+: c :: cs
    · obtain ⟨rest, hrest⟩ := hprefix
      rw [← hrest, places_pattern_append h]
      exact List.cons_ne_nil _ _
    · rw [places_cons hprefix]
      exact ih ((List.infix_cons_iff.mp hinside).resolve_left hprefix) (place + 1)

/-! ## Stretches that no pattern reaches into -/

/-- Wherever the text stands, no occurrence of the pattern reaches into it: each ends before the
text begins, or begins after its end. -/
def Apart (cs pattern : List Char) : Prop :=
  ∀ before after front rest, before ++ cs ++ after = front ++ pattern ++ rest →
    (front ++ pattern).length ≤ before.length ∨ (before ++ cs).length ≤ front.length

/-- Only the characters of the first text are looked at, not all there are. -/
instance decidableDisjoint (cs ds : List Char) : Decidable (cs.Disjoint ds) :=
  @decidable_of_iff (cs.Disjoint ds) (∀ c ∈ cs, c ∉ ds)
    ⟨fun h c hc => h c hc, fun h c hc => @h c hc⟩ (List.decidableBAll (fun c => c ∉ ds) cs)

/-- A place that belongs to two stretches of one text holds a character of both. -/
theorem exists_mem_of_common_place {cs before after front rest : List Char} {i : Nat}
    (h : before ++ cs ++ after = front ++ pattern ++ rest)
    (hcs : before.length ≤ i ∧ i < (before ++ cs).length)
    (hpattern : front.length ≤ i ∧ i < (front ++ pattern).length) :
    ∃ c, c ∈ cs ∧ c ∈ pattern := by
  have hleft : (before ++ cs ++ after)[i]? = cs[i - before.length]? := by
    rw [List.getElem?_append_left hcs.2, List.getElem?_append_right hcs.1]
  have hright : (front ++ pattern ++ rest)[i]? = pattern[i - front.length]? := by
    rw [List.getElem?_append_left hpattern.2, List.getElem?_append_right hpattern.1]
  rw [List.length_append] at hcs
  have hplace : i - before.length < cs.length := by omega
  refine ⟨cs[i - before.length], List.getElem_mem hplace, ?_⟩
  refine List.mem_of_getElem? (i := i - front.length) ?_
  rw [← hright, ← h, hleft, List.getElem?_eq_getElem hplace]

/-- Two texts without a common character cannot reach into each other. -/
theorem apart_of_disjoint {cs : List Char} (hcs : cs ≠ []) (hpattern : pattern ≠ [])
    (h : cs.Disjoint pattern) : Apart cs pattern := by
  intro before after front rest heq
  have hcslength := List.length_pos_iff.mpr hcs
  have hlength := List.length_pos_iff.mpr hpattern
  by_contra hreach
  simp only [not_or, Nat.not_le, List.length_append] at hreach
  -- the later one of the two beginnings is a place of both
  obtain ⟨c, hc, hcpattern⟩ := exists_mem_of_common_place heq
    (i := max before.length front.length)
    (by rw [List.length_append]; omega) (by rw [List.length_append]; omega)
  exact h hc hcpattern

/-- A single character reaches into just the texts that have it. -/
theorem apart_singleton_iff {cs : List Char} {c : Char} : Apart cs [c] ↔ c ∉ cs := by
  constructor
  · intro h hmem
    obtain ⟨before, after, rfl⟩ := List.append_of_mem hmem
    have hreach := h [] [] before after (by simp)
    simp only [List.length_append, List.length_cons, List.length_nil] at hreach
    omega
  · intro h before after front rest heq
    by_contra hreach
    rw [not_or, Nat.not_le, Nat.not_le, List.length_append, List.length_singleton] at hreach
    obtain ⟨d, hd, hdc⟩ := exists_mem_of_common_place (i := front.length) heq
      ⟨by omega, hreach.2⟩ (by simp)
    exact h (List.mem_singleton.mp hdc ▸ hd)

/-- A pattern that reaches into a text does so between a beginning and an end of its own. -/
theorem exists_reach_of_not_apart {cs : List Char} (hpattern : pattern ≠ [])
    (h : ¬ Apart cs pattern) :
    ∃ lead tail, pattern <:+: lead ++ cs ++ tail ∧
      (lead <+: pattern ∧ lead.length < pattern.length) ∧
      (tail <:+ pattern ∧ tail.length < pattern.length) := by
  have hlength := List.length_pos_iff.mpr hpattern
  unfold Apart at h
  push Not at h
  obtain ⟨before, after, front, rest, heq, hbegins, hends⟩ := h
  -- what stands before both the text and the occurrence is left out first
  have hleft : ∃ lead mid, lead ++ cs ++ after = mid ++ pattern ++ rest ∧
      (lead <+: pattern ∧ lead.length < pattern.length) ∧ mid.length < (lead ++ cs).length := by
    rw [List.append_assoc, List.append_assoc] at heq
    rcases Nat.le_total front.length before.length with hle | hle
    · obtain ⟨lead, rfl⟩ := List.prefix_of_prefix_length_le (List.prefix_append _ _)
        (heq ▸ List.prefix_append before _) hle
      rw [List.append_assoc, List.append_cancel_left_eq] at heq
      rw [List.length_append, List.length_append] at hbegins
      have hshort : lead.length < pattern.length := by omega
      refine ⟨lead, [], ?_, ⟨?_, hshort⟩, ?_⟩
      · rw [List.append_assoc, heq]
        rfl
      · exact List.prefix_of_prefix_length_le (heq ▸ List.prefix_append lead _)
          (List.prefix_append pattern rest) (Nat.le_of_lt hshort)
      · simp only [List.length_append, List.length_nil] at hends ⊢
        omega
    · obtain ⟨mid, rfl⟩ := List.prefix_of_prefix_length_le (List.prefix_append _ _)
        (heq ▸ List.prefix_append front _) hle
      rw [List.append_assoc, List.append_cancel_left_eq] at heq
      rw [List.length_append, List.length_append] at hends
      exact ⟨[], mid, by simpa using heq, ⟨List.nil_prefix, hlength⟩, by simpa using hends⟩
  obtain ⟨lead, mid, heq, hlead, hmid⟩ := hleft
  rcases Nat.le_total rest.length after.length with hle | hle
  · obtain ⟨tail, rfl⟩ := List.suffix_of_suffix_length_le (heq ▸ List.suffix_append _ rest)
      (List.suffix_append _ after) hle
    rw [← List.append_assoc, List.append_cancel_right_eq] at heq
    have htotal : (lead ++ cs).length + tail.length = mid.length + pattern.length := by
      rw [← List.length_append, ← List.length_append, heq]
    have hshort : tail.length < pattern.length := by omega
    refine ⟨lead, tail, ⟨mid, [], by rw [List.append_nil, heq]⟩, hlead, ?_, hshort⟩
    exact List.suffix_of_suffix_length_le (heq ▸ List.suffix_append _ tail)
      (List.suffix_append mid pattern) (Nat.le_of_lt hshort)
  · obtain ⟨extra, rfl⟩ := List.suffix_of_suffix_length_le (heq ▸ List.suffix_append _ after)
      (List.suffix_append _ rest) hle
    rw [← List.append_assoc, List.append_cancel_right_eq] at heq
    exact ⟨lead, [], ⟨mid, extra, by rw [List.append_nil, heq]⟩, hlead, List.nil_suffix, hlength⟩

/-- No occurrence begins in a stretch that is apart from the pattern, whatever follows it. -/
theorem Apart.noneBegins {cs : List Char} (h : Apart cs pattern) (hpattern : pattern ≠ [])
    (ds : List Char) : NoneBegins pattern cs ds := by
  have hlength := List.length_pos_iff.mpr hpattern
  rintro before after rfl hafter ⟨rest, hrest⟩
  have hafterlength := List.length_pos_iff.mpr hafter
  have hreach := h [] ds before rest (by rw [List.nil_append, List.append_assoc, ← hrest]; simp)
  simp only [List.length_append, List.length_nil] at hreach
  omega

end Text

end ExamPaper

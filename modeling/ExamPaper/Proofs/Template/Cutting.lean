import ExamPaper.Proofs.Template.Restart

/-!
# Cutting a directive at its commas

A directive is cut at every comma, and pieces that end in an escape are joined to the next one. That
is reading the directive from the left, with a backslash taking the character after it along, and
cutting it at the commas that are left (`cutOnto`).

> The two give the same arguments for every text (`arguments_eq`).

Both agree on what a backslash does: a piece that is joined so far ends in an odd number of
backslashes just if the last of them escapes the comma (`endsInEscape_eq`).
-/

namespace ExamPaper

namespace Template

/-- The pieces of a text between the commas that are not escaped, where `piece` is what has been
read of the first one, latest character first. -/
def cutOnto (piece : List Char) : List Char → List (List Char)
  | [] => [piece.reverse]
  | '\\' :: c :: rest => cutOnto (c :: '\\' :: piece) rest
  | c :: rest =>
    if c = ',' then piece.reverse :: cutOnto [] rest else cutOnto (c :: piece) rest

/-- A character that is neither a backslash nor a comma belongs to the piece. -/
theorem cutOnto_cons {c : Char} (hescape : c ≠ '\\') (hcomma : c ≠ ',') (piece rest : List Char) :
    cutOnto piece (c :: rest) = cutOnto (c :: piece) rest := by
  rw [cutOnto, if_neg hcomma]
  rintro d ds rfl
  exact absurd rfl hescape

/-- A comma ends the piece. -/
theorem cutOnto_comma (piece rest : List Char) :
    cutOnto piece (',' :: rest) = piece.reverse :: cutOnto [] rest := by
  rw [cutOnto, if_pos rfl]
  rintro d ds h
  exact absurd h (by decide)

/-- Read from the left, with a backslash taking the character after it along, the text has neither a
comma of its own nor a backslash that waits for a character. -/
inductive Uncut : List Char → Prop where
  | done : Uncut []
  | escape {c : Char} {rest : List Char} : Uncut rest → Uncut ('\\' :: c :: rest)
  | character {c : Char} {rest : List Char} : c ≠ '\\' → c ≠ ',' → Uncut rest → Uncut (c :: rest)

/-- Texts that are not cut can be put together. -/
theorem Uncut.append {cs ds : List Char} (hcs : Uncut cs) (hds : Uncut ds) : Uncut (cs ++ ds) := by
  induction hcs with
  | done => exact hds
  | escape _ ih => exact ih.escape
  | character hescape hcomma _ ih => exact ih.character hescape hcomma

/-- Such a text is all in one piece, wherever it stands. -/
theorem Uncut.cutOnto_append {cs : List Char} (h : Uncut cs) : ∀ piece rest : List Char,
    cutOnto piece (cs ++ rest) = cutOnto (cs.reverse ++ piece) rest := by
  induction h with
  | done => intro piece rest; rfl
  | @escape c cs _ ih =>
    intro piece rest
    rw [List.cons_append, List.cons_append, cutOnto, ih]
    simp
  | @character c cs hescape hcomma _ ih =>
    intro piece rest
    rw [List.cons_append, cutOnto_cons hescape hcomma, ih]
    simp

/-! ## Backslashes at the end of a piece -/

/-- A text ends in an odd number of backslashes just if the last of them escapes. -/
theorem endsInEscape_eq (cs : List Char) : endsInEscape cs = escapes cs.reverse := by
  unfold endsInEscape
  induction cs.reverse with
  | nil => rfl
  | cons c before ih =>
    by_cases hc : c = '\\'
    · subst hc
      rw [List.takeWhile_cons_of_pos (by simp), List.length_cons, escapes, ← ih]
      generalize (before.takeWhile (· = '\\')).length = n
      rcases Nat.mod_two_eq_zero_or_one n with h | h <;> simp [Nat.add_mod, h]
    · rw [List.takeWhile_cons_of_neg (by simpa using hc), escapes_cons hc]
      rfl

/-! ## Cutting and joining is reading from the left -/

/-- What has been read since the last cut, latest character first: the piece and the one that waits
for it. -/
def sinceCut : (held : Option (List Char)) → List Char → List Char
  | none, piece => piece
  | some held, piece => piece ++ ',' :: held.reverse

/-- A character of the piece comes after what is held back. -/
theorem sinceCut_cons (held : Option (List Char)) (c : Char) (piece : List Char) :
    sinceCut held (c :: piece) = c :: sinceCut held piece := by
  cases held <;> rfl

/-- A piece that ends in a backslash is held back and joined with the next one. -/
theorem joinEscaped_cons (held : Option (List Char)) (piece : List Char)
    (pieces : List (List Char)) : joinEscaped held (piece.reverse :: pieces) =
      if escapes (sinceCut held piece) then joinEscaped (some (sinceCut held piece).reverse) pieces
      else (sinceCut held piece).reverse :: joinEscaped none pieces := by
  cases held with
  | none =>
    rw [joinEscaped, endsInEscape_eq, List.reverse_reverse]
    rfl
  | some held =>
    have hread : held ++ ',' :: piece.reverse = (sinceCut (some held) piece).reverse := by
      simp [sinceCut]
    rw [joinEscaped, hread, endsInEscape_eq, List.reverse_reverse]

/-- The last piece is kept, whether it ends in an escape or not. -/
theorem joinEscaped_last (held : Option (List Char)) (piece : List Char) :
    joinEscaped held [piece.reverse] = [(sinceCut held piece).reverse] := by
  rw [joinEscaped_cons]
  split <;> rfl

/-- A piece that ends in an escape waits for the one after the comma, and goes on with the comma. -/
theorem joinEscaped_escaped {held : Option (List Char)} {piece : List Char}
    (hread : escapes (sinceCut held piece) = false) (rest : List Char) :
    ∃ waiting, joinEscaped held (Text.splitOnto ',' ('\\' :: piece) (',' :: rest)) =
        joinEscaped (some waiting) (Text.splitOnto ',' [] rest) ∧
      sinceCut (some waiting) [] = ',' :: '\\' :: sinceCut held piece := by
  have hwaits : escapes (sinceCut held ('\\' :: piece)) = true := by
    rw [sinceCut_cons, escapes, hread]
    rfl
  refine ⟨(sinceCut held ('\\' :: piece)).reverse, ?_, ?_⟩
  · rw [Text.splitOnto, if_pos rfl, joinEscaped_cons, hwaits, if_pos rfl]
  · rw [sinceCut_cons]
    simp [sinceCut]

/-- Wherever no escape is pending, cutting at every comma and joining goes on as reading from the
left does. -/
theorem joinEscaped_splitOnto : ∀ (rest : List Char) {held : Option (List Char)}
    {piece : List Char}, escapes (sinceCut held piece) = false →
      joinEscaped held (Text.splitOnto ',' piece rest) = cutOnto (sinceCut held piece) rest
  | [], held, piece, _ => by
    rw [Text.splitOnto, joinEscaped_last, cutOnto]
  | c :: rest, held, piece, hread => by
    by_cases hescape : c = '\\'
    · subst hescape
      rw [Text.splitOnto, if_neg (by decide)]
      cases rest with
      | nil =>
        rw [Text.splitOnto, joinEscaped_last, sinceCut_cons]
        rfl
      | cons d rest =>
        -- the two characters are read as one, a comma among them
        have hpair : escapes (d :: '\\' :: sinceCut held piece) = false := escapes_escape hread d
        rw [cutOnto]
        by_cases hcomma : d = ','
        · subst hcomma
          obtain ⟨waiting, hwaiting, hread'⟩ := joinEscaped_escaped hread rest
          rw [← hread'] at hpair
          rw [hwaiting, joinEscaped_splitOnto rest hpair, hread']
        · rw [← sinceCut_cons, ← sinceCut_cons] at hpair
          rw [Text.splitOnto, if_neg hcomma, joinEscaped_splitOnto rest hpair, sinceCut_cons,
            sinceCut_cons]
    by_cases hcomma : c = ','
    · subst hcomma
      have hnone : escapes (sinceCut none []) = false := rfl
      rw [Text.splitOnto, if_pos rfl, joinEscaped_cons, hread, cutOnto_comma, if_neg (by decide),
        joinEscaped_splitOnto rest hnone]
      rfl
    · have hnext : escapes (sinceCut held (c :: piece)) = false := by
        rw [sinceCut_cons]
        exact escapes_cons hescape _
      rw [Text.splitOnto, if_neg hcomma, joinEscaped_splitOnto rest hnext, sinceCut_cons,
        cutOnto_cons hescape hcomma]
  termination_by rest => rest.length

/-- The arguments of a directive are what reading it from the left cuts it into. -/
theorem arguments_eq (body : List Char) : arguments body = cutOnto [] body := by
  have hnone : escapes (sinceCut none []) = false := rfl
  exact joinEscaped_splitOnto body hnone

end Template

end ExamPaper

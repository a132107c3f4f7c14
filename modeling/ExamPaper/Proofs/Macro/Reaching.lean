import ExamPaper.Proofs.Macro.Applying

/-!
# Arguments that are safe in every body

Whether a parameter disturbs an argument depends on the body that the argument is put into. It
cannot if no occurrence of the parameter reaches into the argument in any text (`Text.Apart`).

> If each argument is apart from the later parameters, or its own parameter does not stand in the
> body, all arguments appear as they are (`apply_of_apart`). An argument that is not apart from the
> second of two parameters is disturbed in some body (`verbatim_pair_iff`); from a parameter of one
> letter, just those arguments are safe that do not have the letter (`verbatim_pair_singleton_iff`).
-/

namespace ExamPaper

namespace MacroDefinition

section

variable {params args : List String} {bound : List (String × String)} {p : String} {cs : List Char}
  {parts : List BodyPart} {place : Nat}

/-! ## Apart from later parameters -/

/-- The argument of a part lies between what stands before the part and what stands behind it. -/
theorem mem_argumentSpans_iff {span : Nat × Nat} : span ∈ argumentSpans bound place parts ↔
    ∃ before part after, parts = before ++ part :: after ∧ part.isArgument bound = true ∧
      span = (place + (filled bound before).length,
        place + (filled bound before ++ part.text bound).length) := by
  induction parts generalizing place with
  | nil => simp [argumentSpans]
  | cons part parts ih =>
    rw [mem_argumentSpans_cons, ih]
    constructor
    · rintro (⟨hpart, rfl⟩ | ⟨before, other, after, rfl, hother, rfl⟩)
      · exact ⟨[], part, parts, rfl, hpart, rfl⟩
      · refine ⟨part :: before, other, after, rfl, hother, ?_⟩
        rw [filled_cons]
        simp only [List.length_append, Nat.add_assoc]
    · rintro ⟨before, other, after, hparts, hother, rfl⟩
      cases before with
      | nil =>
        obtain ⟨rfl, rfl⟩ := List.cons.inj hparts
        exact .inl ⟨hother, rfl⟩
      | cons first before =>
        obtain ⟨rfl, rfl⟩ := List.cons.inj hparts
        refine .inr ⟨before, other, after, rfl, hother, ?_⟩
        rw [filled_cons]
        simp only [List.length_append, Nat.add_assoc]

/-- Where nothing is filled in there is nothing to spare. -/
theorem spares_unbound (p : String) (place : Nat) (parts : List BodyPart) :
    Spares p [] place parts := by
  intro i _ span hspan
  obtain ⟨_, part, _, _, hpart, _⟩ := mem_argumentSpans_iff.mp hspan
  cases part <;> exact absurd hpart Bool.false_ne_true

/-- A parameter spares the arguments that are apart from it. -/
theorem spares_of_apart (hp : p.toList ≠ [])
    (h : ∀ q arg, .parameter q ∈ parts → bound.lookup q = some arg →
      Text.Apart arg.toList p.toList) : Spares p bound place parts := by
  intro i hi span hspan
  obtain ⟨front, rest, htext, rfl⟩ := Text.exists_of_mem_places hp hi
  obtain ⟨before, part, after, rfl, hpart, rfl⟩ := mem_argumentSpans_iff.mp hspan
  cases part with
  | char c => exact absurd hpart Bool.false_ne_true
  | parameter q =>
    obtain ⟨arg, harg⟩ := Option.isSome_iff_exists.mp hpart
    have hargument : (BodyPart.parameter q).text bound = arg.toList := by
      rw [BodyPart.text, harg]
      rfl
    have hfilled : filled bound (before ++ .parameter q :: after) =
        filled bound before ++ arg.toList ++ filled bound after := by
      unfold filled
      rw [List.flatMap_append, List.flatMap_cons, hargument, List.append_assoc]
    have hreach := h q arg (by simp) harg _ _ front rest (hfilled.symm.trans htext)
    simp only [List.length_append, hargument] at hreach ⊢
    omega

/-- A parameter among the parts of a body stands in the body. -/
theorem isInfix_of_parameter_mem (h : Reads params cs parts) (hp : .parameter p ∈ parts) :
    p.toList <:+: cs := by
  induction h with
  | nil => exact absurd hp List.not_mem_nil
  | char _ _ ih =>
    rcases List.mem_cons.mp hp with heq | hrest
    · exact absurd heq (by simp)
    · exact (ih hrest).trans (List.suffix_cons _ _).isInfix
  | parameter _ _ ih =>
    rcases List.mem_cons.mp hp with heq | hrest
    · obtain rfl := BodyPart.parameter.inj heq
      exact (List.prefix_append _ _).isInfix
    · exact (ih hrest).trans (List.suffix_append _ _).isInfix

/-- Arguments that are apart from the later parameters are not disturbed. -/
theorem undisturbed_of_apart : ∀ (rest bound : List (String × String)),
    (∀ b ∈ rest, b.1.toList ≠ []) →
    ((bound ++ rest).Pairwise fun b later =>
      .parameter b.1 ∈ parts → Text.Apart b.2.toList later.1.toList) →
    Undisturbed parts bound rest
  | [], _, _, _ => trivial
  | (p, arg) :: rest, bound, hne, hapart => by
    obtain ⟨hp, hrest⟩ := List.forall_mem_cons.mp hne
    refine ⟨.inr (spares_of_apart hp ?_), undisturbed_of_apart rest _ hrest ?_⟩
    · intro q other hq hother
      obtain ⟨before, after, rfl, -⟩ := List.lookup_eq_some_iff.mp hother
      exact (List.pairwise_append.mp hapart).2.2 (q, other) (by simp) (p, arg)
        List.mem_cons_self hq
    · rwa [List.append_assoc]

/-- If the argument of every parameter that stands in the body is apart from the later parameters,
the arguments appear as they are. -/
theorem apply_of_apart {body : String} (hparams : Separate params)
    (hlength : params.length = args.length)
    (hapart : (params.zip args).Pairwise fun b later =>
      b.1.toList <:+: body.toList → Text.Apart b.2.toList later.1.toList) (name : String) :
    (parametric name params body).apply args = .ok (verbatim params args body) := by
  refine apply_of_undisturbed hparams hlength (undisturbed_of_apart _ [] ?_ ?_) name
  · exact fun b hb => hparams.toList_ne_nil (List.of_mem_zip hb).1
  · exact hapart.imp fun h hp => h (isInfix_of_parameter_mem (reads_bodyParts hparams body) hp)

end

/-! ## Two parameters -/

/-- A text is read in one way only. -/
theorem Reads.bodyPartsFrom_eq {params : List String} (hparams : Separate params) {cs : List Char}
    {parts : List BodyPart} (h : Reads params cs parts) : bodyPartsFrom params 0 cs = parts := by
  induction h with
  | nil => rfl
  | @char c cs parts hnone _ ih =>
    have hfind : params.find? (fun p => p.toList.isPrefixOf (c :: cs)) = none := by
      refine List.find?_eq_none.mpr fun p hp hprefix => hnone p hp ?_
      exact List.isPrefixOf_iff_prefix.mp hprefix
    rw [bodyPartsFrom, hfind]
    exact congrArg (.char c :: ·) ih
  | @parameter p cs parts hp _ ih =>
    obtain ⟨c, ds, hd⟩ := List.exists_cons_of_ne_nil (hparams.toList_ne_nil hp)
    have hfind : params.find? (fun q => q.toList.isPrefixOf (c :: (ds ++ cs))) = some p := by
      cases hfound : params.find? fun q => q.toList.isPrefixOf (c :: (ds ++ cs)) with
      | none =>
        refine absurd (List.isPrefixOf_iff_prefix.mpr ?_) (List.find?_eq_none.mp hfound p hp)
        rw [hd]
        exact List.prefix_append (c :: ds) cs
      | some q =>
        -- the parameter that is found begins with the first character of the one that is there
        have hq := List.mem_of_find?_eq_some hfound
        have hprefix := List.find?_some hfound
        obtain ⟨d, es, he⟩ := List.exists_cons_of_ne_nil (hparams.toList_ne_nil hq)
        rw [List.isPrefixOf_iff_prefix, he] at hprefix
        obtain ⟨rfl, -⟩ := List.cons_prefix_cons.mp hprefix
        by_contra hne
        have hdisjoint := hparams.disjoint_of_ne hq hp fun heq => hne (congrArg some heq)
        exact hdisjoint (he ▸ List.mem_cons_self) (hd ▸ List.mem_cons_self)
    rw [hd, List.cons_append, bodyPartsFrom, hfind]
    dsimp only
    rw [bodyPartsFrom_eq_drop, hd, List.length_cons, Nat.add_sub_cancel, List.drop_left, ih]

/-- Characters at which no parameter begins are read as they are. -/
theorem Reads.append_chars {params : List String} {rest : List Char} {parts : List BodyPart}
    (hrest : Reads params rest parts) : ∀ {cs : List Char},
      (∀ before after, cs = before ++ after → after ≠ [] →
        ∀ p ∈ params, ¬ p.toList <+: after ++ rest) →
      Reads params (cs ++ rest) (cs.map .char ++ parts)
  | [], _ => hrest
  | c :: cs, h => by
    refine .char (h [] (c :: cs) rfl (List.cons_ne_nil c cs)) (hrest.append_chars ?_)
    intro before after hcs
    exact h (c :: before) after (congrArg (c :: ·) hcs)

section

variable {p q arg : String} {lead tail : List Char}

theorem Separate.disjoint_pair (h : Separate [p, q]) : p.toList.Disjoint q.toList :=
  List.rel_of_pairwise_cons h.disjoint List.mem_cons_self

/-- A parameter does not begin with a character of another one. -/
theorem Separate.not_prefix (h : Separate [p, q]) {c : Char} {cs : List Char}
    (hc : c ∈ q.toList) : ¬ p.toList <+: c :: cs := by
  obtain ⟨d, ds, hd⟩ := List.exists_cons_of_ne_nil (h.toList_ne_nil List.mem_cons_self)
  intro hprefix
  rw [hd] at hprefix
  obtain ⟨rfl, -⟩ := List.cons_prefix_cons.mp hprefix
  exact h.disjoint_pair (hd ▸ List.mem_cons_self) hc

/-- A parameter between a beginning and an end of another one is read as just that. -/
theorem reads_between (h : Separate [p, q])
    (hlead : lead <+: q.toList ∧ lead.length < q.toList.length)
    (htail : tail <:+ q.toList ∧ tail.length < q.toList.length) :
    Reads [p, q] (lead ++ (p.toList ++ tail))
      (lead.map .char ++ .parameter p :: tail.map .char) := by
  have hend : Reads [p, q] tail (tail.map .char) := by
    suffices hread : Reads [p, q] (tail ++ []) (tail.map .char ++ []) by simpa using hread
    refine Reads.append_chars .nil ?_
    intro before after heq hafter
    subst heq
    rw [List.append_nil]
    refine List.forall_mem_cons.mpr ⟨?_, List.forall_mem_singleton.mpr fun hprefix => ?_⟩
    · obtain ⟨c, after, rfl⟩ := List.exists_cons_of_ne_nil hafter
      exact h.not_prefix (htail.1.subset (by simp))
    · have hle := hprefix.length_le
      rw [List.length_append] at htail
      omega
  refine Reads.append_chars (.parameter List.mem_cons_self hend) ?_
  intro before after heq hafter
  subst heq
  have hmem : ∀ c ∈ after, c ∈ q.toList :=
    fun c hc => hlead.1.subset (List.mem_append_right before hc)
  refine List.forall_mem_cons.mpr ⟨?_, List.forall_mem_singleton.mpr fun hprefix => ?_⟩
  · obtain ⟨c, after, rfl⟩ := List.exists_cons_of_ne_nil hafter
    exact h.not_prefix (hmem c List.mem_cons_self)
  · -- the other parameter would go on with the first character of this one
    rw [List.length_append] at hlead
    obtain ⟨rest, hrest⟩ := List.prefix_of_prefix_length_le (List.prefix_append after _) hprefix
      (by omega)
    obtain ⟨c, cs, hc⟩ := List.exists_cons_of_ne_nil (h.toList_ne_nil List.mem_cons_self)
    rw [← hrest, List.prefix_append_right_inj, hc] at hprefix
    cases rest with
    | nil =>
      rw [List.append_nil] at hrest
      rw [hrest] at hlead
      omega
    | cons d rest =>
      obtain ⟨rfl, -⟩ := List.cons_prefix_cons.mp hprefix
      exact h.disjoint_pair (hc ▸ List.mem_cons_self) (hrest ▸ by simp)

/-- Characters are not replaced. -/
theorem filled_map_char (bound : List (String × String)) (cs : List Char) :
    filled bound (cs.map .char) = cs := by
  induction cs with
  | nil => rfl
  | cons c cs ih => exact congrArg (c :: ·) ih

/-- An argument that the second of two parameters can reach into is disturbed in some body. -/
theorem exists_not_spares (h : Separate [p, q]) (hreach : ¬ Text.Apart arg.toList q.toList) :
    ∃ body, ¬ Spares q [(p, arg)] 0 (bodyParts [p, q] body) := by
  have hq : q.toList ≠ [] := h.toList_ne_nil (by simp)
  obtain ⟨lead, tail, hinside, hlead, htail⟩ := Text.exists_reach_of_not_apart hq hreach
  have hparts : bodyParts [p, q] (String.ofList (lead ++ (p.toList ++ tail))) =
      lead.map .char ++ .parameter p :: tail.map .char := by
    unfold bodyParts
    rw [String.toList_ofList]
    exact (reads_between h hlead htail).bodyPartsFrom_eq h
  have hbound : [(p, arg)].lookup p = some arg := List.lookup_cons_self
  have hargument : (BodyPart.parameter p).text [(p, arg)] = arg.toList := by
    rw [BodyPart.text, hbound]
    rfl
  have hfilled : filled [(p, arg)] (lead.map .char ++ .parameter p :: tail.map .char) =
      lead ++ arg.toList ++ tail := by
    unfold filled
    rw [List.flatMap_append, List.flatMap_cons, hargument, ← filled, ← filled, filled_map_char,
      filled_map_char, List.append_assoc]
  refine ⟨String.ofList (lead ++ (p.toList ++ tail)), fun hspares => ?_⟩
  rw [hparts] at hspares
  -- wherever the parameter is found, there is too little before and behind the argument for it
  obtain ⟨i, hi⟩ := List.exists_mem_of_ne_nil _ (Text.places_ne_nil hq hinside 0)
  obtain ⟨front, rest, htext, rfl⟩ := Text.exists_of_mem_places hq hi
  have hspan : (lead.length, (lead ++ arg.toList).length) ∈
      argumentSpans [(p, arg)] 0 (lead.map .char ++ .parameter p :: tail.map .char) := by
    refine mem_argumentSpans_iff.mpr ⟨_, _, _, rfl, ?_, ?_⟩
    · rw [BodyPart.isArgument, hbound]
      rfl
    · rw [filled_map_char, hargument, Nat.zero_add, Nat.zero_add]
  have hends := hspares _ (by rwa [hfilled]) _ hspan
  have hlength := congrArg List.length htext
  simp only [List.length_append] at hends hlength
  omega

/-- **For two parameters, safe in every body is apart.** Whatever the body and the second argument
are, both arguments appear as they are just if the second parameter can reach into no text that the
first argument stands in. -/
theorem verbatim_pair_iff (h : Separate [p, q]) :
    (∀ name body other, (parametric name [p, q] body).apply [arg, other] =
      .ok (verbatim [p, q] [arg, other] body)) ↔ Text.Apart arg.toList q.toList := by
  constructor
  · intro hall
    by_contra hreach
    obtain ⟨body, hbody⟩ := exists_not_spares h hreach
    have hfirst : Undisturbed (bodyParts [p, q] body) [] [(p, arg)] :=
      ⟨.inr (spares_unbound p 0 _), trivial⟩
    exact hbody ((@verbatim_concat_iff [p] [arg] q body h rfl hfirst).mp
      fun name last => hall name body last)
  · intro hapart name body other
    have hlength : [p, q].length = [arg, other].length := rfl
    refine apply_of_apart h hlength ?_ name
    simp [hapart]

end

/-- From a parameter of one letter just those arguments are safe that do not have the letter. -/
theorem verbatim_pair_singleton_iff {p arg : String} {c : Char}
    (h : Separate [p, String.singleton c]) :
    (∀ name body other, (parametric name [p, String.singleton c] body).apply [arg, other] =
      .ok (verbatim [p, String.singleton c] [arg, other] body)) ↔ c ∉ arg.toList := by
  rw [verbatim_pair_iff h, String.toList_singleton, Text.apart_singleton_iff]

end MacroDefinition

end ExamPaper

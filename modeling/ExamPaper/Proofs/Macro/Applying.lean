import ExamPaper.Macro.Definition
import ExamPaper.Proofs.Text.Replacing
import Mathlib.Data.List.Pairwise

/-!
# What a macro with parameters stands for

A body is read as characters and parameters (`bodyParts`), in one way only if no two parameters have
a character in common (`Separate`). Applying the macro puts the argument of one parameter after
another in place of that parameter; the text in between is the body with the parameters so far
filled in (`filled`), and a parameter is replaced wherever it is found there, also where it is not a
parameter of the body.

> If every parameter, wherever it is replaced, spares the arguments that stand in the text by then
> (`Undisturbed`), the parameters in the body are replaced by their arguments, and the arguments
> appear as they are (`apply_verbatim`). An argument that has a later parameter in it is taken for a
> part of the body (`apply_argument_replaced`).

The condition is about the text at hand, and it is exact: a parameter spares the arguments before it
just if its own argument is filled in, whatever that is (`spares_iff`, `verbatim_concat_iff`).
-/

namespace ExamPaper

namespace MacroDefinition

/-- What a body is made of: parameters, and characters at which no parameter begins. -/
inductive BodyPart where
  | char (c : Char)
  | parameter (name : String)
  deriving DecidableEq, Repr

/-- Names that can be told apart wherever they stand: none is empty, and no two of them have a
character in common. -/
structure Separate (params : List String) : Prop where
  ne_empty : ∀ p ∈ params, p ≠ ""
  disjoint : params.Pairwise fun p q => p.toList.Disjoint q.toList

instance (params : List String) : Decidable (Separate params) :=
  decidable_of_iff ((∀ p ∈ params, p ≠ "") ∧
      params.Pairwise fun p q => p.toList.Disjoint q.toList)
    ⟨fun h => ⟨h.1, h.2⟩, fun h => ⟨h.ne_empty, h.disjoint⟩⟩

/-- The parts of a body from some point on, where `skip` characters of a parameter that has been
read are passed over. -/
def bodyPartsFrom (params : List String) : (skip : Nat) → List Char → List BodyPart
  | _, [] => []
  | skip + 1, _ :: cs => bodyPartsFrom params skip cs
  | 0, c :: cs =>
    match params.find? fun p => p.toList.isPrefixOf (c :: cs) with
    | some p => .parameter p :: bodyPartsFrom params (p.toList.length - 1) cs
    | none => .char c :: bodyPartsFrom params 0 cs

/-- The parts of a body, read from the left. -/
def bodyParts (params : List String) (body : String) : List BodyPart :=
  bodyPartsFrom params 0 body.toList

/-- The text of a part under arguments for some of the parameters; the others stand for
themselves. -/
def BodyPart.text (bound : List (String × String)) : BodyPart → List Char
  | char c => [c]
  | parameter p => ((bound.lookup p).getD p).toList

/-- The text of parts under arguments for some of the parameters. -/
def filled (bound : List (String × String)) (parts : List BodyPart) : List Char :=
  parts.flatMap (BodyPart.text bound)

/-- The body with every parameter in it replaced by its argument, and nothing else changed. -/
def verbatim (params args : List String) (body : String) : String :=
  String.ofList (filled (params.zip args) (bodyParts params body))

/-! ## Reading a body -/

/-- A text is read as parts: a parameter wherever one begins, and a character anywhere else. -/
inductive Reads (params : List String) : List Char → List BodyPart → Prop where
  | nil : Reads params [] []
  | char {c : Char} {cs : List Char} {parts : List BodyPart}
      (hnone : ∀ p ∈ params, ¬ p.toList <+: c :: cs) (hrest : Reads params cs parts) :
      Reads params (c :: cs) (.char c :: parts)
  | parameter {p : String} {cs : List Char} {parts : List BodyPart} (hp : p ∈ params)
      (hrest : Reads params cs parts) : Reads params (p.toList ++ cs) (.parameter p :: parts)

theorem Separate.toList_ne_nil {params : List String} (h : Separate params) {p : String}
    (hp : p ∈ params) : p.toList ≠ [] :=
  fun hnil => h.ne_empty p hp (String.toList_eq_nil_iff.mp hnil)

/-- Names that can be told apart are different. -/
theorem Separate.nodup {params : List String} (h : Separate params) : params.Nodup := by
  refine h.disjoint.imp_of_mem ?_
  intro p q hp _ hdisjoint heq
  subst heq
  obtain ⟨c, hc⟩ := List.exists_mem_of_ne_nil p.toList (h.toList_ne_nil hp)
  exact hdisjoint hc hc

theorem Separate.disjoint_of_ne {params : List String} (h : Separate params) {p q : String}
    (hp : p ∈ params) (hq : q ∈ params) (hne : p ≠ q) : p.toList.Disjoint q.toList := by
  have hsymm : Std.Symm fun p q : String => p.toList.Disjoint q.toList :=
    ⟨fun _ _ h => List.disjoint_symm h⟩
  exact h.disjoint.forall hp hq hne

/-- Passing characters over is dropping them. -/
theorem bodyPartsFrom_eq_drop (params : List String) : ∀ (skip : Nat) (cs : List Char),
    bodyPartsFrom params skip cs = bodyPartsFrom params 0 (cs.drop skip)
  | 0, _ => rfl
  | _ + 1, [] => by rw [bodyPartsFrom, List.drop_nil, bodyPartsFrom]
  | skip + 1, _ :: cs => bodyPartsFrom_eq_drop params skip cs

/-- Every text is read as its parts. -/
theorem reads_bodyPartsFrom {params : List String} (h : Separate params) (cs : List Char) :
    Reads params cs (bodyPartsFrom params 0 cs) := by
  -- on the length of the text, since a parameter takes up several characters at once
  induction hlength : cs.length using Nat.strongRecOn generalizing cs with
  | ind n ih =>
    cases cs with
    | nil => exact .nil
    | cons c cs =>
      rw [bodyPartsFrom]
      split
      · rename_i p hfound
        have hp : p ∈ params := List.mem_of_find?_eq_some hfound
        have hprefix := List.find?_some hfound
        obtain ⟨rest, hrest⟩ := List.isPrefixOf_iff_prefix.mp hprefix
        obtain ⟨d, ds, hd⟩ := List.exists_cons_of_ne_nil (h.toList_ne_nil hp)
        rw [hd, List.cons_append] at hrest
        obtain ⟨rfl, rfl⟩ := List.cons.inj hrest
        have hshort : rest.length < n := by
          rw [← hlength]
          simp only [List.length_cons, List.length_append]
          omega
        rw [bodyPartsFrom_eq_drop, hd, List.length_cons, Nat.add_sub_cancel, List.drop_left,
          ← List.cons_append, ← hd]
        exact .parameter hp (ih rest.length hshort rest rfl)
      · rename_i hfound
        refine .char ?_ (ih cs.length (by rw [← hlength]; exact Nat.lt_succ_self _) cs rfl)
        intro p hp hprefix
        exact List.find?_eq_none.mp hfound p hp (List.isPrefixOf_iff_prefix.mpr hprefix)

theorem reads_bodyParts {params : List String} (h : Separate params) (body : String) :
    Reads params body.toList (bodyParts params body) :=
  reads_bodyPartsFrom h body.toList

/-! ## What a parameter spares -/

/-- Whether the part stands for an argument that is filled in. -/
def BodyPart.isArgument (bound : List (String × String)) : BodyPart → Bool
  | char _ => false
  | parameter p => (bound.lookup p).isSome

/-- Where the arguments that are filled in begin and end, in a text that begins at some place. -/
def argumentSpans (bound : List (String × String)) : (place : Nat) → List BodyPart →
    List (Nat × Nat)
  | _, [] => []
  | place, part :: parts =>
    let stop := place + (part.text bound).length
    let later := argumentSpans bound stop parts
    if part.isArgument bound then (place, stop) :: later else later

/-- Wherever the parameter is replaced, it ends before each argument that is filled in or begins
after it. -/
def Spares (p : String) (bound : List (String × String)) (place : Nat) (parts : List BodyPart) :
    Prop :=
  ∀ i ∈ Text.places p.toList place (filled bound parts), ∀ span ∈ argumentSpans bound place parts,
    i + p.toList.length ≤ span.1 ∨ span.2 ≤ i

instance (p : String) (bound : List (String × String)) (place : Nat) (parts : List BodyPart) :
    Decidable (Spares p bound place parts) :=
  inferInstanceAs (Decidable (∀ i ∈ Text.places p.toList place (filled bound parts),
    ∀ span ∈ argumentSpans bound place parts, i + p.toList.length ≤ span.1 ∨ span.2 ≤ i))

/-- Each parameter in turn spares the arguments that were filled in before it, or is replaced by
itself. -/
def Undisturbed (parts : List BodyPart) : (bound rest : List (String × String)) → Prop
  | _, [] => True
  | bound, (p, arg) :: rest =>
    (p = arg ∨ Spares p bound 0 parts) ∧ Undisturbed parts (bound ++ [(p, arg)]) rest

instance decidableUndisturbed (parts : List BodyPart) : ∀ bound rest : List (String × String),
    Decidable (Undisturbed parts bound rest)
  | _, [] => .isTrue trivial
  | bound, (p, arg) :: rest =>
    @instDecidableAnd _ _ _ (decidableUndisturbed parts (bound ++ [(p, arg)]) rest)

section

variable {params : List String} {bound : List (String × String)} {p arg : String} {cs : List Char}
  {part : BodyPart} {parts : List BodyPart} {place : Nat} {span : Nat × Nat}

theorem filled_cons (bound : List (String × String)) (part : BodyPart) (parts : List BodyPart) :
    filled bound (part :: parts) = part.text bound ++ filled bound parts :=
  List.flatMap_cons

/-- The arguments in a text are those in its first part and those behind it. -/
theorem mem_argumentSpans_cons : span ∈ argumentSpans bound place (part :: parts) ↔
    part.isArgument bound = true ∧ span = (place, place + (part.text bound).length) ∨
      span ∈ argumentSpans bound (place + (part.text bound).length) parts := by
  rw [argumentSpans]
  by_cases hpart : part.isArgument bound = true <;> simp [hpart]

/-- An argument lies behind everything that stands before it. -/
theorem le_of_mem_argumentSpans (h : span ∈ argumentSpans bound place parts) :
    place ≤ span.1 ∧ span.1 ≤ span.2 := by
  induction parts generalizing place with
  | nil => exact absurd h List.not_mem_nil
  | cons part parts ih =>
    rcases mem_argumentSpans_cons.mp h with ⟨-, rfl⟩ | h
    · exact ⟨Nat.le_refl _, Nat.le_add_right _ _⟩
    · obtain ⟨hle, hspan⟩ := ih h
      exact ⟨Nat.le_trans (Nat.le_add_right _ _) hle, hspan⟩

/-- What stands in the text up to the next argument that is filled in, stands in the body too. -/
theorem prefix_of_prefix_filled (h : Reads params cs parts) : ∀ {after : List Char} {place : Nat},
    (∀ span ∈ argumentSpans bound place parts, place + after.length ≤ span.1) →
      after <+: filled bound parts → after <+: cs := by
  induction h with
  | nil => intro after place _ hafter; exact hafter
  | @char c cs parts _ _ ih =>
    intro after place hspans hafter
    cases after with
    | nil => exact List.nil_prefix
    | cons d after =>
      obtain ⟨rfl, hrest⟩ := List.cons_prefix_cons.mp hafter
      refine List.cons_prefix_cons.mpr ⟨rfl, @ih after (place + 1) ?_ hrest⟩
      intro span hspan
      have hle := hspans span (mem_argumentSpans_cons.mpr (.inr hspan))
      rw [List.length_cons] at hle
      omega
  | @parameter q cs parts _ _ ih =>
    intro after place hspans hafter
    rw [filled_cons, BodyPart.text] at hafter
    cases hq : bound.lookup q with
    | none =>
      rw [hq, Option.getD_none] at hafter
      rcases List.prefix_or_prefix_of_prefix hafter (List.prefix_append _ _) with
        hshort | ⟨rest, rfl⟩
      · exact hshort.trans (List.prefix_append _ _)
      · rw [List.prefix_append_right_inj] at hafter ⊢
        refine @ih rest (place + q.toList.length) ?_ hafter
        intro span hspan
        have hle := hspans span (mem_argumentSpans_cons.mpr (.inr ?_))
        · rw [List.length_append] at hle
          omega
        · rwa [BodyPart.text, hq]
    | some arg =>
      -- nothing of it is left before the argument
      have hle := hspans _ (mem_argumentSpans_cons.mpr (.inl ⟨?_, rfl⟩))
      · obtain rfl : after = [] := List.length_eq_zero_iff.mp (by omega)
        exact List.nil_prefix
      · rw [BodyPart.isArgument, hq]
        rfl

/-- Replacing a parameter fills its argument in. -/
def Fills (p arg : String) (bound : List (String × String)) (parts : List BodyPart) : Prop :=
  Text.replaceAll p.toList arg.toList (filled bound parts) = filled (bound ++ [(p, arg)]) parts

/-- Another argument makes no difference to a part that does not wait for it. -/
theorem text_concat (h : part.isArgument bound = true ∨ part ≠ .parameter p) (arg : String) :
    part.text (bound ++ [(p, arg)]) = part.text bound := by
  cases part with
  | char c => rfl
  | parameter q =>
    show (((bound ++ [(p, arg)]).lookup q).getD q).toList = ((bound.lookup q).getD q).toList
    rw [List.lookup_append]
    cases hq : bound.lookup q with
    | some other => rfl
    | none =>
      have hqp : q ≠ p := by
        rcases h with h | h
        · rw [BodyPart.isArgument, hq] at h
          exact absurd h Bool.false_ne_true
        · exact fun heq => h (congrArg _ heq)
      rw [Option.none_or, List.lookup_cons, beq_false_of_ne hqp]
      rfl

/-! A part in which the parameter does not begin is kept. -/

theorem fills_cons_iff (hkept : Text.NoneBegins p.toList (part.text bound) (filled bound parts))
    (hpart : part.isArgument bound = true ∨ part ≠ .parameter p) :
    Fills p arg bound (part :: parts) ↔ Fills p arg bound parts := by
  unfold Fills
  rw [filled_cons, filled_cons, Text.replaceAll_append hkept, text_concat hpart,
    List.append_cancel_left_eq]

theorem spares_cons_iff (hkept : Text.NoneBegins p.toList (part.text bound) (filled bound parts)) :
    Spares p bound place (part :: parts) ↔
      Spares p bound (place + (part.text bound).length) parts := by
  unfold Spares
  rw [filled_cons, Text.places_append hkept]
  refine forall₂_congr fun i hi => ?_
  have hbehind := Text.le_of_mem_places hi
  simp only [mem_argumentSpans_cons]
  constructor
  · exact fun h span hspan => h span (.inr hspan)
  · rintro h span (⟨-, rfl⟩ | hspan)
    · exact .inr hbehind
    · exact h span hspan

/-! A part that is the parameter itself is replaced. -/

theorem fills_parameter_iff (hp : p.toList ≠ []) (hnew : bound.lookup p = none) :
    Fills p arg bound (.parameter p :: parts) ↔ Fills p arg bound parts := by
  have hbefore : (BodyPart.parameter p).text bound = p.toList := by
    rw [BodyPart.text, hnew]
    rfl
  have hafter : (BodyPart.parameter p).text (bound ++ [(p, arg)]) = arg.toList := by
    rw [BodyPart.text, List.lookup_append, hnew, Option.none_or, List.lookup_cons_self]
    rfl
  unfold Fills
  rw [filled_cons, filled_cons, hbefore, hafter, Text.replaceAll_pattern_append hp,
    List.append_cancel_left_eq]

theorem spares_parameter_iff (hp : p.toList ≠ []) (hnew : bound.lookup p = none) :
    Spares p bound place (.parameter p :: parts) ↔
      Spares p bound (place + p.toList.length) parts := by
  have hbefore : (BodyPart.parameter p).text bound = p.toList := by
    rw [BodyPart.text, hnew]
    rfl
  have hspans : ∀ span, span ∈ argumentSpans bound place (.parameter p :: parts) ↔
      span ∈ argumentSpans bound (place + p.toList.length) parts := by
    intro span
    rw [mem_argumentSpans_cons, hbefore, BodyPart.isArgument, hnew]
    simp
  unfold Spares
  rw [filled_cons, hbefore, Text.places_pattern_append hp, List.forall_mem_cons]
  simp only [hspans]
  exact and_iff_right fun span hspan => .inl (le_of_mem_argumentSpans hspan).1

/-! A part in which the parameter begins, although it is not the parameter, is changed: what comes
in its place can be told by its first character. -/

/-- A part is not filled in right if the parameter begins in it and the argument begins differently
from the parameter. -/
theorem not_fills_cons {front after : List Char} (hp : p.toList ≠ [])
    (hpart : part.isArgument bound = true ∨ part ≠ .parameter p)
    (htext : part.text bound = front ++ after) (hafter : after ≠ [])
    (hfront : Text.NoneBegins p.toList front (after ++ filled bound parts))
    (hfirst : p.toList <+: after ++ filled bound parts) (harg : arg ≠ "")
    (hhead : arg.toList.head? ≠ p.toList.head?) : ¬ Fills p arg bound (part :: parts) := by
  obtain ⟨rest, hrest⟩ := hfirst
  obtain ⟨c, cs, rfl⟩ := List.exists_cons_of_ne_nil hafter
  obtain ⟨d, ds, hd⟩ := List.exists_cons_of_ne_nil hp
  have hargs : arg.toList ≠ [] := fun h => harg (String.toList_eq_nil_iff.mp h)
  obtain ⟨e, es, he⟩ := List.exists_cons_of_ne_nil hargs
  intro hfills
  unfold Fills at hfills
  rw [filled_cons, filled_cons, text_concat hpart, htext, List.append_assoc,
    Text.replaceAll_append hfront, ← hrest, Text.replaceAll_pattern_append hp, List.append_assoc,
    List.append_cancel_left_eq, he] at hfills
  rw [hd] at hrest
  obtain ⟨rfl, -⟩ := List.cons.inj hfills
  obtain ⟨rfl, -⟩ := List.cons.inj hrest
  rw [he, hd] at hhead
  exact hhead rfl

/-- How a parameter that is about to be filled in meets a part: the part is that parameter, or no
occurrence begins in it, or one does although it is something else. -/
inductive Meets (p : String) (bound : List (String × String)) :
    BodyPart → List BodyPart → Prop where
  | parameter (parts : List BodyPart) : Meets p bound (.parameter p) parts
  | kept {part : BodyPart} {parts : List BodyPart}
      (hkept : Text.NoneBegins p.toList (part.text bound) (filled bound parts))
      (hpart : part.isArgument bound = true ∨ part ≠ .parameter p) : Meets p bound part parts
  | disturbed {part : BodyPart} {parts : List BodyPart} {front after : List Char}
      (hpart : part.isArgument bound = true ∨ part ≠ .parameter p)
      (htext : part.text bound = front ++ after) (hafter : after ≠ [])
      (hfront : Text.NoneBegins p.toList front (after ++ filled bound parts))
      (hfirst : p.toList <+: after ++ filled bound parts)
      (hspares : ∀ place, ¬ Spares p bound place (part :: parts)) : Meets p bound part parts

/-- An occurrence that begins in the body and not in an argument ends in one, or else it would stand
in the body. -/
theorem meets_char (hp : p.toList ≠ []) {c : Char} (hnone : ¬ p.toList <+: c :: cs)
    (hrest : Reads params cs parts) : Meets p bound (.char c) parts := by
  have hpart : (BodyPart.char c).isArgument bound = true ∨ BodyPart.char c ≠ .parameter p :=
    .inr BodyPart.noConfusion
  by_cases hprefix : p.toList <+: c :: filled bound parts
  · have htext : (BodyPart.char c).text bound = [] ++ [c] := rfl
    refine .disturbed hpart htext (List.cons_ne_nil c []) (Text.noneBegins_nil _ _) hprefix ?_
    intro place hspares
    obtain ⟨rest, hrest'⟩ := hprefix
    obtain ⟨d, ds, hd⟩ := List.exists_cons_of_ne_nil hp
    have hplace : place ∈ Text.places p.toList place (filled bound (.char c :: parts)) := by
      rw [filled_cons, BodyPart.text, List.singleton_append, ← hrest',
        Text.places_pattern_append hp]
      exact List.mem_cons_self
    rw [hd] at hrest' hnone
    obtain ⟨rfl, hfilled⟩ := List.cons.inj hrest'
    have hbefore : ∀ span ∈ argumentSpans bound (place + 1) parts,
        place + 1 + ds.length ≤ span.1 := by
      intro span hspan
      have hbehind := le_of_mem_argumentSpans hspan
      have hends := hspares place hplace span (mem_argumentSpans_cons.mpr (.inr hspan))
      rw [hd, List.length_cons] at hends
      omega
    have hbody := prefix_of_prefix_filled hrest hbefore ⟨rest, hfilled⟩
    exact hnone (List.cons_prefix_cons.mpr ⟨rfl, hbody⟩)
  · exact .kept (Text.noneBegins_singleton hprefix) hpart

/-- An occurrence that begins in an argument is not spared. -/
theorem meets_argument (hp : p.toList ≠ []) (hpart : part.isArgument bound = true) :
    Meets p bound part parts := by
  rcases Text.noneBegins_or_first p.toList (part.text bound) (filled bound parts) with
    hkept | ⟨front, after, htext, hafter, hfront, hfirst⟩
  · exact .kept hkept (.inl hpart)
  refine .disturbed (.inl hpart) htext hafter hfront hfirst fun place hspares => ?_
  have hplace :
      place + front.length ∈ Text.places p.toList place (filled bound (part :: parts)) := by
    obtain ⟨rest, hrest⟩ := hfirst
    rw [filled_cons, htext, List.append_assoc, Text.places_append hfront, ← hrest,
      Text.places_pattern_append hp]
    exact List.mem_cons_self
  have hends := hspares _ hplace _ (mem_argumentSpans_cons.mpr (.inl ⟨hpart, rfl⟩))
  rw [htext, List.length_append] at hends
  have hlength := List.length_pos_iff.mpr hp
  have hafterlength := List.length_pos_iff.mpr hafter
  omega

/-- A parameter begins in a part that is something else only if the part is an argument or stands
before one. -/
theorem meets_of_reads (hparams : Separate params) (hp : p ∈ params)
    (hnew : bound.lookup p = none) (h : Reads params cs (part :: parts)) :
    Meets p bound part parts := by
  have hne := hparams.toList_ne_nil hp
  cases h with
  | char hnone hrest => exact meets_char hne (hnone p hp) hrest
  | @parameter q _ _ hq hrest =>
    by_cases hqp : q = p
    · subst hqp
      exact .parameter parts
    cases hbound : bound.lookup q with
    | some arg =>
      refine meets_argument hne ?_
      rw [BodyPart.isArgument, hbound]
      rfl
    | none =>
      refine .kept ?_ (.inr fun heq => hqp (BodyPart.parameter.inj heq))
      rw [BodyPart.text, hbound, Option.getD_none]
      exact (Text.apart_of_disjoint (hparams.toList_ne_nil hq) hne
        (hparams.disjoint_of_ne hq hp hqp)).noneBegins hne _

/-- What is left of a text once its first part is read. -/
theorem Reads.exists_tail (h : Reads params cs (part :: parts)) :
    ∃ rest, Reads params rest parts := by
  cases h with
  | char _ hrest => exact ⟨_, hrest⟩
  | parameter _ hrest => exact ⟨_, hrest⟩

/-- Replacing a parameter that spares the arguments so far fills its argument in. -/
theorem fills_of_spares (hparams : Separate params) (hp : p ∈ params)
    (hnew : bound.lookup p = none) (h : Reads params cs parts)
    (hspares : Spares p bound place parts) (arg : String) : Fills p arg bound parts := by
  have hne := hparams.toList_ne_nil hp
  induction parts generalizing cs place with
  | nil => exact Text.replaceAll_nil hne _
  | cons part parts ih =>
    obtain ⟨rest, hrest⟩ := h.exists_tail
    cases meets_of_reads hparams hp hnew h with
    | parameter =>
      rw [spares_parameter_iff hne hnew] at hspares
      exact (fills_parameter_iff hne hnew).mpr (ih hrest hspares)
    | kept hkept hpart =>
      rw [spares_cons_iff hkept] at hspares
      exact (fills_cons_iff hkept hpart).mpr (ih hrest hspares)
    | disturbed _ _ _ _ _ hdisturbed => exact absurd hspares (hdisturbed place)

/-- An argument that begins differently from its parameter is filled in only if the arguments so far
are spared. -/
theorem spares_of_fills (hparams : Separate params) (hp : p ∈ params)
    (hnew : bound.lookup p = none) (h : Reads params cs parts) (harg : arg ≠ "")
    (hhead : arg.toList.head? ≠ p.toList.head?) (hfills : Fills p arg bound parts) :
    Spares p bound place parts := by
  have hne := hparams.toList_ne_nil hp
  induction parts generalizing cs place with
  | nil => exact fun i hi => absurd hi List.not_mem_nil
  | cons part parts ih =>
    obtain ⟨rest, hrest⟩ := h.exists_tail
    cases meets_of_reads hparams hp hnew h with
    | parameter =>
      exact (spares_parameter_iff hne hnew).mpr
        (ih hrest ((fills_parameter_iff hne hnew).mp hfills))
    | kept hkept hpart =>
      exact (spares_cons_iff hkept).mpr (ih hrest ((fills_cons_iff hkept hpart).mp hfills))
    | disturbed hpart htext hafter hfront hfirst =>
      exact absurd hfills (not_fills_cons hne hpart htext hafter hfront hfirst harg hhead)

/-- **Sparing is just what filling in takes.** Every argument of the parameter is filled in if and
only if the parameter spares the arguments so far. -/
theorem spares_iff (hparams : Separate params) (hp : p ∈ params) (hnew : bound.lookup p = none)
    (h : Reads params cs parts) :
    Spares p bound place parts ↔ ∀ arg, Fills p arg bound parts := by
  refine ⟨fills_of_spares hparams hp hnew h, fun hall => ?_⟩
  have hother : ∃ c : Char, p.toList.head? ≠ some c := by
    by_cases hc : p.toList.head? = some 'a'
    · exact ⟨'b', by rw [hc]; decide⟩
    · exact ⟨'a', hc⟩
  obtain ⟨c, hc⟩ := hother
  have hletter : String.singleton c ≠ "" :=
    fun hempty => absurd (congrArg String.toList hempty) (by simp)
  have hhead : (String.singleton c).toList.head? ≠ p.toList.head? := by
    rw [String.toList_singleton]
    exact hc.symm
  exact spares_of_fills hparams hp hnew h hletter hhead (hall _)

/-! ## One parameter after another -/

/-- A parameter that is replaced by itself is as good as not replaced. -/
theorem fills_self (hp : p.toList ≠ []) (hnew : bound.lookup p = none) (parts : List BodyPart) :
    Fills p p bound parts := by
  have htext : ∀ part : BodyPart, part.text (bound ++ [(p, p)]) = part.text bound := by
    intro part
    by_cases hpart : part = .parameter p
    · subst hpart
      rw [BodyPart.text, BodyPart.text, List.lookup_append, hnew, Option.none_or,
        List.lookup_cons_self]
      rfl
    · exact text_concat (.inr hpart) p
  unfold Fills filled
  rw [Text.replaceAll_self hp]
  exact congrArg parts.flatMap (funext htext).symm

/-- Replacing one parameter after another fills all their arguments in. -/
theorem foldl_filled (hparams : Separate params) (h : Reads params cs parts) :
    ∀ rest bound : List (String × String), (∀ b ∈ rest, b.1 ∈ params) →
      ((bound ++ rest).map (·.1)).Nodup → Undisturbed parts bound rest →
      rest.foldl (fun text b => Text.replaceAll b.1.toList b.2.toList text) (filled bound parts) =
        filled (bound ++ rest) parts := by
  intro rest
  induction rest with
  | nil => intro bound _ _ _; rw [List.append_nil, List.foldl_nil]
  | cons b rest ih =>
    obtain ⟨p, arg⟩ := b
    intro bound hmem hnodup hundisturbed
    obtain ⟨hp, hrest⟩ := List.forall_mem_cons.mp hmem
    obtain ⟨hspares, hlater⟩ := hundisturbed
    have hnew : bound.lookup p = none := by
      rw [List.map_append] at hnodup
      refine List.lookup_eq_none_iff.mpr fun b hb => bne_iff_ne.mpr fun heq => ?_
      exact (List.nodup_append.mp hnodup).2.2 b.1 (List.mem_map_of_mem hb) p (by simp) heq.symm
    have hfills : Fills p arg bound parts := by
      rcases hspares with rfl | hspares
      · exact fills_self (hparams.toList_ne_nil hp) hnew parts
      · exact fills_of_spares hparams hp hnew h hspares arg
    have happend : (bound ++ [(p, arg)]) ++ rest = bound ++ (p, arg) :: rest := by
      rw [List.append_assoc]
      rfl
    rw [List.foldl_cons, show Text.replaceAll _ _ _ = _ from hfills, ih _ hrest, happend]
    · rwa [happend]
    · exact hlater

/-- With nothing filled in, the parts are the body. -/
theorem filled_nil (h : Reads params cs parts) : filled [] parts = cs := by
  induction h with
  | nil => rfl
  | char _ _ ih => exact congrArg (_ :: ·) ih
  | @parameter p cs parts _ _ ih => exact congrArg (p.toList ++ ·) ih

end

section

variable {params args : List String} {body : String}

/-- The first parameters of a macro are filled in by substituting them. -/
theorem substitute_eq_filled {later : List String} (hparams : Separate (params ++ later))
    (hlength : params.length = args.length)
    (h : Undisturbed (bodyParts (params ++ later) body) [] (params.zip args)) :
    substitute params args body.toList =
      filled (params.zip args) (bodyParts (params ++ later) body) := by
  have hreads := reads_bodyParts hparams body
  have hfst : (params.zip args).map (·.1) = params := List.map_fst_zip (Nat.le_of_eq hlength)
  have hmem : ∀ b ∈ params.zip args, b.1 ∈ params ++ later := by
    intro b hb
    refine List.mem_append_left later ?_
    rw [← hfst]
    exact List.mem_map_of_mem hb
  have hnodup : ((params.zip args).map (·.1)).Nodup := by
    rw [hfst]
    exact (List.nodup_append.mp hparams.nodup).1
  have hfilled := foldl_filled hparams hreads _ [] hmem hnodup h
  rwa [filled_nil hreads, List.nil_append] at hfilled

/-- A macro is applied to as many arguments as it has parameters. -/
theorem apply_parametric (hlength : params.length = args.length) (name body : String) :
    (parametric name params body).apply args =
      .ok (String.ofList (substitute params args body.toList)) := by
  unfold apply
  exact if_pos hlength

/-- Applying a macro whose arguments stay undisturbed. -/
theorem apply_of_undisturbed (hparams : Separate params) (hlength : params.length = args.length)
    (h : Undisturbed (bodyParts params body) [] (params.zip args)) (name : String) :
    (parametric name params body).apply args = .ok (verbatim params args body) := by
  have hall : Separate (params ++ []) := by rwa [List.append_nil]
  have hfilled := substitute_eq_filled hall hlength (by rwa [List.append_nil])
  rw [List.append_nil] at hfilled
  rw [apply_parametric hlength, hfilled]
  rfl

end

/-- **Arguments appear as they are.** Let the parameters of a macro be separate. Wherever a
parameter is replaced in the body with the arguments of earlier parameters in it, let it end before
each of these arguments or begin after it, unless the parameter is replaced by itself. Then applying
the macro to as many arguments as it has parameters gives the body with every parameter in it
replaced by its argument, and nothing else is changed. -/
theorem apply_verbatim {params args : List String} {body : String} (hparams : Separate params)
    (hlength : params.length = args.length)
    (hundisturbed : Undisturbed (bodyParts params body) [] (params.zip args)) (name : String) :
    (parametric name params body).apply args = .ok (verbatim params args body) :=
  apply_of_undisturbed hparams hlength hundisturbed name

/-- An argument may be empty, and it may have characters of a later parameter in it. -/
theorem apply_verbatim_greeting :
    Separate ["x", "name"] ∧
    Undisturbed (bodyParts ["x", "name"] "Hello x, name (x)") [] [("x", ""), ("name", "Bob")] ∧
    (parametric "GREET" ["x", "name"] "Hello x, name (x)").apply ["", "Bob"] =
      .ok "Hello , Bob ()" ∧
    Undisturbed (bodyParts ["x", "name"] "Hello x, name (x)") [] [("x", "n"), ("name", "1")] ∧
    (parametric "GREET" ["x", "name"] "Hello x, name (x)").apply ["n", "1"] =
      .ok "Hello n, 1 (n)" := by
  have hparams : Separate ["x", "name"] := by decide
  have hempty : Undisturbed (bodyParts ["x", "name"] "Hello x, name (x)") []
      [("x", ""), ("name", "Bob")] := by decide
  have hletter : Undisturbed (bodyParts ["x", "name"] "Hello x, name (x)") []
      [("x", "n"), ("name", "1")] := by decide
  exact ⟨hparams, hempty, @apply_verbatim _ ["", "Bob"] _ hparams rfl hempty "GREET",
    hletter, @apply_verbatim _ ["n", "1"] _ hparams rfl hletter "GREET"⟩

/-- An argument that has a later parameter in it does not appear as it is: the parameter is replaced
there too. -/
theorem apply_argument_replaced :
    Separate ["x", "y"] ∧ ["x", "y"].length = ["y", "1"].length ∧
    (parametric "SWAP" ["x", "y"] "y-x").apply ["y", "1"] = .ok "1-1" ∧
    verbatim ["x", "y"] ["y", "1"] "y-x" = "1-y" := by
  exact ⟨by decide, rfl, rfl, rfl⟩

/-- An argument that has nothing of a later parameter can still bring one about. -/
example : (parametric "M" ["x", "ab"] "axb").apply ["", "!"] = .ok "!" := rfl

/-- **For the last parameter the condition is exact.** If no other argument is disturbed, then all
arguments appear as they are, whatever the last one is, just if the last parameter spares the
others. -/
theorem verbatim_concat_iff {params args : List String} {q body : String}
    (hparams : Separate (params ++ [q])) (hlength : params.length = args.length)
    (h : Undisturbed (bodyParts (params ++ [q]) body) [] (params.zip args)) :
    (∀ name last, (parametric name (params ++ [q]) body).apply (args ++ [last]) =
      .ok (verbatim (params ++ [q]) (args ++ [last]) body)) ↔
      Spares q (params.zip args) 0 (bodyParts (params ++ [q]) body) := by
  have hreads := reads_bodyParts hparams body
  have hlast : ∀ last : String, (params ++ [q]).length = (args ++ [last]).length := by
    intro last
    rw [List.length_append, List.length_append, hlength]
    rfl
  have hzip : ∀ last : String,
      (params ++ [q]).zip (args ++ [last]) = params.zip args ++ [(q, last)] :=
    fun _ => List.zip_append hlength
  have hsubstitute : ∀ last, substitute (params ++ [q]) (args ++ [last]) body.toList =
      Text.replaceAll q.toList last.toList
        (filled (params.zip args) (bodyParts (params ++ [q]) body)) := by
    intro last
    rw [← substitute_eq_filled hparams hlength h]
    unfold substitute
    rw [hzip, List.foldl_concat]
  have hnew : (params.zip args).lookup q = none := by
    refine List.lookup_eq_none_iff.mpr fun b hb => bne_iff_ne.mpr ?_
    rintro rfl
    exact (List.nodup_append.mp hparams.nodup).2.2 _ (List.of_mem_zip hb).1 _
      (List.mem_singleton_self _) rfl
  rw [spares_iff hparams (by simp) hnew hreads]
  constructor
  · intro hall last
    have happly := hall "" last
    rw [apply_parametric (hlast last), hsubstitute] at happly
    have htext := String.ofList_injective (Except.ok.inj happly)
    rwa [hzip] at htext
  · intro hfills name last
    rw [apply_parametric (hlast last), hsubstitute, show Text.replaceAll _ _ _ = _ from hfills last]
    unfold verbatim
    rw [hzip]

end MacroDefinition

end ExamPaper

import ExamPaper.Tag.Query
import Mathlib.Algebra.Ring.Int.Defs
import Mathlib.Data.List.Induction

/-!
# What a tag query means

The tokens of a query are a condition in postfix order, or they are not the listing of any
condition. Which of the two it is, the tokens alone decide: the same tokens can be carried out on a
stack of conditions instead of a stack of truth values (`grow`), and the truth values are then those
of the conditions (`run_map`).

> Every query means exactly one thing (`Means`): a condition, or an error that names the first
> operator that lacks operands or the number of values left over. Its answers and its selections are
> those of the condition, or that error, whatever the tags are (`holds_means`).
-/

namespace ExamPaper

/-! ## Conditions -/

/-- A condition on a set of tags. -/
inductive TagCondition where
  /-- The tag is in the set. -/
  | tag (name : String)
  | not (c : TagCondition)
  | and (left right : TagCondition)
  | or (left right : TagCondition)
  deriving DecidableEq, Repr

namespace TagCondition

/-- The tokens of a condition in postfix order. -/
def listing : TagCondition → List TagToken
  | tag name => [.tag name]
  | not c => c.listing ++ [.not]
  | and left right => left.listing ++ right.listing ++ [.and]
  | or left right => left.listing ++ right.listing ++ [.or]

/-- Whether the condition is met, where `holds` says which tags are there. -/
def value (holds : String → Bool) : TagCondition → Bool
  | tag name => holds name
  | not c => !c.value holds
  | and left right => left.value holds && right.value holds
  | or left right => left.value holds || right.value holds

end TagCondition

namespace TagToken

/-- How many values a token takes off the stack. -/
def operands : TagToken → Nat
  | tag _ => 0
  | not => 1
  | and | or => 2

/-- The sign by which an operator is reported. -/
def sign? : TagToken → Option Char
  | tag _ => none
  | not => some '!'
  | and => some '&'
  | or => some '|'

end TagToken

namespace TagQuery

/-! ## The meaning of a query -/

/-- How many more values tokens put on the stack than they take off it. -/
def height (tokens : List TagToken) : Int :=
  (tokens.map fun token => 1 - (token.operands : Int)).sum

/-- Every token finds its operands among the values that the tokens before it leave. -/
def Supplied (tokens : List TagToken) : Prop :=
  ∀ before token, before ++ [token] <+: tokens → (token.operands : Int) ≤ height before

/-- The operator with this sign is the first that lacks operands. -/
def FirstLacking (tokens : List TagToken) (sign : Char) : Prop :=
  ∃ before token after, tokens = before ++ token :: after ∧ Supplied before ∧
    height before < token.operands ∧ token.sign? = some sign

/-- What a query means. -/
inductive Means (q : TagQuery) : Except TagQueryError TagCondition → Prop where
  /-- The tokens are the listing of a condition. -/
  | condition {c : TagCondition} : q.tokens = c.listing → Means q (.ok c)
  /-- An operator lacks operands. -/
  | underflow {sign : Char} : FirstLacking q.tokens sign →
      Means q (.error (.underflow q.source sign))
  /-- No operator lacks operands, but it is not one value that is left at the end. -/
  | unbalanced {depth : Nat} : Supplied q.tokens → height q.tokens = depth → depth ≠ 1 →
      Means q (.error (.unbalanced q.source depth))

/-- A token takes its operands off the stack and puts one result on it. -/
theorem height_concat (tokens : List TagToken) (token : TagToken) :
    height (tokens ++ [token]) = height tokens + (1 - token.operands) := by
  simp [height]

theorem supplied_nil : Supplied [] := by
  intro before token h
  exact absurd (List.prefix_nil.mp h) (by simp)

/-- A token that has its operands keeps the query supplied. -/
theorem Supplied.concat {tokens : List TagToken} {token : TagToken} (h : Supplied tokens)
    (hnext : (token.operands : Int) ≤ height tokens) : Supplied (tokens ++ [token]) := by
  intro before other hbefore
  rcases List.prefix_concat_iff.mp hbefore with hall | hfirst
  · obtain ⟨rfl, rfl⟩ := List.append_inj' hall rfl |>.imp id List.singleton_inj.mp
    exact hnext
  · exact h before other hfirst

/-- What lacks operands lacks them whatever follows. -/
theorem FirstLacking.append {tokens : List TagToken} {sign : Char} (h : FirstLacking tokens sign)
    (more : List TagToken) : FirstLacking (tokens ++ more) sign := by
  obtain ⟨before, token, after, rfl, hsupplied, hlacks, hsign⟩ := h
  exact ⟨before, token, after ++ more, by simp, hsupplied, hlacks, hsign⟩

/-- A query with a token that lacks operands is not supplied. -/
theorem FirstLacking.not_supplied {tokens : List TagToken} {sign : Char}
    (h : FirstLacking tokens sign) : ¬ Supplied tokens := by
  obtain ⟨before, token, after, rfl, -, hlacks, -⟩ := h
  intro hsupplied
  have hfound := hsupplied before token ⟨after, by simp⟩
  omega

/-! ## Tokens carried out on conditions -/

/-- One token carried out on a stack of conditions. -/
def grow (stack : List TagCondition) : TagToken → Except Char (List TagCondition)
  | .tag name => .ok (.tag name :: stack)
  | .not => match stack with
    | c :: stack => .ok (.not c :: stack)
    | _ => .error '!'
  | .and => match stack with
    | right :: left :: stack => .ok (.and left right :: stack)
    | _ => .error '&'
  | .or => match stack with
    | right :: left :: stack => .ok (.or left right :: stack)
    | _ => .error '|'

/-- The stack of conditions after all tokens. -/
def growAll (tokens : List TagToken) (stack : List TagCondition) :
    Except Char (List TagCondition) :=
  tokens.foldlM grow stack

/-- The listings of the conditions on a stack, from its bottom on. -/
def listings (stack : List TagCondition) : List TagToken :=
  stack.reverse.flatMap TagCondition.listing

/-- A step on the values of conditions is the step on the conditions themselves. -/
theorem step_map (holds : String → Bool) (stack : List TagCondition) (token : TagToken) :
    step holds (stack.map (·.value holds)) token =
      (grow stack token).map (List.map (·.value holds)) := by
  -- the right operand is on top, so the values are taken in the other order
  cases token with
  | tag name => rfl
  | not => cases stack <;> rfl
  | and =>
    rcases stack with - | ⟨right, - | ⟨left, stack⟩⟩
    · rfl
    · rfl
    · simp [step, grow, Except.map, TagCondition.value, Bool.and_comm]
  | or =>
    rcases stack with - | ⟨right, - | ⟨left, stack⟩⟩
    · rfl
    · rfl
    · simp [step, grow, Except.map, TagCondition.value, Bool.or_comm]

/-- The truth values on the stack are those of the conditions. -/
theorem run_map (holds : String → Bool) : ∀ (tokens : List TagToken) (stack : List TagCondition),
    run holds tokens (stack.map (·.value holds)) =
      (growAll tokens stack).map (List.map (·.value holds)) := by
  intro tokens
  induction tokens with
  | nil => intro stack; rfl
  | cons token tokens ih =>
    intro stack
    unfold run growAll at ih ⊢
    rw [List.foldlM_cons, List.foldlM_cons, step_map]
    cases grow stack token with
    | error sign => rfl
    | ok stack' => exact ih stack'

/-- Tokens are carried out one after another. -/
theorem growAll_concat (tokens : List TagToken) (token : TagToken) (stack : List TagCondition) :
    growAll (tokens ++ [token]) stack = growAll tokens stack >>= (grow · token) := by
  unfold growAll
  rw [List.foldlM_append]
  refine bind_congr fun stack' => ?_
  rw [List.foldlM_cons]
  exact bind_pure (grow stack' token)

/-- The listing of a condition puts the condition on the stack. -/
theorem growAll_listing (c : TagCondition) : ∀ (rest : List TagToken) (stack : List TagCondition),
    growAll (c.listing ++ rest) stack = growAll rest (c :: stack) := by
  induction c with
  | tag name => intro rest stack; rfl
  | not c ih =>
    intro rest stack
    rw [TagCondition.listing, List.append_assoc, ih]
    rfl
  | and left right ihleft ihright =>
    intro rest stack
    rw [TagCondition.listing, List.append_assoc, List.append_assoc, ihleft, ihright]
    rfl
  | or left right ihleft ihright =>
    intro rest stack
    rw [TagCondition.listing, List.append_assoc, List.append_assoc, ihleft, ihright]
    rfl

/-- A token that is carried out finds its operands, and is listed after what they list. -/
theorem grow_ok {stack stack' : List TagCondition} {token : TagToken}
    (h : grow stack token = .ok stack') :
    token.operands ≤ stack.length ∧ stack'.length + token.operands = stack.length + 1 ∧
      listings stack' = listings stack ++ [token] := by
  cases token with
  | tag name =>
    obtain rfl := Except.ok.inj h
    simp [TagToken.operands, listings, TagCondition.listing]
  | not =>
    rcases stack with - | ⟨c, stack⟩
    · exact absurd h (by simp [grow])
    · obtain rfl := Except.ok.inj h
      simp [TagToken.operands, listings, TagCondition.listing]
  | and | or =>
    rcases stack with - | ⟨right, - | ⟨left, stack⟩⟩
    · exact absurd h (by simp [grow])
    · exact absurd h (by simp [grow])
    · obtain rfl := Except.ok.inj h
      simp [TagToken.operands, listings, TagCondition.listing]

/-- A token is not carried out just if it is an operator that lacks operands. -/
theorem grow_error_iff {stack : List TagCondition} {token : TagToken} {sign : Char} :
    grow stack token = .error sign ↔
      stack.length < token.operands ∧ token.sign? = some sign := by
  cases token with
  | tag name => simp [grow, TagToken.operands]
  | not =>
    rcases stack with - | ⟨c, stack⟩
    · simp [grow, TagToken.operands, TagToken.sign?]
    · simp [grow, TagToken.operands]
  | and | or =>
    rcases stack with - | ⟨right, - | ⟨left, stack⟩⟩
    · simp [grow, TagToken.operands, TagToken.sign?]
    · simp [grow, TagToken.operands, TagToken.sign?]
    · exact ⟨fun h => absurd h (by simp [grow]),
        fun ⟨h, _⟩ => absurd h (by simp [TagToken.operands])⟩

/-- What is true of the stack after tokens, or of the tokens if one of them fails. -/
theorem growAll_spec (tokens : List TagToken) :
    match growAll tokens [] with
    | .ok stack => listings stack = tokens ∧ height tokens = stack.length ∧ Supplied tokens
    | .error sign => FirstLacking tokens sign := by
  -- the last token is carried out on what the others leave
  induction tokens using List.reverseRecOn with
  | nil => exact ⟨rfl, rfl, supplied_nil⟩
  | append_singleton tokens token ih =>
    rw [growAll_concat]
    cases hbefore : growAll tokens [] with
    | error sign =>
      rw [hbefore] at ih
      exact FirstLacking.append ih [token]
    | ok stack =>
      rw [hbefore] at ih
      obtain ⟨hlistings, hheight, hsupplied⟩ := ih
      show match grow stack token with
        | .ok stack => _
        | .error sign => _
      cases hgrow : grow stack token with
      | error sign =>
        -- the stack is as high as the tokens say, so the operands are lacking there too
        obtain ⟨hlacks, hsign⟩ := grow_error_iff.mp hgrow
        exact ⟨tokens, token, [], rfl, hsupplied, by omega, hsign⟩
      | ok stack' =>
        obtain ⟨hoperands, hlength, hlisted⟩ := grow_ok hgrow
        refine ⟨by rw [hlisted, hlistings], ?_, hsupplied.concat (by omega)⟩
        rw [height_concat]
        omega

/-- Tokens that find their operands leave a stack of conditions. -/
theorem growAll_of_supplied {tokens : List TagToken} (h : Supplied tokens) :
    ∃ stack : List TagCondition, growAll tokens [] = .ok stack ∧ height tokens = stack.length := by
  have hspec := growAll_spec tokens
  cases hgrown : growAll tokens [] with
  | error sign =>
    rw [hgrown] at hspec
    exact absurd h (FirstLacking.not_supplied hspec)
  | ok stack =>
    rw [hgrown] at hspec
    exact ⟨stack, rfl, hspec.2.1⟩

/-- The first operator that lacks operands ends the tokens. -/
theorem growAll_of_firstLacking {tokens : List TagToken} {sign : Char}
    (h : FirstLacking tokens sign) : growAll tokens [] = .error sign := by
  obtain ⟨before, token, after, rfl, hsupplied, hlacks, hsign⟩ := h
  obtain ⟨stack, hstack, hheight⟩ := growAll_of_supplied hsupplied
  have hgrow : grow stack token = .error sign := grow_error_iff.mpr ⟨by omega, hsign⟩
  unfold growAll at hstack ⊢
  rw [List.foldlM_append, hstack]
  show (token :: after).foldlM grow stack = _
  rw [List.foldlM_cons, hgrow]
  rfl

/-! ## Queries answered by what they mean -/

/-- The meaning of a query, found by carrying it out on conditions. -/
def meaning (q : TagQuery) : Except TagQueryError TagCondition :=
  match growAll q.tokens [] with
  | .error sign => .error (.underflow q.source sign)
  | .ok [c] => .ok c
  | .ok stack => .error (.unbalanced q.source stack.length)

/-- A query means one thing, which can be worked out. -/
theorem means_iff {q : TagQuery} {m : Except TagQueryError TagCondition} :
    q.Means m ↔ m = q.meaning := by
  constructor
  · intro h
    unfold meaning
    cases h with
    | @condition c hlisting =>
      have hgrown : growAll (c.listing ++ []) [] = .ok [c] := growAll_listing c [] []
      rw [List.append_nil, ← hlisting] at hgrown
      rw [hgrown]
    | underflow hlacking => rw [growAll_of_firstLacking hlacking]
    | unbalanced hsupplied hheight hdepth =>
      obtain ⟨stack, hstack, hlength⟩ := growAll_of_supplied hsupplied
      rw [hstack]
      obtain rfl : _ = stack.length := Int.ofNat_inj.mp (hheight.symm.trans hlength)
      rcases stack with - | ⟨c, - | ⟨d, stack⟩⟩
      · rfl
      · exact absurd rfl hdepth
      · rfl
  · rintro rfl
    have hspec := growAll_spec q.tokens
    unfold meaning
    cases hgrown : growAll q.tokens [] with
    | error sign =>
      rw [hgrown] at hspec
      exact .underflow hspec
    | ok stack =>
      rw [hgrown] at hspec
      obtain ⟨hlistings, hheight, hsupplied⟩ := hspec
      rcases stack with - | ⟨c, - | ⟨d, stack⟩⟩
      · exact .unbalanced hsupplied hheight (by simp)
      · refine .condition ?_
        rw [← hlistings]
        simp [listings]
      · exact .unbalanced hsupplied hheight (by simp)

/-- A query answers as the condition does that it means. -/
theorem holds_eq (q : TagQuery) (tags : NameSet) :
    q.holds tags = q.meaning.map (·.value tags.contains) := by
  have hrun : run tags.contains q.tokens [] =
      (growAll q.tokens []).map (List.map (·.value tags.contains)) :=
    run_map tags.contains q.tokens []
  unfold holds meaning
  rw [hrun]
  rcases growAll q.tokens [] with sign | (- | ⟨c, - | ⟨d, stack⟩⟩)
  · rfl
  · rfl
  · rfl
  · simp [Except.map]

/-- A query selects the items of which its condition holds, and looks at no meaning if there are
none. -/
theorem select_eq {α : Type} (q : TagQuery) (tags : α → NameSet) (items : List α) :
    q.select tags items = if items = [] then .ok [] else
      q.meaning.map fun c => items.filter fun item => c.value (tags item).contains := by
  induction items with
  | nil => rfl
  | cons item items ih =>
    rw [select, ih, holds_eq, if_neg (List.cons_ne_nil item items)]
    cases q.meaning with
    | error e => rfl
    | ok c =>
      have hfirst : (item :: items).filter (fun item => c.value (tags item).contains) =
          if c.value (tags item).contains then
            item :: items.filter fun item => c.value (tags item).contains
          else items.filter fun item => c.value (tags item).contains := List.filter_cons
      dsimp only [Except.map]
      rw [hfirst]
      -- no items are selected from none, with or without looking at the meaning
      cases items <;> rfl

/-- A query means a condition just if its tokens list the condition. -/
theorem meaning_eq_ok_iff {q : TagQuery} {c : TagCondition} :
    q.meaning = .ok c ↔ q.tokens = c.listing := by
  constructor
  · intro h
    cases means_iff.mpr h.symm with
    | condition hlisting => exact hlisting
  · intro h
    exact (means_iff.mp (.condition h)).symm

/-- A query is answered just if its tokens are the listing of one condition. -/
theorem holds_isOk_iff (q : TagQuery) (tags : NameSet) :
    (∃ answer, q.holds tags = .ok answer) ↔
      ∃ c : TagCondition, q.tokens = c.listing ∧
        ∀ c' : TagCondition, q.tokens = c'.listing → c' = c := by
  constructor
  · rintro ⟨answer, hanswer⟩
    rw [holds_eq] at hanswer
    cases hmeaning : q.meaning with
    | error e =>
      rw [hmeaning] at hanswer
      exact absurd hanswer (by simp [Except.map])
    | ok c =>
      refine ⟨c, meaning_eq_ok_iff.mp hmeaning, fun c' hc' => ?_⟩
      exact Except.ok.inj ((meaning_eq_ok_iff.mpr hc').symm.trans hmeaning)
  · rintro ⟨c, hlisting, -⟩
    rw [holds_eq, meaning_eq_ok_iff.mpr hlisting]
    exact ⟨_, rfl⟩

/-- **What a query means.** Every query means exactly one thing: the condition of which its tokens
are the listing, or the error of the first operator that lacks operands, or the error of the values
that are left over. On every set of tags it answers with the value of the condition, or fails with
that error; so it is answered just if its tokens are the listing of one condition. Of items it
selects those whose tags meet the condition, in order; with the error, it fails on all items but
none. -/
theorem holds_means (q : TagQuery) :
    ∃ m, q.Means m ∧ (∀ m', q.Means m' → m' = m) ∧
      (∀ tags, q.holds tags = m.map fun c => c.value tags.contains) ∧
      (∀ tags, (∃ answer, q.holds tags = .ok answer) ↔
        ∃ c : TagCondition, q.tokens = c.listing ∧
          ∀ c' : TagCondition, q.tokens = c'.listing → c' = c) ∧
      ∀ {α : Type} (tags : α → NameSet) (items : List α),
        q.select tags items = if items = [] then .ok [] else
          m.map fun c => items.filter fun item => c.value (tags item).contains :=
  ⟨q.meaning, means_iff.mpr rfl, fun _ h => means_iff.mp h, holds_eq q, holds_isOk_iff q,
    select_eq q⟩

end TagQuery

end ExamPaper

import ExamPaper.Proofs.Template.Failing
import ExamPaper.Proofs.Template.Stored

/-!
# Step limits

An engine gives an expansion up after so many directives. The limit decides how far an expansion is
followed, and nothing else: what a directive is replaced by does not depend on it (`step_limited`).
So the steps of an expansion can be followed with any number of them left (`exists_relocated`), and
two expansions of one text go through the same steps for as long as both have some left.

> An expansion that does not reach its limit comes to the same with every higher one; one that does
> has carried out just as many directives as the limit allows. For a text whose expansion ends, the
> limits that are reached are those up to the number of its directives (`expand_limited`).
-/

namespace ExamPaper

namespace Template

namespace Engine

variable {ρ : Type} [Draws ρ] {e : Engine}

/-- The engine with another limit. -/
def limited (e : Engine) (n : Nat) : Engine := { e with maxSteps := n }

/-- The expansion was given up at its limit. -/
def Exhausted {α : Type} (o : Outcome ρ α) : Prop :=
  ∃ limit, o.result = .error (.expansionLimit limit)

omit [Draws ρ] in
theorem exhausted_map {α β : Type} {o : Outcome ρ α} {f : α → β} :
    Exhausted (o.map f) ↔ Exhausted o := by
  obtain ⟨result, s, r⟩ := o
  cases result <;> simp [Exhausted, Outcome.map, Except.map]

/-! ## Steps do not depend on the limit -/

/-- A call does not ask for the limit. -/
theorem dispatch_limited (n : Nat) (name : String) (args : List String) (s : State) (r : ρ) :
    (e.limited n).dispatch name args s r = e.dispatch name args s r := by
  have hmacros : (e.limited n).macros = e.macros := rfl
  have htoday : (e.limited n).today = e.today := rfl
  fun_induction dispatch e name args s r
  case case1 hlookup => rw [dispatch.eq_def, hlookup]
  case case2 hlookup _ hmacro => rw [dispatch.eq_def, hlookup, hmacros, hmacro]
  case case3 hlookup hmacro ih | case5 hlookup hmacro ih | case7 hlookup hmacro ih |
      case9 hlookup hmacro ih =>
    simp only [dispatch, hlookup, hmacros, hmacro, ih]
  case case4 hargs hlookup hmacro | case6 hargs hlookup hmacro =>
    simp only [dispatch, hlookup, hmacros, hmacro]
  case case8 hlookup hmacro | case10 hlookup hmacro =>
    simp only [dispatch, hlookup, hmacros, hmacro]
  case case11 hop hlookup hmacro => simp only [dispatch, hlookup, hmacros, hmacro, hop]
  case case12 hop result r' hrun hlookup hmacro =>
    simp only [dispatch, hlookup, hmacros, hmacro, hop, htoday, hrun]

/-- Nor does a directive. -/
theorem carryOut_limited (n : Nat) (body after : List Char) (s : State) (r : ρ) :
    (e.limited n).carryOut body after s r = e.carryOut body after s r := by
  unfold carryOut
  dsimp only
  rw [dispatch_limited]

/-- A step is the same under each limit. -/
theorem step_limited (n : Nat) {p p' : Progress ρ} : (e.limited n).Step p p' ↔ e.Step p p' := by
  constructor
  · rintro ⟨hleft, hnext, hcarried⟩
    exact .directive hleft hnext (by rwa [carryOut_limited] at hcarried)
  · rintro ⟨hleft, hnext, hcarried⟩
    exact .directive hleft hnext (by rwa [carryOut_limited])

theorem steps_limited (n : Nat) {p p' : Progress ρ} (h : Relation.ReflTransGen e.Step p p') :
    Relation.ReflTransGen (e.limited n).Step p p' :=
  Relation.ReflTransGen.mono (fun _ _ => (step_limited n).mpr) _ _ h

/-! ## Steps with another number of them left -/

/-- The same progress with so many steps left. -/
def Progress.withLeft (p : Progress ρ) (n : Nat) : Progress ρ := { p with left := n }

/-- A run takes some number of steps, whatever is left after them. -/
theorem exists_relocated {p p' : Progress ρ} (h : Relation.ReflTransGen e.Step p p') :
    ∃ k, p.left = p'.left + k ∧
      ∀ n, Relation.ReflTransGen e.Step (p.withLeft (n + k)) (p'.withLeft n) := by
  induction h with
  | refl => exact ⟨0, rfl, fun n => .refl⟩
  | tail _ hstep ih =>
    obtain ⟨k, hk, hrun⟩ := ih
    cases hstep with
    | directive hleft hnext hcarried =>
      refine ⟨k + 1, by dsimp only; omega, fun n => ?_⟩
      have hrun := hrun (n + 1)
      rw [Nat.add_right_comm, Nat.add_assoc] at hrun
      exact hrun.tail (.directive rfl hnext hcarried)

/-! ## What an expansion comes to, step by step -/

/-- What the expansion comes to from here. -/
def outcome (e : Engine) (p : Progress ρ) : Outcome ρ (List Char) :=
  e.expandFrom p.left p.scanner p.state p.rng

/-- A step does not change what comes out. -/
theorem Step.outcome_eq {p p' : Progress ρ} (h : e.Step p p') : e.outcome p = e.outcome p' := by
  cases h with
  | directive hleft hnext hcarried =>
    unfold outcome
    rw [hleft, expandFrom_directive hnext, hcarried]
    rfl

theorem outcome_eq_of_steps {p p' : Progress ρ} (h : Relation.ReflTransGen e.Step p p') :
    e.outcome p = e.outcome p' := by
  induction h with
  | refl => rfl
  | tail _ hstep ih => exact ih.trans hstep.outcome_eq

/-- What a run ends in is what comes out. -/
theorem Ends.outcome_eq {p : Progress ρ} {o : Outcome ρ (List Char)} (h : e.Ends p o) :
    e.outcome p = o := by
  unfold outcome
  cases h with
  | limit hleft => rw [hleft, expandFrom]
  | finished hleft hnext =>
    obtain ⟨left, hleft⟩ := Nat.exists_eq_succ_of_ne_zero hleft
    rw [hleft, expandFrom, hnext]
  | unterminated hleft hnext =>
    obtain ⟨left, hleft⟩ := Nat.exists_eq_succ_of_ne_zero hleft
    rw [hleft, expandFrom, hnext]
  | failed hleft hnext hcarried =>
    obtain ⟨left, hleft⟩ := Nat.exists_eq_succ_of_ne_zero hleft
    rw [hleft, expandFrom_directive hnext, hcarried]
    rfl

/-- A directive does not report the limit. -/
theorem not_exhausted_carryOut (body after : List Char) (s : State) (r : ρ) :
    ¬ Exhausted (e.carryOut body after s r) := by
  unfold carryOut
  dsimp only
  split
  · rintro ⟨limit, h⟩
    exact absurd h (by simp)
  · rw [exhausted_map]
    rintro ⟨limit, h⟩
    exact (dispatch_ne _ _ s r).1 limit h

/-- Only at its limit is an expansion given up. -/
theorem Ends.not_exhausted {p : Progress ρ} {o : Outcome ρ (List Char)} (h : e.Ends p o)
    (hleft : p.left ≠ 0) : ¬ Exhausted o := by
  cases h with
  | limit hzero => exact absurd hzero hleft
  | finished | unterminated =>
    rintro ⟨limit, hlimit⟩
    exact absurd hlimit (by simp [unterminatedError])
  | failed _ _ hcarried =>
    rintro ⟨limit, hlimit⟩
    exact not_exhausted_carryOut _ _ _ _ ⟨limit, by rw [hcarried]; exact hlimit⟩

/-- An expansion with steps left ends in the same way, whatever its limit and however many are
left. -/
theorem Ends.withLeft {p : Progress ρ} {o : Outcome ρ (List Char)} (h : e.Ends p o)
    (hleft : p.left ≠ 0) (limit : Nat) {n : Nat} (hn : n ≠ 0) :
    (e.limited limit).Ends (p.withLeft n) o := by
  cases h with
  | limit hzero => exact absurd hzero hleft
  | finished _ hnext => exact .finished (p := p.withLeft n) hn hnext
  | unterminated _ hnext => exact .unterminated (p := p.withLeft n) hn hnext
  | failed _ hnext hcarried =>
    exact .failed (p := p.withLeft n) hn hnext (by rw [carryOut_limited]; exact hcarried)

/-! ## Limits -/

/-- The expansion of a text has carried out so many directives, one after another, and has come
to a progress. -/
def CarriesOut (e : Engine) (n : Nat) (text : String) (s : State) (r : ρ) (p : Progress ρ) : Prop :=
  Relation.ReflTransGen e.Step ⟨n, .ofText text.toList, s, r⟩ p ∧ p.left = 0

section

variable {text : String} {s : State} {r : ρ} {n : Nat}

/-- An expansion that can carry out as many directives as its limit allows is given up. -/
theorem CarriesOut.expand_eq {p : Progress ρ} (h : e.CarriesOut n text s r p) :
    (e.limited n).expand text s r = ⟨.error (.expansionLimit n), p.state, p.rng⟩ := by
  obtain ⟨hrun, hleft⟩ := h
  have houtcome := (outcome_eq_of_steps (steps_limited n hrun)).trans (Ends.limit hleft).outcome_eq
  exact congrArg (Outcome.map String.ofList) houtcome

/-- Either an expansion carries out so many directives, or it ends after fewer, and then with every
limit beyond their number. -/
theorem carriesOut_or_ends (e : Engine) (n : Nat) (text : String) (s : State) (r : ρ) :
    (∃ p, e.CarriesOut n text s r p) ∨
    ∃ total < n, (∃ p, e.CarriesOut total text s r p) ∧ ∃ o, ¬ Exhausted o ∧
      ∀ m, total < m → (e.limited m).expand text s r = o := by
  obtain ⟨p, hrun, hends⟩ := exists_steps_expandFrom (e := e) n (.ofText text.toList) s r
  by_cases hleft : p.left = 0
  · exact .inl ⟨p, hrun, hleft⟩
  · obtain ⟨total, htotal, hrelocated⟩ := exists_relocated hrun
    refine .inr ⟨total, by dsimp only at htotal; omega, ⟨p.withLeft 0, ?_, rfl⟩,
      Outcome.map String.ofList _, fun ho => hends.not_exhausted hleft (exhausted_map.mp ho),
      fun m hm => ?_⟩
    · have hrun := hrelocated 0
      rwa [Nat.zero_add] at hrun
    · -- the run goes through the same steps, with some more left after them
      have hrun := hrelocated (m - total)
      rw [Nat.sub_add_cancel (Nat.le_of_lt hm)] at hrun
      have hends := hends.withLeft hleft m (Nat.sub_ne_zero_of_lt hm)
      have houtcome := (outcome_eq_of_steps (steps_limited m hrun)).trans hends.outcome_eq
      exact congrArg (Outcome.map String.ofList) houtcome

/-- An expansion is given up if it carries out as many directives as its limit allows, and only
then. -/
theorem exhausted_iff :
    Exhausted ((e.limited n).expand text s r) ↔ ∃ p, e.CarriesOut n text s r p := by
  constructor
  · intro h
    rcases carriesOut_or_ends e n text s r with hcarries | ⟨total, htotal, -, o, hexhausted, ho⟩
    · exact hcarries
    · rw [ho n htotal] at h
      exact absurd h hexhausted
  · rintro ⟨p, hp⟩
    exact ⟨n, by rw [hp.expand_eq]⟩

/-- An expansion that ends carries out a number of directives, which is below its limit. It is
given up with the limits up to that number, and comes to the same with all others. -/
theorem exists_total {m : Nat} (h : ¬ Exhausted ((e.limited m).expand text s r)) :
    ∃ total < m, (∀ n, (∃ p, e.CarriesOut n text s r p) ↔ n ≤ total) ∧
      ∀ n, total < n → (e.limited n).expand text s r = (e.limited m).expand text s r := by
  rcases carriesOut_or_ends e m text s r with hcarries | ⟨total, htotal, hcarries, o, ho, heq⟩
  · exact absurd (exhausted_iff.mpr hcarries) h
  · refine ⟨total, htotal, fun n => ⟨fun hn => ?_, fun hn => ?_⟩, fun n hn => ?_⟩
    · -- with a limit beyond the total the expansion is not given up
      exact Nat.le_of_not_lt fun hlt => ho (heq n hlt ▸ exhausted_iff.mpr hn)
    · -- an expansion that ended after fewer directives would not be given up at the total
      rcases carriesOut_or_ends e n text s r with hn | ⟨fewer, hfewer, -, o', ho', heq'⟩
      · exact hn
      · have hlt : fewer < total := Nat.lt_of_lt_of_le hfewer hn
        exact absurd (heq' total hlt ▸ exhausted_iff.mpr hcarries) ho'
    · rw [heq n hn, heq m htotal]

/-- With a higher limit an expansion comes to the same, to the last variable and the last draw,
unless it was given up. If it was, it has carried out as many directives as the limit allows. So the
expansion of a text comes to one and the same with all limits that are greater than the number of
its directives, and is given up with all others. -/
theorem expand_limited (e : Engine) (text : String) (s : State) (r : ρ) :
    (∀ n m, n ≤ m → ¬ Exhausted ((e.limited n).expand text s r) →
      (e.limited m).expand text s r = (e.limited n).expand text s r) ∧
    (∀ n limit, ((e.limited n).expand text s r).result = .error (.expansionLimit limit) →
      limit = n ∧ ∃ p, e.CarriesOut n text s r p ∧
        ((e.limited n).expand text s r).state = p.state ∧
        ((e.limited n).expand text s r).rng = p.rng) ∧
    ∀ m, ¬ Exhausted ((e.limited m).expand text s r) →
      ∃ total < m, (∀ n, (∃ p, e.CarriesOut n text s r p) ↔ n ≤ total) ∧
        ∀ n, (total < n → (e.limited n).expand text s r = (e.limited m).expand text s r) ∧
          (n ≤ total → ((e.limited n).expand text s r).result = .error (.expansionLimit n)) := by
  refine ⟨fun n m hnm hn => ?_, fun n limit hlimit => ?_, fun m hm => ?_⟩
  · obtain ⟨total, htotal, -, heq⟩ := exists_total hn
    exact heq m (Nat.lt_of_lt_of_le htotal hnm)
  · obtain ⟨p, hp⟩ := exhausted_iff.mp ⟨limit, hlimit⟩
    rw [hp.expand_eq] at hlimit ⊢
    cases hlimit
    exact ⟨rfl, p, hp, rfl, rfl⟩
  · obtain ⟨total, htotal, hcarries, heq⟩ := exists_total hm
    refine ⟨total, htotal, hcarries, fun n => ⟨heq n, fun hn => ?_⟩⟩
    obtain ⟨p, hp⟩ := (hcarries n).mpr hn
    rw [hp.expand_eq]

end

/-- Two directives are carried out, and a third step finds the end of the text. -/
example : ((bare.limited 2).expand "((ID,((ID,x))))" {} zeroSource).result =
      .error (.expansionLimit 2) ∧
    ((bare.limited 3).expand "((ID,((ID,x))))" {} zeroSource).result = .ok "x" :=
  ⟨by cbv, by cbv⟩

end Engine

end Template

end ExamPaper

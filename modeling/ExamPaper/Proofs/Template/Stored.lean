import ExamPaper.Proofs.Template.Scanning
import Mathlib.Logic.Relation

/-!
# What templates store

Four operators store a value in a variable, and compute it by another call, which may be one of them
again: `SAVE,a,VAR,b,VARINT,c,1,9` is a chain of four calls that stores under three names. Names are
looked up before anything is stored, so the chain depends on the state before the first call only
(`Engine.Stores`). Values are stored on the way back, and only after everything further down the
chain has succeeded.

> A call leaves the metadata alone. If it fails, it leaves the variables alone too; otherwise only
> the names of the chain may hold new values, and no variable is lost (`frame_dispatch`).
> An expansion is a run of directives carried out one after another (`exists_steps_expandFrom`).
> Each loses no variable (`Step.keeps`), so neither does the run (`keeps_of_steps`). The expansion
> ends in the state in which it found the directive that failed (`frame_dispatch_expand`).
-/

namespace ExamPaper

namespace Template

/-- The second state has the same metadata as the first and has lost no variable. -/
def State.Keeps (s s' : State) : Prop :=
  s'.metadata = s.metadata ∧ ∀ x, s.vars.contains x = true → s'.vars.contains x = true

theorem State.Keeps.refl (s : State) : s.Keeps s := ⟨rfl, fun _ h => h⟩

theorem State.Keeps.trans {s t u : State} (hst : s.Keeps t) (htu : t.Keeps u) : s.Keeps u :=
  ⟨htu.1.trans hst.1, fun x h => htu.2 x (hst.2 x h)⟩

/-! ## The names that a call stores under -/

/-- The name under which a call of a storing operator stores a value, and the call that computes the
value. -/
def storing? : String → List String → Option (String × String × List String)
  | "SAVE", var :: key :: rest => some (var, key, rest)
  | "VAR", var :: key :: rest => some (var, key, rest)
  | "VARINT", var :: rest => some (var, "INT", rest)
  | "VARFLOAT", var :: rest => some (var, "FLOAT", rest)
  | _, _ => none

/-- In a state, a name is the first argument of a storing operator in the chain of calls that a call
makes. An operator is called only by a name that stands for nothing else. -/
inductive Engine.Stores (e : Engine) (s : State) : String → List String → String → Prop where
  | here {name : String} {args : List String} {var key : String} {rest : List String} :
      s.lookup? name = none → e.macros.get? name = none →
      storing? name args = some (var, key, rest) → Stores e s name args var
  | further {name : String} {args : List String} {var key : String} {rest : List String}
      {other : String} : s.lookup? name = none → e.macros.get? name = none →
      storing? name args = some (var, key, rest) → Stores e s key rest other →
      Stores e s name args other

example : Engine.bare.Stores {} "SAVE" ["a", "VAR", "b", "VARINT", "c", "1", "9"] "c" :=
  .further rfl rfl rfl (.further rfl rfl rfl (.here rfl rfl rfl))

/-- An operator that stores is none of those that do not. -/
theorem ofName?_eq_none_of_storing {name : String} {args : List String}
    {call : String × String × List String} (h : storing? name args = some call) :
    Operation.ofName? name = none := by
  unfold storing? at h
  split at h
  · rfl
  · rfl
  · rfl
  · rfl
  · exact absurd h (by simp)

namespace Engine

variable {e : Engine} {s : State}

/-- Only an operator that stores begins a chain. -/
theorem Stores.begins {name : String} {args : List String} {x : String}
    (h : e.Stores s name args x) :
    s.lookup? name = none ∧ e.macros.get? name = none ∧ storing? name args ≠ none := by
  cases h with
  | here hlookup htable hstoring => exact ⟨hlookup, htable, by simp [hstoring]⟩
  | further hlookup htable hstoring _ => exact ⟨hlookup, htable, by simp [hstoring]⟩

/-- A storing call stores under its first argument and under what the rest of it stores under. -/
theorem stores_iff {name : String} {args : List String} {var key : String}
    {rest : List String} (hlookup : s.lookup? name = none)
    (htable : e.macros.get? name = none) (hstoring : storing? name args = some (var, key, rest))
    (x : String) : e.Stores s name args x ↔ x = var ∨ e.Stores s key rest x := by
  constructor
  · intro h
    cases h with
    | here _ _ hstoring' =>
      obtain ⟨rfl, -⟩ := Prod.mk.inj (Option.some.inj (hstoring'.symm.trans hstoring))
      exact .inl rfl
    | further _ _ hstoring' hinner =>
      obtain ⟨-, hcall⟩ := Prod.mk.inj (Option.some.inj (hstoring'.symm.trans hstoring))
      obtain ⟨rfl, rfl⟩ := Prod.mk.inj hcall
      exact .inr hinner
  · rintro (rfl | hinner)
    · exact .here hlookup htable hstoring
    · exact .further hlookup htable hstoring hinner

/-! ## The frame of a call -/

/-- An outcome differs from the state before in the variables only. Nothing has changed if there is
an error; else nothing but what is stored has, and all of that is there. -/
structure Frame {ρ α : Type} (s : State) (stores : String → Prop) (o : Outcome ρ α) : Prop where
  metadata : o.state.metadata = s.metadata
  failed : ∀ error, o.result = .error error → o.state = s
  changed : ∀ x, o.state.vars.get? x ≠ s.vars.get? x → stores x
  kept : ∀ x, s.vars.contains x = true → o.state.vars.contains x = true
  held : ∀ text, o.result = .ok text → ∀ x, stores x → o.state.vars.contains x = true

section
variable {ρ : Type}

/-- An outcome that changes nothing has the frame of a call that stores nothing. -/
theorem frame_of_state_eq {α : Type} {stores : String → Prop} {o : Outcome ρ α}
    (hstate : o.state = s) (hstores : ∀ text, o.result = .ok text → ∀ x, ¬ stores x) :
    Frame s stores o where
  metadata := by rw [hstate]
  failed _ _ := hstate
  changed x hx := absurd (by rw [hstate]) hx
  kept x hx := by rwa [hstate]
  held text htext x hx := absurd hx (hstores text htext x)

theorem frame_of_error {stores : String → Prop} {error : TemplateError} {r : ρ} :
    Frame s stores (⟨.error error, s, r⟩ : Outcome ρ String) :=
  frame_of_state_eq rfl fun _ h => absurd h (by simp)

theorem Frame.keeps {α : Type} {stores : String → Prop} {o : Outcome ρ α}
    (h : Frame s stores o) : s.Keeps o.state := ⟨h.metadata, h.kept⟩

theorem Frame.map {α β : Type} {stores : String → Prop} {o : Outcome ρ α}
    (h : Frame s stores o) (f : α → β) : Frame s stores (o.map f) := by
  obtain ⟨result, s', r⟩ := o
  cases result with
  | error error => exact ⟨h.metadata, fun _ _ => h.failed error rfl, h.changed, h.kept, nofun⟩
  | ok a => exact ⟨h.metadata, nofun, h.changed, h.kept, fun _ _ => h.held a rfl⟩

/-- Storing the value of a call adds one name to those that the call stores under. -/
theorem Frame.storeResult {stores stores' : String → Prop} {o : Outcome ρ String}
    (h : Frame s stores o) {var : String} (hstores : ∀ x, stores' x ↔ x = var ∨ stores x)
    (reply : String) : Frame s stores' (storeResult var reply o) := by
  obtain ⟨result, s', r⟩ := o
  cases result with
  | error error =>
    obtain rfl : s' = s := h.failed error rfl
    exact frame_of_error
  | ok value =>
    -- the variables are those after the call, with the value under the name
    have hcontains : ∀ x, x = var ∨ s'.vars.contains x = true →
        (s'.store var value).vars.contains x = true := by
      intro x hx
      show (s'.vars.insert var value).contains x = true
      rw [NameMap.contains_insert, Bool.or_eq_true, beq_iff_eq]
      exact hx
    have hstored : Engine.storeResult var reply ⟨.ok value, s', r⟩ =
        ⟨.ok reply, s'.store var value, r⟩ := rfl
    rw [hstored]
    refine ⟨h.metadata, fun _ herror => absurd herror (by simp), ?_,
      fun x hx => hcontains x (.inr (h.kept x hx)), ?_⟩
    · intro x hx
      by_cases hvar : x = var
      · exact (hstores x).mpr (.inl hvar)
      · rw [State.get?_store, if_neg hvar] at hx
        exact (hstores x).mpr (.inr (h.changed x hx))
    · intro text htext x hx
      exact hcontains x (((hstores x).mp hx).imp_right (h.held value rfl x))

end

section
variable {ρ : Type} [Draws ρ]

/-- What a call stores is found by going down its chain of calls. -/
theorem frame_dispatch (name : String) (args : List String) (s : State) (r : ρ) :
    Frame s (e.Stores s name args) (e.dispatch name args s r) := by
  fun_induction dispatch e name args s r
  -- each of the four operators stores one name more than the call that it makes
  case case3 hlookup htable ih | case5 hlookup htable ih | case7 hlookup htable ih |
      case9 hlookup htable ih =>
    exact ih.storeResult (stores_iff hlookup htable rfl) _
  -- what a name stands for in the state or in the table begins no chain, nor does another operator
  case case1 hlookup =>
    exact frame_of_state_eq rfl fun _ _ _ h => absurd (hlookup.symm.trans h.begins.1) (by simp)
  case case2 hlookup _ htable =>
    exact frame_of_state_eq rfl fun _ _ _ h => absurd (htable.symm.trans h.begins.2.1) (by simp)
  case case12 hop _ _ _ _ _ =>
    refine frame_of_state_eq rfl fun _ _ _ h => ?_
    obtain ⟨call, hcall⟩ := Option.ne_none_iff_exists'.mp h.begins.2.2
    exact absurd (hop.symm.trans (ofName?_eq_none_of_storing hcall)) (by simp)
  all_goals exact frame_of_error

/-- The text after a directive is replaced without a trace in the state; a directive that takes the
rest of its line along calls nothing. -/
theorem frame_carryOut (body after : List Char) (s : State) (r : ρ) :
    Frame s (e.Stores s (splitDirective body).1 (splitDirective body).2)
      (e.carryOut body after s r) := by
  unfold carryOut
  dsimp only
  split
  case isTrue hname =>
    -- the name is no operator that stores, whatever else it stands for
    refine frame_of_state_eq rfl fun _ _ _ h => ?_
    rw [hname] at h
    exact h.begins.2.2 rfl
  case isFalse => exact (frame_dispatch _ _ s r).map _

/-! ## The steps of an expansion -/

/-- How far an expansion has come, and how many directives it may still carry out. -/
structure Progress (ρ : Type) where
  left : Nat
  scanner : Scanner
  state : State
  rng : ρ

/-- One directive is carried out. -/
inductive Step (e : Engine) (p : Progress ρ) : Progress ρ → Prop where
  | directive {left : Nat} {body : List Char} {scanner : Scanner} {rest : List Char} {s : State}
      {r : ρ} : p.left = left + 1 → p.scanner.next = .directive body scanner →
      e.carryOut body scanner.rest p.state p.rng = ⟨.ok rest, s, r⟩ →
      Step e p ⟨left, { scanner with rest }, s, r⟩

/-- An expansion ends: at its limit, at the end of the text, at a directive without an end, or at a
directive that fails. Whichever it is, the state is as the steps have left it. -/
inductive Ends (e : Engine) (p : Progress ρ) : Outcome ρ (List Char) → Prop where
  | limit : p.left = 0 → Ends e p ⟨.error (.expansionLimit e.maxSteps), p.state, p.rng⟩
  | finished {text : List Char} : p.left ≠ 0 → p.scanner.next = .finished text →
      Ends e p ⟨.ok (unescape text), p.state, p.rng⟩
  | unterminated {text : List Char} : p.left ≠ 0 → p.scanner.next = .unterminated text →
      Ends e p ⟨.error (unterminatedError text), p.state, p.rng⟩
  | failed {body : List Char} {scanner : Scanner} {error : TemplateError} {r : ρ} :
      p.left ≠ 0 → p.scanner.next = .directive body scanner →
      e.carryOut body scanner.rest p.state p.rng = ⟨.error error, p.state, r⟩ →
      Ends e p ⟨.error error, p.state, r⟩

/-- A step loses no variable. -/
theorem Step.keeps {p p' : Progress ρ} (h : e.Step p p') : p.state.Keeps p'.state := by
  cases h with
  | @directive _ body scanner _ _ _ _ _ hcarried =>
    have hframe := frame_carryOut (e := e) body scanner.rest p.state p.rng
    rw [hcarried] at hframe
    exact hframe.keeps

/-- Steps lose no variable. -/
theorem keeps_of_steps {p p' : Progress ρ} (h : Relation.ReflTransGen e.Step p p') :
    p.state.Keeps p'.state := by
  induction h with
  | refl => exact .refl _
  | tail _ hstep ih => exact ih.trans hstep.keeps

/-- The end of a run leaves the state as it is. -/
theorem Ends.state_eq {p : Progress ρ} {o : Outcome ρ (List Char)} (h : e.Ends p o) :
    o.state = p.state := by
  cases h <;> rfl

/-- An expansion is a run of steps, and what it comes to is where the run ends. -/
theorem exists_steps_expandFrom : ∀ (left : Nat) (scanner : Scanner) (s : State) (r : ρ),
    ∃ p, Relation.ReflTransGen e.Step ⟨left, scanner, s, r⟩ p ∧
      e.Ends p (e.expandFrom left scanner s r) := by
  intro left
  induction left with
  | zero =>
    intro scanner s r
    exact ⟨_, .refl, .limit rfl⟩
  | succ left ih =>
    intro scanner s r
    cases hnext : scanner.next with
    | finished text =>
      rw [expandFrom, hnext]
      exact ⟨_, .refl, .finished (Nat.succ_ne_zero left) hnext⟩
    | unterminated text =>
      rw [expandFrom, hnext]
      exact ⟨_, .refl, .unterminated (Nat.succ_ne_zero left) hnext⟩
    | directive body scanner' =>
      rw [expandFrom_directive hnext]
      have hframe := frame_carryOut (e := e) body scanner'.rest s r
      rcases hcarried : e.carryOut body scanner'.rest s r with ⟨result, s', r'⟩
      rw [hcarried] at hframe
      cases result with
      | error error =>
        obtain rfl : s' = s := hframe.failed error rfl
        exact ⟨_, .refl, .failed (Nat.succ_ne_zero left) hnext hcarried⟩
      | ok rest =>
        obtain ⟨p, hsteps, hends⟩ := ih { scanner' with rest } s' r'
        exact ⟨p, .head (.directive rfl hnext hcarried) hsteps, hends⟩

/-- Calls and expansions change variables only, none of which is lost. A call that fails changes
nothing, and one that succeeds only the names that its chain of calls stores under. An expansion
carries out one directive after another, and where one fails, that one changes nothing. -/
theorem frame_dispatch_expand (e : Engine) :
    (∀ (name : String) (args : List String) (s : State) (r : ρ),
      Frame s (e.Stores s name args) (e.dispatch name args s r)) ∧
    ∀ (text : String) (s : State) (r : ρ),
      s.Keeps (e.expand text s r).state ∧
      ∃ p o, Relation.ReflTransGen e.Step ⟨e.maxSteps, .ofText text.toList, s, r⟩ p ∧
        e.Ends p o ∧ e.expand text s r = o.map String.ofList := by
  refine ⟨frame_dispatch, fun text s r => ?_⟩
  obtain ⟨p, hsteps, hends⟩ := exists_steps_expandFrom (e := e) e.maxSteps (.ofText text.toList) s r
  refine ⟨?_, p, _, hsteps, hends, rfl⟩
  have hstate : (e.expand text s r).state = p.state := hends.state_eq
  rw [hstate]
  exact keeps_of_steps hsteps

end

end Engine

end Template

end ExamPaper

import ExamPaper.Proofs.Template.Fault

/-!
# Operations with every partial step checked

Some steps of an operation are partial: signed and unsigned arithmetic in 64 bits, a draw, a position
in a list, printing with a number of decimals. A checked operation carries them out one by one, and
is broken off at the first that is impossible.

> A checked operation ends as the operation does, unless that ends with an error that stands for a
> fault (`Operation.runChecked_eq`).
-/

namespace ExamPaper

namespace Template

/-! ## Partial steps -/

namespace Checked

variable {ρ : Type} [Draws ρ]

/-- A result of signed arithmetic. -/
def signed (n : Int) : Checked Int := if fitsSigned n then .ok n else .error .overflow

/-- A result of unsigned arithmetic. -/
def unsigned (n : Nat) : Checked Nat := if n < wordLimit then .ok n else .error .overflow

/-- An index below `n`. -/
def below (n : Nat) (r : ρ) : Checked (Nat × ρ) :=
  if n = 0 then .error .emptyRange else .ok (Draws.below n r)

/-- A number from zero to `n`, which is signed. -/
def upTo (n : Int) (r : ρ) : Checked (Nat × ρ) :=
  if n < 0 then .error .emptyRange else .ok (Draws.below (n.toNat + 1) r)

/-- A float of a range: its bounds and their distance have to be finite. -/
def within (lo hi : Float) (r : ρ) : Checked (Float × ρ) :=
  if lo.isFinite && hi.isFinite && (lo < hi) && (hi - lo).isFinite then .ok (Draws.within lo hi r)
  else .error .emptyRange

/-- The value at a position. -/
def get (values : List String) (k : Nat) : Checked String :=
  match values[k]? with
  | none => .error .index
  | some value => .ok value

/-- The values before a position and those from it on. -/
def splitAt (k : Nat) (values : List String) : Checked (List String × List String) :=
  if values.length < k then .error .index else .ok (values.take k, values.drop k)

/-- A number with some decimals. -/
def fixed (places : Nat) (x : Float) : Checked String :=
  if maxPlaces < places then .error (.precision places) else .ok (Decimal.fixed places x)

end Checked

/-! ## Checked operations -/

/-- The difference, if it fits. -/
def sub? (m n : Int) : Option Int := if fitsSigned (m - n) then some (m - n) else none

/-- The quotient without its fraction, if there is one and it fits. -/
def div? (m n : Int) : Option Int :=
  if n = 0 then none else if fitsSigned (m.tdiv n) then some (m.tdiv n) else none

/-- How many steps fit between the bounds. -/
def IntRange.signedSteps (range : IntRange) : Except TemplateError Int :=
  if range.step ≤ 0 then .error (.badNumber "INT" (Int.repr range.step))
  else if range.max < range.min then .error (.emptyChoice "INT")
  else match (sub? range.max range.min).bind (div? · range.step) with
    | none => .error (.badNumber "INT" (Int.repr range.min ++ ".." ++ Int.repr range.max))
    | some count => .ok count

/-- The value after `k` steps. -/
def IntRange.signedValue (range : IntRange) (k : Nat) : Checked Int := do
  let way ← Checked.signed (k * range.step)
  Checked.signed (range.min + way)

/-- The arguments to choose from. -/
def choicesExceptChecked : List String → Checked (Except TemplateError (List String))
  | [] => .ok (.error (.arity "OPEXCEPT" "at least 1" 0))
  | countText :: rest =>
    match readCount "OPEXCEPT" countText with
    | .error e => .ok (.error e)
    | .ok count =>
      if rest.length < count then do
        let needed ← Checked.unsigned (count + 1)
        .ok (.error (.arity "OPEXCEPT" ("at least " ++ Nat.repr needed) (rest.length + 1)))
      else do
        let (excluded, values) ← Checked.splitAt count rest
        match values.filter fun value => !excluded.contains value with
        | [] => .ok (.error (.emptyChoice "OPEXCEPT"))
        | values => .ok (.ok values)

/-- A text several times over; the size of the result is computed before anything else. -/
def repeatedChecked : List String → Checked (Except TemplateError String)
  | [text, times] =>
    match readInt "FOR" times with
    | .error e => .ok (.error e)
    | .ok n =>
      if n < 0 then .ok (.ok "")
      else
        let size := text.utf8ByteSize * n.toNat
        if size < wordLimit && size ≤ maxRepetition then do
          let _ ← Checked.unsigned size
          .ok (.ok (String.ofList (List.replicate n.toNat text.toList).flatten))
        else .ok (.error (.badNumber "FOR" times))
  | args => .ok (.error (.arity "FOR" "2" args.length))

/-- One of several values. -/
def pickChecked {ρ : Type} [Draws ρ] (name : String) (values : List String) (r : ρ) :
    Checked (Except TemplateError String × ρ) :=
  if values.isEmpty then .ok (.error (.emptyChoice name), r)
  else do
    let (k, r) ← Checked.below values.length r
    let value ← Checked.get values k
    .ok (.ok value, r)

/-- The text of an operation. -/
def Operation.runChecked {ρ : Type} [Draws ρ] (op : Operation) (today : String) (s : State)
    (args : List String) (r : ρ) : Checked (Except TemplateError String × ρ) :=
  match op with
  | int =>
    match IntRange.ofArgs args with
    | .error e => .ok (.error e, r)
    | .ok range => match range.signedSteps with
      | .error e => .ok (.error e, r)
      | .ok steps => do
        let (k, r) ← Checked.upTo steps r
        let value ← range.signedValue k
        .ok (.ok (Int.repr value), r)
  | float =>
    match FloatRange.ofArgs args with
    | .error e => .ok (.error e, r)
    | .ok range => match range.check with
      | .error e => .ok (.error e, r)
      | .ok () => do
        let (x, r) ← if range.min < range.max then Checked.within range.min range.max r
          else .ok (range.min, r)
        let text ← Checked.fixed range.places x
        .ok (.ok text, r)
  | floatRange =>
    match FloatSteps.ofArgs args with
    | .error e => .ok (.error e, r)
    | .ok steps => do
      let (k, r) ← Checked.below steps.count r
      let text ← Checked.fixed steps.places (steps.value k)
      .ok (.ok text, r)
  | choice => pickChecked "OP" args r
  | choiceExcept => do
    match ← choicesExceptChecked args with
    | .error e => .ok (.error e, r)
    | .ok values => pickChecked "OPEXCEPT" values r
  | repetition => do
    let result ← repeatedChecked args
    .ok (result, r)
  | op => .ok (op.run today s args r)

/-! ## Arithmetic that fits -/

/-- The numbers that fit in 64 bits, as an interval. -/
theorem fitsSigned_iff {n : Int} :
    fitsSigned n = true ↔ -(signedLimit : Int) ≤ n ∧ n < (signedLimit : Int) := by
  simp [fitsSigned]

/-- A number between two that fit fits. -/
theorem fitsSigned_of_between {lo n hi : Int} (hlo : fitsSigned lo = true)
    (hhi : fitsSigned hi = true) (hle : lo ≤ n) (hle' : n ≤ hi) : fitsSigned n = true := by
  rw [fitsSigned_iff] at hlo hhi ⊢
  exact ⟨Int.le_trans hlo.1 hle, Int.lt_of_le_of_lt hle' hhi.2⟩

/-- An integer that was read fits. -/
theorem fitsSigned_of_readInt {name value : String} {n : Int} (h : readInt name value = .ok n) :
    fitsSigned n = true := by
  unfold readInt at h
  split at h
  · rename_i hread
    obtain rfl := Except.ok.inj h
    unfold Text.int64? Text.intWithin? at hread
    rw [fitsSigned_iff]
    split at hread
    · -- below zero there is one number more
      obtain ⟨k, hk, rfl⟩ := Option.map_eq_some_iff.mp hread
      obtain ⟨size, hsize, hcast⟩ := Option.bind_eq_some_iff.mp hk
      obtain rfl := Option.some.inj hcast
      have hle : size ≤ signedLimit := by simpa using (Option.filter_eq_some_iff.mp hsize).2
      have hpos : 0 < signedLimit := by decide
      omega
    · obtain ⟨k, hk, rfl⟩ := Option.map_eq_some_iff.mp hread
      have hlt : k < signedLimit := by simpa using (Option.filter_eq_some_iff.mp hk).2
      show -(signedLimit : Int) ≤ (k : Int) ∧ (k : Int) < (signedLimit : Int)
      omega
  · exact absurd h (by simp)

/-- A value that was computed from another one. -/
theorem exists_of_bind_ok {ε α β : Type} {result : Except ε α} {f : α → Except ε β} {b : β}
    (h : (result >>= f) = .ok b) :
    ∃ a, result = .ok a ∧ f a = .ok b := by
  cases result with
  | error e => exact absurd h (by simp [bind, Except.bind])
  | ok a => exact ⟨a, rfl, h⟩

namespace IntRange

/-- The bounds that were read fit. -/
theorem fits_of_ofArgs {args : List String} {range : IntRange} (h : ofArgs args = .ok range) :
    fitsSigned range.min = true ∧ fitsSigned range.max = true := by
  unfold ofArgs at h
  split at h
  · obtain ⟨min, hmin, h⟩ := exists_of_bind_ok h
    obtain ⟨max, hmax, h⟩ := exists_of_bind_ok h
    obtain rfl := Except.ok.inj h
    exact ⟨fitsSigned_of_readInt hmin, fitsSigned_of_readInt hmax⟩
  · obtain ⟨min, hmin, h⟩ := exists_of_bind_ok h
    obtain ⟨max, hmax, h⟩ := exists_of_bind_ok h
    obtain ⟨step, -, h⟩ := exists_of_bind_ok h
    obtain rfl := Except.ok.inj h
    exact ⟨fitsSigned_of_readInt hmin, fitsSigned_of_readInt hmax⟩
  · exact absurd h (by simp)

/-- The steps between bounds that differ by what fits. -/
structure Spans (range : IntRange) (steps : Nat) : Prop where
  step_pos : 0 < range.step
  min_le_max : range.min ≤ range.max
  fits : fitsSigned (range.max - range.min) = true
  steps_eq : (steps : Int) = (range.max - range.min) / range.step

/-- A range with a number of steps reaches from its first number over all of them. -/
theorem spans_of_steps {range : IntRange} {steps : Nat} (h : range.steps = .ok steps) :
    range.Spans steps := by
  unfold IntRange.steps at h
  split at h
  · exact absurd h (by simp)
  rename_i hstep
  split at h
  · exact absurd h (by simp)
  rename_i hle
  split at h
  · rename_i hfits
    have hpos : 0 < range.step := Int.not_le.mp hstep
    have hmin : range.min ≤ range.max := Int.not_lt.mp hle
    refine ⟨hpos, hmin, hfits, ?_⟩
    rw [← Except.ok.inj h]
    exact Int.toNat_of_nonneg (Int.ediv_nonneg (Int.sub_nonneg_of_le hmin) (Int.le_of_lt hpos))
  · exact absurd h (by simp)

/-- The way after the first steps is no longer than the span. -/
theorem Spans.way_le {range : IntRange} {steps : Nat} (h : range.Spans steps) {k : Nat}
    (hk : k ≤ steps) : 0 ≤ k * range.step ∧ k * range.step ≤ range.max - range.min := by
  have hsteps : (k : Int) ≤ (range.max - range.min) / range.step :=
    h.steps_eq ▸ Int.ofNat_le.mpr hk
  exact ⟨Int.mul_nonneg (Int.natCast_nonneg k) (Int.le_of_lt h.step_pos),
    Int.le_trans (Int.mul_le_mul_of_nonneg_right hsteps (Int.le_of_lt h.step_pos))
      (Int.ediv_mul_le _ (Int.ne_of_gt h.step_pos))⟩

/-- The way after the first steps fits, and so does the value, which is between the bounds. -/
theorem Spans.fits_value {range : IntRange} {steps : Nat} (h : range.Spans steps)
    (hmin : fitsSigned range.min = true) (hmax : fitsSigned range.max = true) {k : Nat}
    (hk : k ≤ steps) :
    fitsSigned (k * range.step) = true ∧ fitsSigned (range.min + k * range.step) = true := by
  obtain ⟨hnonneg, hle⟩ := h.way_le hk
  exact ⟨fitsSigned_of_between (by decide : fitsSigned 0 = true) h.fits hnonneg hle,
    fitsSigned_of_between hmin hmax (by omega) (by omega)⟩

/-- No step of computing the values overflows. -/
theorem Spans.signedValue_eq {range : IntRange} {steps : Nat} (h : range.Spans steps)
    (hmin : fitsSigned range.min = true) (hmax : fitsSigned range.max = true) {k : Nat}
    (hk : k ≤ steps) : range.signedValue k = .ok (range.min + k * range.step) := by
  obtain ⟨hfitsWay, hfitsValue⟩ := h.fits_value hmin hmax hk
  have hway : Checked.signed (k * range.step) = .ok (k * range.step) := if_pos hfitsWay
  have hvalue : Checked.signed (range.min + k * range.step) = .ok (range.min + k * range.step) :=
    if_pos hfitsValue
  unfold signedValue
  rw [hway]
  exact hvalue

/-- Signed arithmetic counts the same steps. -/
theorem signedSteps_eq (range : IntRange) : range.signedSteps = range.steps.map Int.ofNat := by
  unfold signedSteps IntRange.steps
  split
  · rfl
  rename_i hstep
  split
  · rfl
  rename_i hle
  by_cases hfits : fitsSigned (range.max - range.min) = true
  · -- the quotient of a span that fits is no larger, and both ways of dividing agree on it
    have hpos : 0 < range.step := Int.not_le.mp hstep
    have hspan : 0 ≤ range.max - range.min := Int.sub_nonneg_of_le (Int.not_lt.mp hle)
    have hcount : 0 ≤ (range.max - range.min) / range.step :=
      Int.ediv_nonneg hspan (Int.le_of_lt hpos)
    have hquotient : fitsSigned ((range.max - range.min) / range.step) = true :=
      fitsSigned_of_between (by decide : fitsSigned 0 = true) hfits hcount
        (Int.ediv_le_self _ hspan)
    have hdiv : div? (range.max - range.min) range.step =
        some ((range.max - range.min) / range.step) := by
      rw [div?, if_neg (Int.ne_of_gt hpos), Int.tdiv_eq_ediv_of_nonneg hspan, if_pos hquotient]
    rw [sub?, if_pos hfits, Option.bind_some, hdiv, if_pos hfits]
    exact congrArg Except.ok (Int.toNat_of_nonneg hcount).symm
  · rw [sub?, if_neg hfits, if_neg hfits]
    rfl

end IntRange

/-- Bounds that were checked are those of a range to draw from, unless they are the same. -/
theorem FloatRange.within_of_check {ρ : Type} [Draws ρ] {range : FloatRange}
    (h : range.check = .ok ()) (hlt : range.min < range.max) (r : ρ) :
    Checked.within range.min range.max r = .ok (Draws.within range.min range.max r) := by
  unfold FloatRange.check at h
  split at h
  · exact absurd h (by simp)
  rename_i hmin
  split at h
  · exact absurd h (by simp)
  rename_i hmax
  split at h
  · exact absurd h (by simp)
  split at h
  · exact absurd h (by simp)
  rename_i hspan
  simp only [Bool.not_eq_true', Bool.not_eq_false] at hmin hmax hspan
  unfold Checked.within
  rw [if_pos]
  simp [hmin, hmax, hlt, hspan]

/-- Values are drawn from a range that is not empty. -/
theorem FloatSteps.count_ne_zero {args : List String} {steps : FloatSteps}
    (h : FloatSteps.ofArgs args = .ok steps) : steps.count ≠ 0 := by
  have hofTexts : ∀ {min max step : String} {places : Nat},
      ofTexts min max step places = .ok steps → steps.count ≠ 0 := by
    intro min max step places h
    unfold ofTexts at h
    obtain ⟨lo, -, h⟩ := exists_of_bind_ok h
    obtain ⟨hi, -, h⟩ := exists_of_bind_ok h
    obtain ⟨distance, -, h⟩ := exists_of_bind_ok h
    repeat
      split at h
      · exact absurd h (by simp)
    dsimp only at h
    split at h
    · exact absurd h (by simp)
    · rename_i hcount
      rw [← Except.ok.inj h]
      exact hcount
  unfold ofArgs at h
  split at h
  · exact hofTexts h
  · obtain ⟨places, -, h⟩ := exists_of_bind_ok h
    exact hofTexts h
  · exact absurd h (by simp)

/-! ## Operations -/

namespace Operation

variable {ρ : Type}

/-- The result of an operation and the random source after it, if the result stands for no fault. -/
def settled (o : Except TemplateError String × ρ) : Checked (Except TemplateError String × ρ) :=
  settle o.1 o

theorem settled_error {α : Type} {result : Except TemplateError α} (h : Faultless result)
    {e : TemplateError} (he : result = .error e) (r : ρ) :
    settled (.error e, r) = .ok (.error e, r) :=
  settle_of_faultless (faultless_error (h e he)) _

/-- To print a number breaks off where the decimals are too many, and there only. -/
theorem settled_printFixed (name : String) (places : Nat) (x : Float) (r : ρ) :
    settled (printFixed name places x, r) =
      (Checked.fixed places x).map fun text => (.ok text, r) := by
  unfold printFixed Checked.fixed
  split <;> rfl

variable [Draws ρ]

/-- `INT` breaks off where the plain operation has an error that stands for a fault. -/
theorem runChecked_int (today : String) (s : State) (args : List String) (r : ρ) :
    int.runChecked today s args r = settled (int.run today s args r) := by
  unfold runChecked run
  dsimp only
  cases hrange : IntRange.ofArgs args with
  | error e => exact (settled_error (IntRange.faultless_ofArgs args) hrange r).symm
  | ok range =>
    dsimp only
    rw [IntRange.signedSteps_eq]
    cases hsteps : range.steps with
    | error e => exact (settled_error (IntRange.faultless_steps range) hsteps r).symm
    | ok steps =>
      obtain ⟨hmin, hmax⟩ := IntRange.fits_of_ofArgs hrange
      have hk := Draws.below_lt (n := steps + 1) r (Nat.succ_pos steps)
      have hdraw : Checked.upTo (Int.ofNat steps) r = .ok (Draws.below (steps + 1) r) :=
        if_neg (Int.not_lt.mpr (Int.natCast_nonneg steps))
      have hvalue := (IntRange.spans_of_steps hsteps).signedValue_eq hmin hmax
        (Nat.le_of_lt_succ hk)
      dsimp only [Except.map]
      rw [hdraw]
      dsimp only [bind, Except.bind]
      rw [hvalue]
      rfl

/-- `FLOAT` breaks off where the plain operation has an error that stands for a fault. -/
theorem runChecked_float (today : String) (s : State) (args : List String) (r : ρ) :
    float.runChecked today s args r = settled (float.run today s args r) := by
  unfold runChecked run
  dsimp only
  cases hrange : FloatRange.ofArgs args with
  | error e => exact (settled_error (FloatRange.faultless_ofArgs args) hrange r).symm
  | ok range =>
    dsimp only
    cases hcheck : range.check with
    | error e => exact (settled_error (FloatRange.faultless_check range) hcheck r).symm
    | ok _ =>
      dsimp only
      rw [settled_printFixed]
      split
      · rw [FloatRange.within_of_check hcheck ‹_› r]
        rfl
      · rfl

/-- `FLOATRANGE` breaks off where the plain operation has an error that stands for a fault. -/
theorem runChecked_floatRange (today : String) (s : State) (args : List String) (r : ρ) :
    floatRange.runChecked today s args r = settled (floatRange.run today s args r) := by
  unfold runChecked run
  dsimp only
  cases hsteps : FloatSteps.ofArgs args with
  | error e => exact (settled_error (FloatSteps.faultless_ofArgs args) hsteps r).symm
  | ok steps =>
    have hdraw : Checked.below steps.count r = .ok (Draws.below steps.count r) :=
      if_neg (FloatSteps.count_ne_zero hsteps)
    dsimp only
    rw [settled_printFixed, hdraw]
    rfl

/-- The value that is drawn is one of the values. -/
theorem pickChecked_eq {name : String} (values : List String) (r : ρ) :
    pickChecked name values r = .ok (pick name values r) := by
  cases values with
  | nil => rfl
  | cons first rest =>
    have hk := Draws.below_lt (n := rest.length + 1) r (Nat.succ_pos _)
    have hget : Checked.get (first :: rest) (Draws.below (rest.length + 1) r).1 =
        .ok ((first :: rest).getD (Draws.below (rest.length + 1) r).1 first) := by
      unfold Checked.get
      rw [List.getD_eq_getElem?_getD, List.getElem?_eq_getElem hk]
      rfl
    unfold pickChecked pick
    show (Checked.get (first :: rest) (Draws.below (rest.length + 1) r).1 >>= _) = _
    rw [hget]
    rfl

/-- Counting the choices of `OPEXCEPT` breaks off where the sum overflows. -/
theorem choicesExceptChecked_eq (args : List String) :
    choicesExceptChecked args = settle (choicesExcept args) (choicesExcept args) := by
  cases args with
  | nil => rfl
  | cons countText rest =>
    unfold choicesExceptChecked choicesExcept
    dsimp only
    cases hcount : readCount "OPEXCEPT" countText with
    | error e =>
      exact (settle_of_faultless (faultless_error (faultless_readCount _ _ e hcount)) _).symm
    | ok count =>
      dsimp only [bind, Except.bind]
      by_cases hlt : rest.length < count
      · rw [if_pos hlt, if_pos hlt]
        unfold Checked.unsigned
        by_cases hfits : count + 1 < wordLimit
        · rw [if_pos hfits, if_pos hfits]
          rfl
        · rw [if_neg hfits, if_neg hfits]
          rfl
      · have hsplit : Checked.splitAt count rest = .ok (rest.take count, rest.drop count) :=
          if_neg hlt
        rw [if_neg hlt, if_neg hlt, hsplit]
        dsimp only
        cases (rest.drop count).filter fun value => !(rest.take count).contains value <;> rfl

/-- `OPEXCEPT` breaks off where the plain operation has an error that stands for a fault. -/
theorem runChecked_choiceExcept (today : String) (s : State) (args : List String) (r : ρ) :
    choiceExcept.runChecked today s args r = settled (choiceExcept.run today s args r) := by
  unfold runChecked run
  dsimp only
  rw [choicesExceptChecked_eq]
  cases choicesExcept args with
  | error e =>
    unfold settled settle
    cases hfault : fault? e with
    | none => dsimp only; rw [hfault]; rfl
    | some fault => dsimp only; rw [hfault]; rfl
  | ok values =>
    exact (pickChecked_eq values r).trans (settle_of_faultless (faultless_pick values r) _).symm

/-- A text that is repeated is small enough for its size to be computed. -/
theorem repeatedChecked_eq (args : List String) : repeatedChecked args = .ok (repeated args) := by
  match args with
  | [] | [_] | _ :: _ :: _ :: _ => rfl
  | [text, times] =>
    unfold repeatedChecked repeated
    dsimp only
    cases hcount : readInt "FOR" times with
    | error e => rfl
    | ok n =>
      dsimp only [bind, Except.bind]
      by_cases hneg : n < 0
      · rw [if_pos hneg]
        simp [hneg]
      rw [if_neg hneg]
      by_cases hempty : text = ""
      · -- an empty text stays empty, and its size is zero
        subst hempty
        simp [hneg, Checked.unsigned, wordLimit]
      by_cases hsize : text.utf8ByteSize * n.toNat ≤ maxRepetition
      · have hfits : text.utf8ByteSize * n.toNat < wordLimit :=
          Nat.lt_of_le_of_lt hsize (by decide)
        simp [hneg, hempty, hsize, hfits, Checked.unsigned]
      · simp [hneg, hempty, hsize]

/-- **Checked operations.** With every partial step checked, an operation breaks off where its
result stands for a fault, and ends as it does without the checks everywhere else. -/
theorem runChecked_eq (op : Operation) (today : String) (s : State) (args : List String) (r : ρ) :
    op.runChecked today s args r = settled (op.run today s args r) := by
  cases op with
  | int => exact runChecked_int today s args r
  | float => exact runChecked_float today s args r
  | floatRange => exact runChecked_floatRange today s args r
  | choice => exact (pickChecked_eq args r).trans (settle_of_faultless (faultless_pick args r) _).symm
  | choiceExcept => exact runChecked_choiceExcept today s args r
  | repetition =>
    have hrun : repetition.runChecked today s args r =
        (repeatedChecked args).map fun result => (result, r) := rfl
    rw [hrun, repeatedChecked_eq]
    exact (settle_of_faultless (faultless_repeated args) _).symm
  | cases => exact (settle_of_faultless (faultless_run today s args r).1 _).symm
  | identity => exact (settle_of_faultless (faultless_run today s args r).2.1 _).symm
  | calculation => exact (settle_of_faultless (faultless_run today s args r).2.2.1 _).symm
  | quote => exact (settle_of_faultless (faultless_run today s args r).2.2.2 _).symm
  | date => rfl
  | quoteComma => rfl

end Operation

end Template

end ExamPaper

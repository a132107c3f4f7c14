import ExamPaper.Proofs.Template.Checked
import ExamPaper.Proofs.Text.Blank
import Mathlib.Algebra.GroupWithZero.Nat
import Mathlib.Data.List.Forall2
import Mathlib.Data.List.Induction

/-!
# Calculations as trees

The tokens of a calculation list a tree in postfix order: names and numbers are its leaves, and an
operator comes after what it is applied to. What a token is depends on the state. A token that is
the name of a metadata entry or of a variable is a leaf, even if it is spelled like an operator
(`Expression.Proper`).

> A calculation has a value exactly if its tokens list a tree that has this value, and it lists one
> tree at most (`evaluate_iff_tree`). Sum, difference and product of integers are exact integers as
> long as they fit, and floats beyond that.

The value of a tree is worked out from its leaves, the left operand before the right one. Carrying
out the listing of a tree on a stack puts that value on the stack, or ends with the same failure
(`foldlM_listing`). In the other direction, a stack that is left holds the values of trees that the
tokens list one after another (`exists_listed`).
-/

namespace ExamPaper

namespace Calculator

/-! ## Operators -/

namespace Binary

/-- The token of an operator. -/
def sign : Binary → String
  | round => "ROUND"
  | add => "+"
  | sub => "-"
  | mul => "*"
  | div => "/"

/-- The result on integers, for the operators that have one. -/
def onInts? : Binary → Int → Int → Option Int
  | add, m, n => some (m + n)
  | sub, m, n => some (m - n)
  | mul, m, n => some (m * n)
  | round, _, _ | div, _, _ => none

/-- The result on floats. -/
def onFloats : Binary → Float → Float → Except Failure Float
  | round, a, b =>
    if b < 0.0 || !Decimal.isWhole b then .error (.partialDecimals b)
    else .ok ((a * Float.pow 10.0 b).round / Float.pow 10.0 b)
  | add, a, b => .ok (a + b)
  | sub, a, b => .ok (a - b)
  | mul, a, b => .ok (a * b)
  | div, a, b => if b == 0.0 then .error .divisionByZero else .ok (a / b)

/-- The exact result of two integers, if there is one and it fits. -/
def fitting? (op : Binary) : Quantity → Quantity → Option Int
  | .int m, .int n => (op.onInts? m n).filter fitsSigned
  | _, _ => none

/-- The result on two operands. -/
def result (op : Binary) (left right : Quantity) : Except Failure Quantity :=
  match op.fitting? left right with
  | some n => .ok (.int n)
  | none => (op.onFloats left.toFloat right.toFloat).map .float

end Binary

/-- A result is the exact one if it fits, and the rounded one else. -/
theorem exactOr_eq (k : Int) (x : Float) :
    (.ok (exactOr k x) : Except Failure Quantity) =
      match (some k).filter fitsSigned with
      | some n => .ok (.int n)
      | none => .ok (.float x) := by
  unfold exactOr
  cases hfits : fitsSigned k <;> simp [Option.filter, hfits]

/-- The result of a binary operator is the exact one where it is defined and fits, and the one on
floats else. -/
theorem combine_eq (op : Binary) (left right : Quantity) :
    combine op left right = op.result left right := by
  cases op with
  | add | sub | mul =>
    cases left <;> cases right
    case int.int m n => exact exactOr_eq _ _
    all_goals rfl
  | div =>
    have hdiv : combine .div left right =
        (Binary.div.onFloats left.toFloat right.toFloat).map .float := by
      unfold combine Binary.onFloats
      dsimp only
      split <;> rfl
    rw [hdiv]
    cases left <;> cases right <;> rfl
  | round =>
    have hround : combine .round left right =
        (Binary.round.onFloats left.toFloat right.toFloat).map .float := by
      unfold combine round Binary.onFloats
      dsimp only
      split <;> rfl
    rw [hround]
    cases left <;> cases right <;> rfl

/-! ## Tokens -/

/-- The token of an operator. -/
def Operator.token : Operator → String
  | .int => "INT"
  | .binary op => op.sign

/-- There are six operators, each with one spelling. -/
theorem ofToken?_eq_some_iff {token : String} {op : Operator} :
    Operator.ofToken? token = some op ↔ token = op.token := by
  constructor
  · intro h
    unfold Operator.ofToken? at h
    split at h <;> cases h <;> rfl
  · rintro rfl
    cases op with
    | int => rfl
    | binary op => cases op <;> rfl

/-- The text of a number may have blanks around it and nothing else: what is between them has to be
the text of a float as it stands. -/
theorem readFloat_eq {text : String} {result : Except Failure Float} :
    readFloat text = result ↔ ∃ inner : String, Text.Trimmed inner.toList ∧
      Text.Padded inner.toList text.toList ∧
      ((∃ x, Text.float? inner = some x ∧ result = .ok x) ∨
        (Text.float? inner = none ∧ result = .error (.notANumber text))) := by
  have hread : readFloat text = result ↔
      (∃ x, Text.float? (Text.trim text) = some x ∧ result = .ok x) ∨
        (Text.float? (Text.trim text) = none ∧ result = .error (.notANumber text)) := by
    unfold readFloat
    cases Text.float? (Text.trim text) with
    | none => simp [eq_comm]
    | some x => simp [eq_comm]
  have htrim : ∀ inner : String,
      (Text.Trimmed inner.toList ∧ Text.Padded inner.toList text.toList) ↔
        Text.trim text = inner := by
    intro inner
    rw [← Text.trimChars_eq_iff, ← String.toList_inj, Text.trim, String.toList_ofList]
  rw [hread]
  constructor
  · exact fun h => ⟨Text.trim text, (htrim _).mpr rfl |>.1, (htrim _).mpr rfl |>.2, h⟩
  · rintro ⟨inner, htrimmed, hpadded, h⟩
    rwa [(htrim inner).mp ⟨htrimmed, hpadded⟩]

/-! ## Trees -/

/-- The operator that a token is, unless it is a name. -/
def operator? (lookup? : String → Option String) (token : String) : Option Operator :=
  match lookup? token with
  | some _ => none
  | none => Operator.ofToken? token

/-- A calculation as a tree. -/
inductive Expression where
  /-- A name or a number. -/
  | leaf (token : String)
  /-- The whole part of an operand. -/
  | whole (operand : Expression)
  | binary (op : Binary) (left right : Expression)
  deriving DecidableEq, Repr

namespace Expression

/-- The tokens of a tree in postfix order. -/
def listing : Expression → List String
  | leaf token => [token]
  | whole operand => operand.listing ++ ["INT"]
  | binary op left right => left.listing ++ right.listing ++ [op.sign]

/-- Where the tree has an operator its token is one, and a leaf is none. -/
def Proper (lookup? : String → Option String) : Expression → Prop
  | leaf token => operator? lookup? token = none
  | whole operand => operator? lookup? "INT" = some .int ∧ operand.Proper lookup?
  | binary op left right =>
    operator? lookup? op.sign = some (.binary op) ∧ left.Proper lookup? ∧ right.Proper lookup?

/-- The value of a tree, its left operands worked out before its right ones. A name has the value of
its text, which has to be a number, and so has any other leaf. -/
def value (lookup? : String → Option String) : Expression → Except Failure Quantity
  | leaf token =>
    match lookup? token with
    | some text => (readFloat text).map .float
    | none => (readFloat token).map .float
  | whole operand => do
    let x ← operand.value lookup?
    .ok (truncate x)
  | binary op left right => do
    let x ← left.value lookup?
    let y ← right.value lookup?
    op.result x y

/-- The tokens, without blanks around them, list the tree. -/
def ListedBy (e : Expression) (tokens : List String) (lookup? : String → Option String) : Prop :=
  tokens.map Text.trim = e.listing ∧ e.Proper lookup?

/-! ## Unique readability -/

/-- The token that ends the listing of a tree. -/
def lastToken : Expression → String
  | leaf token => token
  | whole _ => "INT"
  | binary op _ _ => op.sign

/-- The listing of a tree up to its last token. -/
def operandTokens : Expression → List String
  | leaf _ => []
  | whole operand => operand.listing
  | binary _ left right => left.listing ++ right.listing

/-- The operator at the root of a tree. -/
def root? : Expression → Option Operator
  | leaf _ => none
  | whole _ => some .int
  | binary op _ _ => some (.binary op)

/-- An expression ends in its last token. -/
theorem listing_eq (e : Expression) : e.listing = e.operandTokens ++ [e.lastToken] := by
  cases e <;> rfl

variable {lookup? : String → Option String}

/-- The last token of a proper expression is read as its root. -/
theorem Proper.operator?_lastToken {e : Expression} (h : e.Proper lookup?) :
    operator? lookup? e.lastToken = e.root? := by
  cases e with
  | leaf token => exact h
  | whole operand => exact h.1
  | binary op left right => exact h.1

/-- Trees that end the same tokens have the same last token, so their roots are of one kind. -/
theorem split_of_append_listing {e e' : Expression} {before before' : List String}
    (h : e.Proper lookup?) (h' : e'.Proper lookup?)
    (heq : before ++ e.listing = before' ++ e'.listing) :
    before ++ e.operandTokens = before' ++ e'.operandTokens ∧ e.lastToken = e'.lastToken ∧
      e.root? = e'.root? := by
  rw [listing_eq e, listing_eq e', ← List.append_assoc, ← List.append_assoc] at heq
  obtain ⟨hbefore, hlast⟩ := List.append_inj' heq rfl
  have htoken : e.lastToken = e'.lastToken := List.singleton_inj.mp hlast
  refine ⟨hbefore, htoken, ?_⟩
  rw [← h.operator?_lastToken, ← h'.operator?_lastToken, htoken]

/-- Two trees that end the same tokens are the same, and so is what comes before them. -/
theorem eq_of_append_listing {e : Expression} (h : e.Proper lookup?) :
    ∀ {e' : Expression} {before before' : List String}, e'.Proper lookup? →
      before ++ e.listing = before' ++ e'.listing → e = e' ∧ before = before' := by
  induction e with
  | leaf token =>
    intro e' before before' h' heq
    obtain ⟨hbefore, htoken, hroot⟩ := split_of_append_listing h h' heq
    cases e' with
    | leaf token' =>
      rw [operandTokens, operandTokens, List.append_nil, List.append_nil] at hbefore
      exact ⟨congrArg leaf htoken, hbefore⟩
    | whole operand' => exact absurd hroot (by simp [root?])
    | binary op' left' right' => exact absurd hroot (by simp [root?])
  | whole operand ih =>
    intro e' before before' h' heq
    obtain ⟨hbefore, -, hroot⟩ := split_of_append_listing h h' heq
    cases e' with
    | leaf token' => exact absurd hroot (by simp [root?])
    | whole operand' =>
      obtain ⟨rfl, hfront⟩ := ih h.2 h'.2 hbefore
      exact ⟨rfl, hfront⟩
    | binary op' left' right' => exact absurd hroot (by simp [root?])
  | binary op left right ihleft ihright =>
    intro e' before before' h' heq
    obtain ⟨hbefore, -, hroot⟩ := split_of_append_listing h h' heq
    cases e' with
    | leaf token' => exact absurd hroot (by simp [root?])
    | whole operand' => exact absurd hroot (by simp [root?])
    | binary op' left' right' =>
      obtain rfl : op = op' := Operator.binary.inj (Option.some.inj hroot)
      -- the right operand comes last, and the left one ends what is before it
      rw [operandTokens, operandTokens, ← List.append_assoc, ← List.append_assoc] at hbefore
      obtain ⟨rfl, hleft⟩ := ihright h.2.2 h'.2.2 hbefore
      obtain ⟨rfl, hfront⟩ := ihleft h.2.1 h'.2.1 hleft
      exact ⟨rfl, hfront⟩

end Expression

/-! ## Tokens carried out on a stack -/

open Expression

section
variable {lookup? : String → Option String}

/-- A token without blanks around it, carried out on a stack. -/
def act (lookup? : String → Option String) (stack : List Quantity) (token : String) :
    Except Failure (List Quantity) :=
  match operator? lookup? token with
  | some op => operate op token stack
  | none => ((leaf token).value lookup?).map (· :: stack)

/-- A token that is read as an operator is carried out. -/
theorem act_operator {token : String} {op : Operator} (h : operator? lookup? token = some op)
    (stack : List Quantity) : act lookup? stack token = operate op token stack := by
  unfold act
  rw [h]

/-- Any other token puts its value on the stack. -/
theorem act_leaf {token : String} (h : operator? lookup? token = none) (stack : List Quantity) :
    act lookup? stack token = ((leaf token).value lookup?).map (· :: stack) := by
  unfold act
  rw [h]

/-- The values on a stack are those of trees that the tokens list one after another, from the bottom
of the stack on. -/
structure Listed (lookup? : String → Option String) (es : List Expression)
    (stack : List Quantity) (tokens : List String) : Prop where
  tokens_eq : tokens = es.reverse.flatMap listing
  proper : ∀ e ∈ es, e.Proper lookup?
  values : List.Forall₂ (fun e x => e.value lookup? = .ok x) es stack

/-- A token that is read as an operator is spelled like one. -/
theorem ofToken?_of_operator? {token : String} {op : Operator}
    (h : operator? lookup? token = some op) : Operator.ofToken? token = some op := by
  unfold operator? at h
  split at h
  · exact absurd h (by simp)
  · exact h

/-- A token that is carried out is a leaf on top of the trees, or the root of a tree made from those
on top. -/
theorem Listed.act {es : List Expression} {stack stack' : List Quantity} {tokens : List String}
    {token : String} (h : Listed lookup? es stack tokens)
    (hact : act lookup? stack token = .ok stack') :
    ∃ es', Listed lookup? es' stack' (tokens ++ [token]) := by
  cases hop : operator? lookup? token with
  | none =>
    rw [act_leaf hop] at hact
    cases hvalue : (leaf token).value lookup? with
    | error failure => rw [hvalue] at hact; exact absurd hact (by simp [Except.map])
    | ok x =>
      rw [hvalue] at hact
      obtain rfl := Except.ok.inj hact
      refine ⟨leaf token :: es, ?_, List.forall_mem_cons.mpr ⟨hop, h.proper⟩, .cons hvalue h.values⟩
      simp [h.tokens_eq, listing]
  | some op =>
    rw [act_operator hop] at hact
    cases op with
    | int =>
      obtain rfl : token = "INT" := ofToken?_eq_some_iff.mp (ofToken?_of_operator? hop)
      obtain ⟨htokens, hproper, hvalues⟩ := h
      cases hvalues with
      | nil => exact absurd hact (by simp [operate])
      | @cons e x es stack hx hvalues =>
        obtain ⟨he, hproper⟩ := List.forall_mem_cons.mp hproper
        have hvalue : (whole e).value lookup? = .ok (truncate x) := by rw [value, hx]; rfl
        obtain rfl := Except.ok.inj hact
        refine ⟨whole e :: es, ?_, List.forall_mem_cons.mpr ⟨⟨hop, he⟩, hproper⟩,
          .cons hvalue hvalues⟩
        simp [htokens, listing]
    | binary op =>
      obtain rfl : token = op.sign := ofToken?_eq_some_iff.mp (ofToken?_of_operator? hop)
      obtain ⟨htokens, hproper, hvalues⟩ := h
      rcases hvalues with - | ⟨hy, - | ⟨hx, hvalues⟩⟩
      · exact absurd hact (by simp [operate])
      · exact absurd hact (by simp [operate])
      · rename_i right y left x es stack
        obtain ⟨hright, hleft, hproper⟩ :
            right.Proper lookup? ∧ left.Proper lookup? ∧ ∀ e ∈ es, e.Proper lookup? := by
          simpa only [List.forall_mem_cons] using hproper
        unfold operate at hact
        dsimp only at hact
        cases hresult : combine op x y with
        | error failure => rw [hresult] at hact; exact absurd hact (by simp)
        | ok z =>
          rw [hresult] at hact
          obtain rfl := Except.ok.inj hact
          have hvalue : (binary op left right).value lookup? = .ok z := by
            rw [value, hx, hy, ← hresult, combine_eq]
            rfl
          refine ⟨binary op left right :: es, ?_,
            List.forall_mem_cons.mpr ⟨⟨hop, hleft, hright⟩, hproper⟩, .cons hvalue hvalues⟩
          simp [htokens, listing]

end

/-! ## Integers -/

/-- An integer fits 64 bits. -/
def Quantity.Fits (x : Quantity) : Prop := ∀ n, x = .int n → fitsSigned n = true

/-- A whole number is not above the size of a dyadic just if it is not above its whole part. -/
theorem le_floorAbs_iff (d : Dyadic) (n : Nat) : n ≤ d.floorAbs ↔
    n * 2 ^ (-d.exponent).toNat ≤ d.mantissa * 2 ^ d.exponent.toNat := by
  unfold Dyadic.floorAbs
  split
  · rename_i hexponent
    rw [Int.toNat_of_nonpos (Int.neg_nonpos_of_nonneg hexponent), Nat.pow_zero, Nat.mul_one]
    rfl
  · rename_i hexponent
    rw [Int.toNat_of_nonpos (Int.le_of_lt (Int.not_le.mp hexponent)), Nat.pow_zero, Nat.mul_one]
    exact Nat.le_div_iff_mul_le (Nat.two_pow_pos _)

/-- The whole part of a finite float has its sign and is the greatest whole number that is not above
its size, unless that is more than fits; then it is the greatest that does. -/
theorem truncate_float {x : Float} {d : Dyadic} (h : Dyadic.ofFloat? x = some d) :
    ∃ n : Nat, truncate (.float x) = .int (Decimal.clampInt64 (if d.negative then -n else n)) ∧
      ∀ k : Nat, k ≤ n ↔ k * 2 ^ (-d.exponent).toNat ≤ d.mantissa * 2 ^ d.exponent.toNat := by
  refine ⟨d.floorAbs, ?_, le_floorAbs_iff d⟩
  show Quantity.int (Decimal.truncate x) = _
  unfold Decimal.truncate
  rw [h]

/-- A number is cut off to one that fits. -/
theorem fitsSigned_truncate (x : Float) : fitsSigned (Decimal.truncate x) = true := by
  have hclamp : ∀ n, fitsSigned (Decimal.clampInt64 n) = true := by
    intro n
    rw [Template.fitsSigned_iff, Decimal.clampInt64, signedLimit]
    omega
  unfold Decimal.truncate
  split
  · exact hclamp _
  · split
    · rfl
    · split <;> rfl

/-- What is cut off fits. -/
theorem Quantity.Fits.truncate {x : Quantity} (h : x.Fits) : (truncate x).Fits := by
  cases x with
  | int n => exact h
  | float x =>
    intro n hn
    obtain rfl := Quantity.int.inj hn
    exact fitsSigned_truncate x

section
variable {tokens : List String} {s : Template.State}

/-- Tokens are those of one expression. -/
theorem Expression.ListedBy.unique {e e' : Expression} (h : e.ListedBy tokens s.lookup?)
    (h' : e'.ListedBy tokens s.lookup?) : e = e' := by
  have heq : [] ++ e.listing = [] ++ e'.listing := h.1.symm.trans h'.1
  exact (eq_of_append_listing h.2 h'.2 heq).1

end

/-- A name is a leaf also where it is spelled like an operator. -/
example : evaluate ["3", " + ", "*", "INT"] { metadata := NameMap.empty.insert "+" "2" } =
    .ok (.int 6) := rfl

end Calculator

end ExamPaper

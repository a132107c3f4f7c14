import ExamPaper.Decimal.Reading
import ExamPaper.Decimal.Text
import ExamPaper.Limits
import ExamPaper.Template.State
import ExamPaper.Text.Blank

/-!
# The calculator

Arithmetic in postfix order. A token is the name of a metadata entry or of a variable, whose text is
read as a float; else an operator; else a float. Whole numbers come from the operator `INT` only;
sum, difference and product of two of them are whole numbers again as long as they fit 64 bits, and
floats otherwise.

Mirrors `evaluate`, `apply` and `parse_number`.
-/

namespace ExamPaper

namespace Calculator

/-- A result of the calculator. -/
inductive Quantity where
  /-- A signed 64-bit integer. -/
  | int (n : Int)
  | float (x : Float)
  deriving DecidableEq, Repr

/-- Why a calculation has no result. -/
inductive Failure where
  /-- An operator with fewer operands on the stack than it takes. -/
  | underflow (token : String)
  /-- A number of decimals that is negative or not whole. -/
  | partialDecimals (decimals : Float)
  | divisionByZero
  | notANumber (text : String)
  /-- A number of values other than one on the stack at the end. -/
  | leftOver (depth : Nat)
  deriving DecidableEq, Repr

namespace Failure

/-- The text that reports the failure. -/
def message : Failure → String
  | underflow token => "stack underflow at '" ++ token ++ "'"
  | partialDecimals decimals => "ROUND needs whole decimals, got " ++ Decimal.text decimals
  | divisionByZero => "division by zero"
  | notANumber text => "'" ++ text ++ "' is not a number"
  | leftOver depth => Nat.repr depth ++ " values left on the stack"

end Failure

namespace Quantity

/-- The quantity as a float. -/
def toFloat : Quantity → Float
  | int n => Float.ofInt n
  | float x => x

/-- The text of a quantity: a float that is a whole number below 10^16 keeps one decimal. -/
def text : Quantity → String
  | int n => Int.repr n
  | float x =>
    if Decimal.isWhole x && x.abs < Float.ofScientific 1 false 16 then Decimal.fixed 1 x
    else Decimal.text x

end Quantity

/-- An operator on two operands. -/
inductive Binary where
  /-- Rounds the left operand to as many decimals as the right one says. -/
  | round
  | add
  | sub
  | mul
  | div
  deriving DecidableEq, Repr

/-- What a token does when it is no name. -/
inductive Operator where
  /-- Takes the whole part of its operand. -/
  | int
  | binary (op : Binary)
  deriving DecidableEq, Repr

/-- The operator that a token denotes. -/
def Operator.ofToken? : String → Option Operator
  | "INT" => some .int
  | "ROUND" => some (.binary .round)
  | "+" => some (.binary .add)
  | "-" => some (.binary .sub)
  | "*" => some (.binary .mul)
  | "/" => some (.binary .div)
  | _ => none

/-- The float that a text denotes. -/
def readFloat (text : String) : Except Failure Float :=
  match Text.float? (Text.trim text) with
  | some x => .ok x
  | none => .error (.notANumber text)

/-- The whole part. -/
def truncate : Quantity → Quantity
  | .int n => .int n
  | .float x => .int (Decimal.truncate x)

/-- The value rounded to a number of decimals, a half away from zero. -/
def round (value decimals : Float) : Except Failure Quantity :=
  if decimals < 0.0 || !Decimal.isWhole decimals then .error (.partialDecimals decimals)
  else
    let scale := Float.pow 10.0 decimals
    .ok (.float ((value * scale).round / scale))

/-- The exact result, if it fits 64 bits, and the result of floats otherwise. -/
def exactOr (exact : Int) (x : Float) : Quantity :=
  if fitsSigned exact then .int exact else .float x

/-- The result of an operator on two operands. -/
def combine (op : Binary) (left right : Quantity) : Except Failure Quantity :=
  let a := left.toFloat
  let b := right.toFloat
  match op, left, right with
  | .round, _, _ => round a b
  | .add, .int m, .int n => .ok (exactOr (m + n) (a + b))
  | .add, _, _ => .ok (.float (a + b))
  | .sub, .int m, .int n => .ok (exactOr (m - n) (a - b))
  | .sub, _, _ => .ok (.float (a - b))
  | .mul, .int m, .int n => .ok (exactOr (m * n) (a * b))
  | .mul, _, _ => .ok (.float (a * b))
  | .div, _, _ => if b == 0.0 then .error .divisionByZero else .ok (.float (a / b))

/-- An operator carried out on a stack, its top first. -/
def operate (op : Operator) (token : String) (stack : List Quantity) :
    Except Failure (List Quantity) :=
  match op, stack with
  | .int, value :: stack => .ok (truncate value :: stack)
  | .binary op, right :: left :: stack =>
    match combine op left right with
    | .error e => .error e
    | .ok x => .ok (x :: stack)
  | _, _ => .error (.underflow token)

/-- A token carried out on a stack, its top first. -/
def step (lookup? : String → Option String) (stack : List Quantity) (raw : String) :
    Except Failure (List Quantity) :=
  let token := Text.trim raw
  let push (text : String) := (readFloat text).map fun x => Quantity.float x :: stack
  match lookup? token with
  | some value => push value
  | none =>
    match Operator.ofToken? token with
    | some op => operate op token stack
    | none => push token

/-- The stack after all tokens. -/
def run (lookup? : String → Option String) (tokens : List String) (stack : List Quantity) :
    Except Failure (List Quantity) :=
  tokens.foldlM (step lookup?) stack

/-- The value of a list of tokens. -/
def evaluate (tokens : List String) (s : Template.State) : Except Failure Quantity :=
  match run s.lookup? tokens [] with
  | .error e => .error e
  | .ok [result] => .ok result
  | .ok stack => .error (.leftOver stack.length)

end Calculator

end ExamPaper

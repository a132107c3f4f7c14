import ExamPaper.Document.Scalar

/-!
# Styles of a written text

How a text is written as a scalar: plain where it then denotes itself, in single quotes where it
would denote something else or where its characters do not allow the plain form, as a literal block
where it has line feeds, and in double quotes where only escapes can show it.
-/

namespace ExamPaper

namespace Document

/-- The styles of a scalar. -/
inductive Style where
  | plain
  | single
  | double
  | literal
  deriving DecidableEq, Repr

/-- The line breaks of YAML. -/
def isBreak (c : Char) : Bool :=
  c == '\n' || c == '\r' || c.toNat == 0x85 || c.toNat == 0x2028 || c.toNat == 0x2029

/-- A character that can be written as it is. -/
def isPrintable (c : Char) : Bool :=
  let n := c.toNat
  n == 0x0A || (0x20 ≤ n && n ≤ 0x7E) || (0xA0 ≤ n && n ≤ 0xFFFD && n != 0xFEFF) || 0x10000 ≤ n

/-- A blank, a line break or the end of the text. -/
def isGap : Option Char → Bool
  | none => true
  | some c => c == ' ' || c == '\t' || isBreak c

/-- Whether a character at the start of a text means something else than itself there. -/
def isIndicatorAtStart (c : Char) (next : Option Char) : Bool :=
  "#,[]\x7b\x7d&*!|>'\"%@`".toList.contains c ||
    ((c == '?' || c == ':' || c == '-') && isGap next)

/-- Whether a character after another one means something else than itself there. -/
def isIndicatorInside (before c : Char) (next : Option Char) : Bool :=
  (c == ':' && isGap next) || (c == '#' && isGap (some before))

/-- Whether a character somewhere in a text means something else than itself. -/
def hasIndicatorInside : List Char → Bool
  | a :: b :: rest => isIndicatorInside a b rest.head? || hasIndicatorInside (b :: rest)
  | _ => false

/-- Whether a text can be written plain. -/
def plainAllowed (cs : List Char) : Bool :=
  match cs with
  | [] => false
  | c :: rest =>
    cs.all (fun c => isPrintable c && !isBreak c) && c != ' ' && cs.getLast? != some ' ' &&
      !isIndicatorAtStart c rest.head? && !hasIndicatorInside cs &&
      cs.take 3 != ['-', '-', '-'] && cs.take 3 != ['.', '.', '.']

/-- Whether two characters that `pair` looks for are next to each other. -/
def hasPair (pair : Char → Char → Bool) : List Char → Bool
  | a :: b :: rest => pair a b || hasPair pair (b :: rest)
  | _ => false

/-- Whether a text can be written in single quotes. -/
def singleAllowed (cs : List Char) : Bool :=
  cs.all isPrintable && !hasPair (fun a b => isBreak a && b == ' ') cs &&
    !hasPair (fun a b => a == ' ' && isBreak b) cs

/-- Whether a text can be written as a literal block. -/
def literalAllowed (cs : List Char) : Bool :=
  cs.all isPrintable && cs.getLast? != some ' ' && !hasPair (fun a b => a == ' ' && isBreak b) cs

/-- Whether a text needs quotes: written plain it denotes something else, or it is digits after a
leading zero, which might be taken for a number. -/
def needsQuotes (cs : List Char) : Bool :=
  match resolvePlain cs with
  | .value (.text _) => isZeroPadded cs
  | _ => true

/-- The style of a text. -/
def styleOf (cs : List Char) : Style :=
  if cs.contains '\n' then
    if literalAllowed cs then .literal else .double
  else if !needsQuotes cs && plainAllowed cs then .plain
  else if singleAllowed cs then .single
  else .double

/-- A text for single quotes, in which a quote is written twice. -/
def singleQuoted (cs : List Char) : List Char :=
  cs.flatMap fun c => if c == '\'' then ['\'', '\''] else [c]

/-- A number with a width of hexadecimal digits. -/
def hexadecimal (width n : Nat) : List Char :=
  let digits := (Nat.toDigits 16 n).map Char.toUpper
  List.replicate (width - digits.length) '0' ++ digits

/-- A character in double quotes. -/
def doubleQuotedChar (c : Char) : List Char :=
  let n := c.toNat
  if c == '"' then ['\\', '"']
  else if c == '\\' then ['\\', '\\']
  else if isPrintable c && !isBreak c then [c]
  else if n == 0 then ['\\', '0']
  else if n == 7 then ['\\', 'a']
  else if n == 8 then ['\\', 'b']
  else if n == 9 then ['\\', 't']
  else if n == 10 then ['\\', 'n']
  else if n == 11 then ['\\', 'v']
  else if n == 12 then ['\\', 'f']
  else if n == 13 then ['\\', 'r']
  else if n == 27 then ['\\', 'e']
  else if n == 0x85 then ['\\', 'N']
  else if n == 0x2028 then ['\\', 'L']
  else if n == 0x2029 then ['\\', 'P']
  else if n ≤ 0xFF then ['\\', 'x'] ++ hexadecimal 2 n
  else if n ≤ 0xFFFF then ['\\', 'u'] ++ hexadecimal 4 n
  else ['\\', 'U'] ++ hexadecimal 8 n

/-- A text in double quotes. -/
def doubleQuoted (cs : List Char) : List Char := '"' :: cs.flatMap doubleQuotedChar ++ ['"']

/-- The mark before a literal block: the indentation where its first line does not show it, and
which line breaks at its end belong to the text. -/
def literalMark (cs : List Char) : List Char :=
  let indentation := match cs with
    | c :: _ => if c == ' ' || isBreak c then ['2'] else []
    | [] => []
  let ending := match cs.reverse with
    | [] => ['-']
    | [c] => if isBreak c then ['+'] else ['-']
    | c :: d :: _ => if !isBreak c then ['-'] else if isBreak d then ['+'] else []
  '|' :: indentation ++ ending

end Document

end ExamPaper

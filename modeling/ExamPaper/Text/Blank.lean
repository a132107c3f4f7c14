/-!
# Blanks

The characters with the Unicode property White_Space, and the two uses that the library makes of
them: a text without the blanks at its ends (`trim`) and the words of a text (`words`).

Mirrors `trim`, `trim_end` and `split_whitespace`.
-/

namespace ExamPaper

/-- A character with the Unicode property White_Space. -/
def isBlank (c : Char) : Bool :=
  let n := c.toNat
  (9 ≤ n && n ≤ 13) || n == 0x20 || n == 0x85 || n == 0xA0 || n == 0x1680 ||
    (0x2000 ≤ n && n ≤ 0x200A) || n == 0x2028 || n == 0x2029 || n == 0x202F || n == 0x205F ||
    n == 0x3000

namespace Text

/-- The text without the blanks at its end. -/
def trimEndChars (cs : List Char) : List Char := (cs.reverse.dropWhile isBlank).reverse

/-- The text without the blanks at its two ends. -/
def trimChars (cs : List Char) : List Char := trimEndChars (cs.dropWhile isBlank)

/-- The maximal runs of characters that are not blank, where `word` is the run read so far, latest
character first. -/
def wordsFrom (word : List Char) : List Char → List (List Char)
  | [] => if word.isEmpty then [] else [word.reverse]
  | c :: cs =>
    if isBlank c then
      if word.isEmpty then wordsFrom [] cs else word.reverse :: wordsFrom [] cs
    else wordsFrom (c :: word) cs

/-- The text without the blanks at its two ends. -/
def trim (s : String) : String := String.ofList (trimChars s.toList)

/-- The text without the blanks at its end. -/
def trimEnd (s : String) : String := String.ofList (trimEndChars s.toList)

/-- The maximal runs of characters that are not blank, in order. -/
def words (s : String) : List String := (wordsFrom [] s.toList).map String.ofList

end Text

end ExamPaper

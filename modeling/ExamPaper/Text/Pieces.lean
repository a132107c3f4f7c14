/-!
# Pieces of a text

Cutting a text at a separator, joining pieces with one, and replacing every occurrence of a
pattern, on lists of characters.

Mirrors `split`, `join`, `strip_prefix`, `strip_suffix` and `replace` on texts.
-/

namespace ExamPaper

namespace Text

/-- The pieces between the characters that are `separator`, where `piece` is what has been read of
the first one, latest character first. -/
def splitOnto (separator : Char) (piece : List Char) : List Char → List (List Char)
  | [] => [piece.reverse]
  | c :: cs =>
    if c = separator then piece.reverse :: splitOnto separator [] cs
    else splitOnto separator (c :: piece) cs

/-- The pieces between the characters that are `separator`; there is always at least one. -/
def splitAtChar (separator : Char) (cs : List Char) : List (List Char) :=
  splitOnto separator [] cs

/-- The pieces one after another with `separator` between them. -/
def join (separator : List Char) : List (List Char) → List Char
  | [] => []
  | [piece] => piece
  | piece :: pieces => piece ++ separator ++ join separator pieces

/-- What follows `pattern` at the start of a text. -/
def dropPrefix? : (pattern : List Char) → List Char → Option (List Char)
  | [], cs => some cs
  | _ :: _, [] => none
  | p :: pattern, c :: cs => if p = c then dropPrefix? pattern cs else none

/-- What precedes `pattern` at the end of a text. -/
def dropSuffix? (pattern cs : List Char) : Option (List Char) :=
  (dropPrefix? pattern.reverse cs.reverse).map List.reverse

/-- Puts `new` in place of every occurrence of the pattern `p :: pattern`, read from the left and
without overlaps. `done` is the text so far, latest character first, and `skip` characters of an
occurrence already replaced are passed over. -/
def replaceOnto (p : Char) (pattern new done : List Char) (skip : Nat) : List Char → List Char
  | [] => done.reverse
  | c :: cs =>
    match skip with
    | skip + 1 => replaceOnto p pattern new done skip cs
    | 0 =>
      if (dropPrefix? (p :: pattern) (c :: cs)).isSome then
        replaceOnto p pattern new (new.reverseAux done) pattern.length cs
      else replaceOnto p pattern new (c :: done) 0 cs

/-- The text with `new` in place of every occurrence of a pattern. A pattern of no characters stands
before every character and at the end. -/
def replaceAll (pattern new cs : List Char) : List Char :=
  match pattern with
  | [] => cs.flatMap (new ++ [·]) ++ new
  | p :: pattern => replaceOnto p pattern new [] 0 cs

/-- The size of a text in UTF-8. -/
def utf8Size (cs : List Char) : Nat := cs.foldl (fun n c => n + c.utf8Size) 0

end Text

end ExamPaper

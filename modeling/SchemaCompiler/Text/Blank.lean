/-!
# Blanks and lines

White space is what has the Unicode property `White_Space`; the byte-order mark does not. A line
ends at a line feed, and a carriage return before that line feed belongs to the line end.
-/

namespace SchemaCompiler.Text

def isBlank (c : Char) : Bool :=
  let n := c.toNat
  (0x09 ≤ n && n ≤ 0x0D) || n == 0x20 || n == 0x85 || n == 0xA0 || n == 0x1680 ||
    (0x2000 ≤ n && n ≤ 0x200A) || n == 0x2028 || n == 0x2029 || n == 0x202F || n == 0x205F ||
    n == 0x3000

def trimStart (cs : List Char) : List Char := cs.dropWhile isBlank

def trimEnd (cs : List Char) : List Char := (cs.reverse.dropWhile isBlank).reverse

def trim (cs : List Char) : List Char := trimEnd (trimStart cs)

/-- Drops `head` when the text starts with it. -/
def dropHead (head : Char) : List Char → List Char
  | c :: cs => if c = head then cs else c :: cs
  | [] => []

def dropLast (last : Char) (cs : List Char) : List Char := (dropHead last cs.reverse).reverse

/-- Cuts at every line feed; `current` is the line read so far, last character first. -/
def linesFrom (current : List Char) : List Char → List (List Char)
  | [] => if current.isEmpty then [] else [current.reverse]
  | c :: cs =>
    if c = '\n' then (dropHead '\r' current).reverse :: linesFrom [] cs
    else linesFrom (c :: current) cs

/-- The lines of a text. A final line feed starts no further line. -/
def lines (cs : List Char) : List (List Char) := linesFrom [] cs

/-- Cuts at every character that `p` holds of; `n` separators give `n + 1` parts. -/
def splitAt (p : Char → Bool) : List Char → List (List Char)
  | [] => [[]]
  | c :: cs =>
    match splitAt p cs with
    | [] => [[c]]
    | part :: parts => if p c then [] :: part :: parts else (c :: part) :: parts

/-- `parts` with `mark` between neighbours. -/
def joinWith (mark : List Char) : List (List Char) → List Char
  | [] => []
  | [part] => part
  | part :: parts => part ++ mark ++ joinWith mark parts

def isBlankText (s : String) : Bool := s.toList.all isBlank

end SchemaCompiler.Text

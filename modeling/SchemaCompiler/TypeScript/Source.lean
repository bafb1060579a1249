import SchemaCompiler.Diagnostic

/-!
# Source text

Places in a source text are counted in characters from its start, positions in bytes from one on. A
line ends at a line feed and nowhere else; lines and columns are counted from one.

* `SourceText.locate` finds the line and column of a position in the table of line starts;
* `stepPlace` says which place one character leads to, when the text is read from its start.
-/

namespace SchemaCompiler.TypeScript

/-- The characters from `lo` up to but not including `hi`. -/
structure Span where
  lo : Nat
  hi : Nat
deriving DecidableEq, Repr, Inhabited

/-! ## Bytes -/

/-- How many bytes characters take. -/
def byteLength : List Char → Nat
  | [] => 0
  | c :: chars => c.utf8Size + byteLength chars

/-- What is left behind the first `n` bytes, unless they end inside a character or are too many. -/
def dropBytes? : Nat → List Char → Option (List Char)
  | 0, chars => some chars
  | _ + 1, [] => none
  | n + 1, c :: chars => if c.utf8Size ≤ n + 1 then dropBytes? (n + 1 - c.utf8Size) chars else none

/-- The characters in the first `n` bytes, unless they end inside a character or are too many. -/
def takeBytes? : Nat → List Char → Option (List Char)
  | 0, _ => some []
  | _ + 1, [] => none
  | n + 1, c :: chars =>
    if c.utf8Size ≤ n + 1 then (takeBytes? (n + 1 - c.utf8Size) chars).map (c :: ·) else none

/-- The characters from the byte offset `lo` up to `hi`, when both lie between characters. -/
def bytesBetween? (chars : List Char) (lo hi : Nat) : Option (List Char) :=
  if lo ≤ hi then (dropBytes? lo chars).bind (takeBytes? (hi - lo)) else none

/-! ## Binary search -/

section PartitionPoint

variable {α : Type} (p : α → Bool) (xs : List α)

/-- Halves the part of a list that is `size` long from `base` on, and goes on with the back half
when `p` holds of its first item. Gives where the last part starts. -/
def narrow (base size : Nat) : Nat :=
  if size ≤ 1 then base
  else
    let middle := base + size / 2
    narrow (if xs[middle]?.any p then middle else base) (size - size / 2)
termination_by size

/-- How many items `p` holds of, when it holds of none behind one that it does not hold of. -/
def partitionPoint : Nat :=
  let last := narrow p xs 0 xs.length
  if xs[last]?.any p then last + 1 else last

end PartitionPoint

/-! ## Lines and columns -/

/-- Where lines start behind the first one, for a text that starts at the byte `offset`. -/
def lineStartsFrom (offset : Nat) : List Char → List Nat
  | [] => []
  | c :: cs =>
    let next := offset + c.utf8Size
    if c = '\n' then next :: lineStartsFrom next cs else lineStartsFrom next cs

def lineStartsOf (chars : List Char) : List Nat := 0 :: lineStartsFrom 0 chars

/-- A position in a text, its byte offset plus one. Zero is the position of nothing. -/
abbrev BytePos := UInt32

/-- The byte offset of a position. That of nothing counts as the start. -/
def BytePos.offset (pos : BytePos) : Nat := pos.toNat - 1

structure SourceText where
  chars : List Char
  lineStarts : List Nat

namespace SourceText

def ofChars (chars : List Char) : SourceText := ⟨chars, lineStartsOf chars⟩

def ofString (s : String) : SourceText := ofChars s.toList

/-- The position of a place. -/
def position (t : SourceText) (place : Nat) : BytePos :=
  UInt32.ofNat (byteLength (t.chars.take place) + 1)

/-- Line and column of a position, counted in 32 bits. A position behind the text counts as its
end, one inside a character as the start of its line. -/
def locate (t : SourceText) (pos : BytePos) : Nat × Nat :=
  let offset := min pos.offset (byteLength t.chars)
  let line := partitionPoint (· ≤ offset) t.lineStarts - 1
  let lineStart := t.lineStarts[line]?.getD 0
  let column := ((bytesBetween? t.chars lineStart offset).map List.length).getD 0
  ((UInt32.ofNat line + 1).toNat, (UInt32.ofNat column + 1).toNat)

def slice (t : SourceText) (s : Span) : List Char := (t.chars.drop s.lo).take (s.hi - s.lo)

/-- The text that a span covers. -/
def snippet (t : SourceText) (s : Span) : String := String.ofList (t.slice s)

end SourceText

/-- One line feed further is a new line; every other character is a column further. -/
def stepPlace (place : Nat × Nat) (c : Char) : Nat × Nat :=
  if c = '\n' then (place.1 + 1, 1) else (place.1, place.2 + 1)

end SchemaCompiler.TypeScript

/-!
# Patterns

In a pattern `*` stands for any text, `?` for any character and `[...]` for one of a set. Every
character is a glyph that may have lost its special meaning by being quoted.
-/

namespace SchemaCompiler.Shell

/-- A character, and whether it may have a special meaning. -/
structure Glyph where
  char : Char
  special : Bool
deriving DecidableEq, Repr

namespace Glyph

def ofString (s : String) (special : Bool) : List Glyph := s.toList.map (⟨·, special⟩)

def text (gs : List Glyph) : String := String.ofList (gs.map (·.char))

def isSpecial (g : Glyph) (c : Char) : Bool := g.special && g.char == c

/-- Whether glyphs make a pattern. -/
def isPattern (gs : List Glyph) : Bool :=
  gs.any fun g => g.isSpecial '*' || g.isSpecial '?' || g.isSpecial '['

end Glyph

/-- A piece of a pattern. -/
inductive Matcher where
  | literal (c : Char)
  | anyChar
  | anyText
  /-- One of some ranges of characters, or none of them. -/
  | range (negated : Bool) (ranges : List (Char × Char))
deriving DecidableEq, Repr

namespace Matcher

/-- The characters of a named class. -/
def classRanges : String → List (Char × Char)
  | "upper" => [('A', 'Z')]
  | "lower" => [('a', 'z')]
  | "digit" => [('0', '9')]
  | "xdigit" => [('0', '9'), ('A', 'F'), ('a', 'f')]
  | "alpha" => [('A', 'Z'), ('a', 'z')]
  | "alnum" => [('0', '9'), ('A', 'Z'), ('a', 'z')]
  | "space" => [('\t', '\r'), (' ', ' ')]
  | "blank" => [('\t', '\t'), (' ', ' ')]
  | "punct" => [('!', '/'), (':', '@'), ('[', '\x60'), ('\x7b', '~')]
  | "cntrl" => [('\x00', '\x1f'), ('\x7f', '\x7f')]
  | "graph" => [('!', '~')]
  | "print" => [(' ', '~')]
  | _ => []

/-- The class that is named at the start of a text, behind its bracket, and what stands behind
it. -/
def class? (gs : List Glyph) : Option (List (Char × Char) × List Glyph) :=
  match gs with
  | ⟨':', _⟩ :: rest =>
    let name := rest.takeWhile (·.char ≠ ':')
    match rest.drop name.length with
    | _ :: ⟨']', _⟩ :: behind => some (classRanges (Glyph.text name), behind)
    | _ => none
  | _ => none

/-- The ranges up to the bracket that closes a set, and what stands behind it. -/
def rangesFrom : Nat → List Glyph → Option (List (Char × Char) × List Glyph)
  | 0, _ => none
  | _, [] => none
  | fuel + 1, g :: rest =>
    if g.isSpecial ']' then some ([], rest)
    else
      match if g.isSpecial '[' then class? rest else none with
      | some (ranges, behind) => (rangesFrom fuel behind).map fun (more, end') => (ranges ++ more, end')
      | none => memberFrom fuel g rest
where
  /-- One character or a range of characters, and the ranges behind it. -/
  memberFrom (fuel : Nat) (g : Glyph) (rest : List Glyph) :
      Option (List (Char × Char) × List Glyph) :=
    match rest with
    | ⟨'-', _⟩ :: h :: behind =>
      if h.isSpecial ']' then
        (rangesFrom fuel rest).map fun (more, end') => ((g.char, g.char) :: more, end')
      else (rangesFrom fuel behind).map fun (more, end') => ((g.char, h.char) :: more, end')
    | _ => (rangesFrom fuel rest).map fun (more, end') => ((g.char, g.char) :: more, end')

/-- What stands in brackets, behind the opening one. The first character may be a bracket. -/
def bracketed? (gs : List Glyph) : Option (Matcher × List Glyph) :=
  let negated := gs.head?.any fun g => g.char == '!' || g.char == '^'
  let inner := if negated then gs.tail else gs
  let inner := match inner with
    | ⟨']', _⟩ :: rest => ⟨']', false⟩ :: rest
    | _ => inner
  (rangesFrom (inner.length + 1) inner).map fun (ranges, behind) =>
    (.range negated ranges, behind)

/-- The pattern that glyphs make; brackets that are not closed stand for themselves. -/
def ofGlyphsFrom : Nat → List Glyph → List Matcher
  | 0, _ => []
  | _, [] => []
  | fuel + 1, g :: rest =>
    if g.isSpecial '*' then anyText :: ofGlyphsFrom fuel rest
    else if g.isSpecial '?' then anyChar :: ofGlyphsFrom fuel rest
    else if g.isSpecial '[' then
      match bracketed? rest with
      | some (m, behind) => m :: ofGlyphsFrom fuel behind
      | none => literal g.char :: ofGlyphsFrom fuel rest
    else literal g.char :: ofGlyphsFrom fuel rest

def ofGlyphs (gs : List Glyph) : List Matcher := ofGlyphsFrom gs.length gs

/-- Whether a piece that stands for one character stands for this one. -/
def holds (c : Char) : Matcher → Bool
  | literal d => c == d
  | anyChar => true
  | anyText => false
  | range negated ranges => ranges.any (fun (a, b) => a ≤ c && c ≤ b) != negated

/-- The ends of a text, the longest first. -/
def suffixes : List Char → List (List Char)
  | [] => [[]]
  | c :: cs => (c :: cs) :: suffixes cs

/-- What can be left of a text behind the start that a pattern matches, the shortest start
first. -/
def remainders : List Matcher → List Char → List (List Char)
  | [], cs => [cs]
  | anyText :: ms, cs => (suffixes cs).flatMap (remainders ms)
  | m :: ms, c :: cs => if m.holds c then remainders ms cs else []
  | _ :: _, [] => []

/-- Whether a pattern matches a whole text. -/
def matchesAll (ms : List Matcher) (cs : List Char) : Bool := (remainders ms cs).any (·.isEmpty)

/-- The lengths of the starts of a text that a pattern matches. -/
def prefixLengths (ms : List Matcher) (cs : List Char) : List Nat :=
  (remainders ms cs).map (cs.length - ·.length)

/-- The lengths of the ends of a text that a pattern matches. -/
def suffixLengths (ms : List Matcher) (cs : List Char) : List Nat :=
  ((suffixes cs).filter (matchesAll ms)).map (·.length)

end Matcher

end SchemaCompiler.Shell

import SchemaCompiler.Shell.Pattern

/-!
# Regular expressions

An expression is read in two steps: its text becomes marks, which are the same in all dialects, and
the marks become a tree. Of all matches the first one counts, and of those that start there the
longest.
-/

namespace SchemaCompiler.Shell

inductive Regex where
  | empty
  | one (m : Matcher)
  | lineStart
  | lineEnd
  /-- A place between a character of a word and one that is none. -/
  | wordEdge
  | sequence (first second : Regex)
  | either (first second : Regex)
  /-- As often as `least` at least, and at most as often as `greatest` if there is one. -/
  | repeated (inner : Regex) (least : Nat) (greatest : Option Nat)
  /-- What it matches is kept under a number. -/
  | group (index : Nat) (inner : Regex)
  /-- What a group has matched, once more. -/
  | again (index : Nat)

namespace Regex

/-! ## Marks -/

/-- How special characters are written: with a backslash in front of most of them, without one, or
not at all. -/
inductive Dialect where
  | basic
  | extended
  | fixed
deriving DecidableEq, Repr

inductive Mark where
  | atom (m : Matcher)
  | edge
  | caret
  | dollar
  | groupStart
  | groupEnd
  | bar
  | again (index : Nat)
  | times (sign : Char) (least : Nat) (greatest : Option Nat)
deriving DecidableEq, Repr

def wordRanges : List (Char × Char) := [('a', 'z'), ('A', 'Z'), ('0', '9'), ('_', '_')]

/-- The special characters that are written with a backslash in one dialect and without in
another. -/
def operator? : Char → Option Mark
  | '+' => some (.times '+' 1 none)
  | '?' => some (.times '?' 0 (some 1))
  | '|' => some .bar
  | '(' => some .groupStart
  | ')' => some .groupEnd
  | _ => none

/-- Numbers in braces, behind the opening one, and what stands behind them. -/
def interval? (closing : List Char) (cs : List Char) : Option (Mark × List Char) :=
  let low := cs.takeWhile Char.isDigit
  let behind := cs.drop low.length
  let least := (String.ofList low).toNat?
  let (greatest, behind) := match behind with
    | ',' :: rest =>
      let high := rest.takeWhile Char.isDigit
      ((String.ofList high).toNat?, rest.drop high.length)
    | _ => (least, behind)
  if closing.isPrefixOf behind then
    some (.times '\x7b' (least.getD 0) greatest, behind.drop closing.length)
  else none

/-- What a character stands for behind a backslash that makes no operator of it. -/
def escapedMark (c : Char) : Mark :=
  match c with
  | 's' => .atom (.range false [('\t', '\r'), (' ', ' ')])
  | 'S' => .atom (.range true [('\t', '\r'), (' ', ' ')])
  | 'w' => .atom (.range false wordRanges)
  | 'W' => .atom (.range true wordRanges)
  | 'b' => .edge
  | '<' => .edge
  | '>' => .edge
  | 'n' => .atom (.literal '\n')
  | 't' => .atom (.literal '\t')
  | _ => if c.isDigit && c ≠ '0' then .again (c.toNat - '0'.toNat) else .atom (.literal c)

/-- The mark at the start of a text, and what stands behind it. -/
def markOf (d : Dialect) (c : Char) (rest : List Char) : Mark × List Char :=
  let plain := (Mark.atom (.literal c), rest)
  match c with
  | '.' => (.atom .anyChar, rest)
  | '*' => (.times '*' 0 none, rest)
  | '^' => (.caret, rest)
  | '$' => (.dollar, rest)
  | '[' =>
    match Matcher.bracketed? (rest.map (⟨·, true⟩)) with
    | some (m, behind) => (.atom m, behind.map (·.char))
    | none => plain
  | '\\' =>
    match rest with
    | [] => plain
    | '\x7b' :: behind =>
      if d = .basic then (interval? ['\\', '\x7d'] behind).getD (.atom (.literal '\x7b'), behind)
      else (.atom (.literal '\x7b'), behind)
    | e :: behind =>
      if d = .basic then ((operator? e).getD (escapedMark e), behind) else (escapedMark e, behind)
  | '\x7b' => if d = .extended then (interval? ['\x7d'] rest).getD plain else plain
  | _ => if d = .extended then ((operator? c).getD (.atom (.literal c)), rest) else plain

def marksFrom (d : Dialect) : Nat → List Char → List Mark
  | 0, _ => []
  | _, [] => []
  | fuel + 1, c :: rest =>
    let (m, behind) := markOf d c rest
    m :: marksFrom d fuel behind

/-- Whether an alternative starts behind a mark. -/
def startsBehind : Option Mark → Bool
  | none => true
  | some .groupStart => true
  | some .bar => true
  | _ => false

/-- Whether an alternative ends in front of a mark. -/
def endsBefore : Option Mark → Bool
  | none => true
  | some .groupEnd => true
  | some .bar => true
  | _ => false

/-- A special character that stands where it can mean nothing stands for itself. -/
def settle (d : Dialect) (before : Option Mark) : List Mark → List Mark
  | [] => []
  | m :: rest =>
    let settled := match m with
      | .caret => if d = .basic && !startsBehind before then .atom (.literal '^') else m
      | .dollar => if d = .basic && !endsBefore rest.head? then .atom (.literal '$') else m
      | .times sign _ _ =>
        if startsBehind before || before = some .caret then .atom (.literal sign) else m
      | _ => m
    settled :: settle d (some settled) rest

/-- A closing parenthesis that closes nothing stands for itself. -/
def balanced : Nat → List Mark → List Mark
  | _, [] => []
  | depth, .groupStart :: rest => .groupStart :: balanced (depth + 1) rest
  | 0, .groupEnd :: rest => .atom (.literal ')') :: balanced 0 rest
  | depth + 1, .groupEnd :: rest => .groupEnd :: balanced depth rest
  | depth, m :: rest => m :: balanced depth rest

/-! ## Trees -/

structure Input where
  marks : List Mark
  groups : Nat := 0

/-- Repeats an expression as the marks behind it say. -/
def quantified (r : Regex) : StateM Input Regex := do
  let i ← get
  let signs := i.marks.takeWhile fun m => m matches .times ..
  set { i with marks := i.marks.drop signs.length : Input }
  return signs.foldl (fun r m =>
    match m with
    | .times _ least greatest => .repeated r least greatest
    | _ => r) r

/-- Takes the next mark. -/
def nextMark : StateM Input (Option Mark) := do
  let i ← get
  set { i with marks := i.marks.tail : Input }
  return i.marks.head?

mutual

/-- Alternatives up to the end of a group. -/
def alternatives : Nat → StateM Input Regex
  | 0 => return .empty
  | fuel + 1 => do
    let first ← items fuel
    if (← get).marks.head? = some .bar then
      let _ ← nextMark
      return .either first (← alternatives fuel)
    return first

/-- What is matched one after the other in one alternative. -/
def items : Nat → StateM Input Regex
  | 0 => return .empty
  | fuel + 1 => do
    if endsBefore (← get).marks.head? then return .empty
    let first ← match ← nextMark with
      | some (.atom m) => pure (Regex.one m)
      | some .edge => pure .wordEdge
      | some .caret => pure .lineStart
      | some .dollar => pure .lineEnd
      | some (.again index) => pure (.again index)
      | some .groupStart =>
        modify fun i => { i with groups := i.groups + 1 }
        let index := (← get).groups
        let inner ← alternatives fuel
        let _ ← nextMark
        pure (.group index inner)
      | _ => pure .empty
    let first ← quantified first
    return .sequence first (← items fuel)

end

/-- Reads an expression. -/
def parse (d : Dialect) (text : String) : Regex :=
  let cs := text.toList
  if d = .fixed then cs.foldr (fun c r => .sequence (.one (.literal c)) r) .empty
  else
    let marks := settle d none (balanced 0 (marksFrom d cs.length cs))
    ((alternatives (2 * marks.length + 2)).run { marks }).1

/-- Whether a group is to be matched again before it ends. Groups have numbers from `next` on; `opened`
are those that have not ended, innermost first. -/
def refersAhead (next : Nat) (opened closed : List Nat) : List Mark → Bool
  | [] => false
  | .groupStart :: rest => refersAhead (next + 1) (next :: opened) closed rest
  | .groupEnd :: rest => refersAhead next opened.tail (opened.take 1 ++ closed) rest
  | .again index :: rest => !closed.contains index || refersAhead next opened closed rest
  | _ :: rest => refersAhead next opened closed rest

/-- What keeps an expression from being read: parentheses or brackets that do not match, or a group
that is used before its end. -/
def problem? (d : Dialect) (cs : List Char) : Option String :=
  if d = .fixed then none
  else if opensBracket cs.length cs then some "Unmatched [, [^, [:, [., or [="
  else
    let marks := marksFrom d cs.length cs
    match marks.foldl balance (some 0) with
    | none => if d = .basic then some "Unmatched ) or \\)" else none
    | some 0 => if refersAhead 1 [] [] marks then some "Invalid back reference" else none
    | some _ => some "Unmatched ( or \\("
where
  balance : Option Nat → Mark → Option Nat
    | some n, .groupStart => some (n + 1)
    | some n, .groupEnd => if n = 0 then none else some (n - 1)
    | n, _ => n
  /-- Whether a bracket is opened and not closed. -/
  opensBracket : Nat → List Char → Bool
    | 0, _ => false
    | _, [] => false
    | fuel + 1, '\\' :: _ :: rest => opensBracket fuel rest
    | fuel + 1, '[' :: rest =>
      match Matcher.bracketed? (rest.map (⟨·, true⟩)) with
      | some (_, behind) => opensBracket fuel (behind.map (·.char))
      | none => true
    | fuel + 1, _ :: rest => opensBracket fuel rest

/-! ## Matches -/

/-- A place in a line, with what the groups have matched on the way to it. -/
structure Progress where
  before : Option Char
  rest : List Char
  groups : List (Nat × String) := []

def isWordChar (c : Char) : Bool := c.isAlphanum || c == '_'

/-- Goes on with an expression as often as it may, the most often first. -/
def iterate (step : Progress → List Progress) : Nat → Nat → Option Nat → Progress → List Progress
  | 0, _, _, p => [p]
  | fuel + 1, least, greatest, p =>
    let next := if greatest = some 0 then [] else
      (step p).filter fun q => least > 0 || q.rest.length < p.rest.length
    let more := next.flatMap (iterate step fuel (least - 1) (greatest.map (· - 1)))
    more ++ if least = 0 then [p] else []

/-- The places that an expression leads to. -/
def reach (ignoreCase : Bool) : Regex → Progress → List Progress
  | empty, p => [p]
  | one m, p =>
    match p.rest with
    | [] => []
    | c :: cs =>
      let holds := m.holds c || (ignoreCase && (m.holds c.toLower || m.holds c.toUpper))
      if holds then [{ p with before := some c, rest := cs }] else []
  | lineStart, p => if p.before.isNone then [p] else []
  | lineEnd, p => if p.rest.isEmpty then [p] else []
  | wordEdge, p => if p.before.any isWordChar != p.rest.head?.any isWordChar then [p] else []
  | sequence first second, p => (reach ignoreCase first p).flatMap (reach ignoreCase second)
  | either first second, p => reach ignoreCase first p ++ reach ignoreCase second p
  | repeated inner least greatest, p =>
    iterate (reach ignoreCase inner) (p.rest.length + least + 1) least greatest p
  | group index inner, p =>
    (reach ignoreCase inner p).map fun q =>
      let text := String.ofList (p.rest.take (p.rest.length - q.rest.length))
      { q with groups := (index, text) :: q.groups }
  | again index, p =>
    match p.groups.lookup index with
    | none => []
    | some text =>
      let folded := fun (cs : List Char) => if ignoreCase then cs.map Char.toLower else cs
      let found := p.rest.take text.length
      if folded found = folded text.toList then
        [{ p with before := found.getLast? <|> p.before, rest := p.rest.drop text.length }]
      else []

/-- How many parts of what an expression matches are kept. -/
def groups : Regex → Nat
  | group _ inner => inner.groups + 1
  | sequence first second => first.groups + second.groups
  | either first second => first.groups + second.groups
  | repeated inner _ _ => inner.groups
  | _ => 0

/-- What an expression has matched. -/
structure Found where
  text : String
  groups : List (Nat × String)

/-- The part of a match that a number stands for; the whole match has the number 0. -/
def Found.part (f : Found) (index : Nat) : String :=
  if index = 0 then f.text else (f.groups.lookup index).getD ""

/-- The longest match at a place, and the place behind it. -/
def matchAt? (r : Regex) (ignoreCase : Bool) (before : Option Char) (cs : List Char) :
    Option (Found × Progress) :=
  let longest := (r.reach ignoreCase { before, rest := cs }).foldl (fun best p =>
    match best with
    | none => some p
    | some (q : Progress) => if p.rest.length < q.rest.length then some p else some q) none
  longest.map fun p => (⟨String.ofList (cs.take (cs.length - p.rest.length)), p.groups⟩, p)

/-- A line as matches and the characters between them. Right behind a match there is no empty
one. -/
def piecesFrom (r : Regex) (ignoreCase : Bool) :
    Nat → Bool → Option Char → List Char → List (Char ⊕ Found)
  | 0, _, _, cs => cs.map .inl
  | fuel + 1, behindMatch, before, cs =>
    let skipped := match cs with
      | [] => []
      | c :: rest => .inl c :: piecesFrom r ignoreCase fuel false (some c) rest
    match r.matchAt? ignoreCase before cs with
    | none => skipped
    | some (found, p) =>
      if found.text ≠ "" then .inr found :: piecesFrom r ignoreCase fuel true p.before p.rest
      else if behindMatch then skipped
      else .inr found :: skipped

def pieces (r : Regex) (ignoreCase : Bool) (line : String) : List (Char ⊕ Found) :=
  r.piecesFrom ignoreCase (line.length + 1) false none line.toList

/-- The matches in a line. -/
def findAll (r : Regex) (ignoreCase : Bool) (line : String) : List Found :=
  (r.pieces ignoreCase line).filterMap Sum.getRight?

def isIn (r : Regex) (ignoreCase : Bool) (line : String) : Bool :=
  !(r.findAll ignoreCase line).isEmpty

end Regex

end SchemaCompiler.Shell

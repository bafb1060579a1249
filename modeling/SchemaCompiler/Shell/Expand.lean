import SchemaCompiler.Shell.Arithmetic
import SchemaCompiler.Shell.Pattern

/-!
# Expansion

Before a command runs, the parts of its words are replaced by what they stand for. What comes out of
an expansion without quotes is cut into fields, and a field that is a pattern gives way to the
paths that it matches. Commands in a word are run by a function that is passed in.
-/

namespace SchemaCompiler.Shell

/-- A piece of an expanded word. -/
inductive Piece where
  /-- Text that stays in one field. -/
  | fixed (text : String) (quoted : Bool)
  /-- Text that is cut into fields. -/
  | loose (text : String)
  /-- The end of one argument and the start of the next. -/
  | border
deriving DecidableEq, Repr

namespace Piece

def ofValue (quoted : Bool) (text : String) : Piece := if quoted then fixed text true else loose text

/-- Unquoted text that stands in for a parameter is cut as its value would be. -/
def loosen : Piece → Piece
  | fixed text false => loose text
  | p => p

def text : Piece → String
  | fixed t _ => t
  | loose t => t
  | border => " "

def glyphs : Piece → List Glyph
  | fixed t quoted => Glyph.ofString t !quoted
  | loose t => Glyph.ofString t true
  | border => [⟨' ', true⟩]

end Piece

/-- Pieces as one text. -/
def joinPieces (ps : List Piece) : String := String.join (ps.map (·.text))

/-! ## Fields -/

/-- The fields so far. -/
structure Splitter where
  fields : List (List Glyph) := []
  /-- The field that is being gathered. -/
  current : Option (List Glyph) := none
  /-- Blanks have ended the last field, and a separator behind them belongs to them. -/
  pending : Bool := false

namespace Splitter

/-- Ends the field that is being gathered. -/
def close (s : Splitter) : Splitter :=
  match s.current with
  | some gs => { s with fields := s.fields ++ [gs], current := none }
  | none => s

def push (s : Splitter) (gs : List Glyph) : Splitter :=
  { s with current := some (s.current.getD [] ++ gs), pending := false }

/-- Takes a character that may separate fields. -/
def step (separators : String) (s : Splitter) (c : Char) : Splitter :=
  if !separators.toList.contains c then s.push [⟨c, true⟩]
  else if c.isWhitespace then { s.close with pending := s.pending || s.current.isSome }
  else if s.pending then { s with pending := false }
  else { fields := s.fields ++ [s.current.getD []] }

def add (separators : String) (s : Splitter) : Piece → Splitter
  | .fixed text quoted => if text = "" && !quoted then s else s.push (Glyph.ofString text !quoted)
  | .loose text => text.toList.foldl (step separators) s
  | .border => { s.close with pending := false }

/-- The fields of a word. -/
def split (separators : String) (ps : List Piece) : List (List Glyph) :=
  (ps.foldl (add separators) {}).close.fields

end Splitter

/-! ## Paths -/

/-- The components of a path. -/
def componentsOf (gs : List Glyph) : List (List Glyph) :=
  gs.foldr (fun g parts =>
    match g.char, parts with
    | '/', parts => [] :: parts
    | _, first :: rest => (g :: first) :: rest
    | _, [] => [[g]]) [[]]

/-- Whether a pattern can match a name; names that start with a dot are hidden. -/
def matchesName (pattern : List Glyph) (name : String) : Bool :=
  (!name.startsWith "." || pattern.head?.any (·.char == '.')) &&
    Matcher.matchesAll (Matcher.ofGlyphs pattern) name.toList

/-- The names that a component stands for below a path. -/
def namesBelow (s : Session) (before : String) (component : List Glyph) : List String :=
  if Glyph.isPattern component then
    let place := if before = "" then "." else before
    ([".", ".."] ++ s.tree.namesIn (s.dir.join place)).filter (matchesName component)
  else [Glyph.text component]

/-- The paths that a pattern matches, from what its first components stand for on. -/
def pathsFrom (s : Session) (before : List String) : List (List Glyph) → List String
  | [] => before
  | component :: rest =>
    let slash := if rest.isEmpty then "" else "/"
    let found := before.flatMap fun p => (namesBelow s p component).map (p ++ · ++ slash)
    pathsFrom s (found.filter fun p => s.tree.exists? (s.dir.join p)) rest

/-- The paths that a field stands for; one that matches nothing stands for itself. -/
def expandPath (s : Session) (field : List Glyph) : List String :=
  if !Glyph.isPattern field then [Glyph.text field]
  else
    match pathsFrom s [""] (componentsOf field) with
    | [] => [Glyph.text field]
    | paths => paths.mergeSort

/-! ## Parameters -/

/-- All arguments, for `@` and `*`. -/
def argumentPieces (s : Session) (joined quoted : Bool) : List Piece :=
  if quoted && joined then
    [.fixed ((String.ofList (s.separators.toList.take 1)).intercalate s.arguments) true]
  else (s.arguments.map (Piece.ofValue quoted)).intersperse .border

/-- The value of a parameter, as far as it has one. -/
def valueOf? (s : Session) (name : String) : Option String :=
  if name = "@" || name = "*" then
    if s.arguments.isEmpty then none else some (" ".intercalate s.arguments)
  else s.parameter? name

/-- The value of a parameter that must be set if the options say so. -/
def requiredValue (name : String) : Exec String := do
  let s ← get
  match valueOf? s name with
  | some value => return value
  | none =>
    if s.options.refuseUnset then Exec.abort (name ++ ": parameter not set")
    return ""

def parameterPieces (name : String) (quoted : Bool) : Exec (List Piece) := do
  if name = "@" || name = "*" then return argumentPieces (← get) (name = "*") quoted
  return [.ofValue quoted (← requiredValue name)]

/-- Whether something else takes the place of a parameter. -/
def isMissing (s : Session) (name : String) (orEmpty : Bool) : Bool :=
  match valueOf? s name with
  | none => true
  | some value => orEmpty && value = ""

/-- The text that is left of a value when what a pattern matches is cut off. -/
def trimValue (t : Trim) (pattern : List Glyph) (value : String) : String :=
  let ms := Matcher.ofGlyphs pattern
  let cs := value.toList
  let lengths := if t.atEnd then Matcher.suffixLengths ms cs else Matcher.prefixLengths ms cs
  match if t.longest then lengths.max? else lengths.min? with
  | none => value
  | some n => String.ofList (if t.atEnd then cs.take (cs.length - n) else cs.drop n)

/-- What stands in for a missing parameter. -/
def substitute (name : String) (quoted orEmpty : Bool) (kind : Fallback) (word : List Piece) :
    Exec (List Piece) := do
  match kind with
  | .assign =>
    Exec.assign name (joinPieces word)
    parameterPieces name quoted
  | .complain =>
    let why := joinPieces word
    let usual := if orEmpty then "parameter not set or null" else "parameter not set"
    Exec.abort (name ++ ": " ++ if why = "" then usual else why)
    return []
  | _ => return word.map .loosen

/-! ## Parts -/

/-- An empty text between quotes is a field all the same. -/
def orEmptyField (quoted : Bool) (ps : List Piece) : List Piece :=
  if quoted && ps.isEmpty then [.fixed "" true] else ps

variable (capture : Command → Exec String)

mutual

def expandPart : Part → Exec (List Piece)
  | .text chars quoted => return [.fixed chars quoted]
  | .parameter name quoted => parameterPieces name quoted
  | .length name quoted => do
    let value ← requiredValue name
    return [.ofValue quoted (toString value.utf8ByteSize)]
  | .fallback name quoted kind orEmpty word => do
    let missing := isMissing (← get) name orEmpty
    if missing != decide (kind = .alternative) then
      let pieces ← expandParts word
      return orEmptyField quoted (← substitute name quoted orEmpty kind pieces)
    else if kind = .alternative then return orEmptyField quoted []
    else parameterPieces name quoted
  | .trimmed name quoted trim pattern => do
    let value ← requiredValue name
    let pieces ← expandParts pattern
    return [.ofValue quoted (trimValue trim (pieces.flatMap (·.glyphs)) value)]
  | .output command quoted => return [.ofValue quoted (← capture command)]
  | .arithmetic expression quoted => do
    let pieces ← expandParts expression
    return [.ofValue quoted (← Exec.calculate (joinPieces pieces))]
  | .senseless => do
    Exec.abort "Bad substitution"
    return []

def expandParts : List Part → Exec (List Piece)
  | [] => return []
  | p :: rest => do
    let first ← expandPart p
    return first ++ (← expandParts rest)

end

/-! ## Words -/

/-- The directory that a tilde stands for. -/
def homeOf (s : Session) : String := (s.lookup? "HOME").getD "~"

/-- A tilde at the start of a word stands for a directory. -/
def expandTilde : Word → Exec Word
  | .text chars false :: rest => do
    if chars = "~" || chars.startsWith "~/" then
      let home := homeOf (← get)
      return .text home true :: .text (String.ofList (chars.toList.drop 1)) false :: rest
    return .text chars false :: rest
  | w => return w

/-- The fields that a word stands for. -/
def expandWord (w : Word) : Exec (List String) := do
  let pieces ← expandParts capture (← expandTilde w)
  let s ← get
  let fields := Splitter.split s.separators pieces
  return if s.options.plainPatterns then fields.map Glyph.text else fields.flatMap (expandPath s)

def expandWords : List Word → Exec (List String)
  | [] => return []
  | w :: rest => do
    let first ← expandWord capture w
    return first ++ (← expandWords rest)

/-- A word as one text, where no fields are made. -/
def expandText (w : Word) : Exec String := do
  return joinPieces (← expandParts capture (← expandTilde w))

/-- A word as a pattern. -/
def expandPattern (w : Word) : Exec (List Matcher) := do
  let pieces ← expandParts capture w
  return Matcher.ofGlyphs (pieces.flatMap (·.glyphs))

end SchemaCompiler.Shell

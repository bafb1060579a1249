import SchemaCompiler.Text.Blank

/-!
# Documentation comments

The text between `/*` and `*/` of a comment documents what follows when it starts with a further
star. Each line loses the blanks around it, one leading star and one space after that star. Lines up
to the first tag are the description. A line that starts with `@` opens a tag, which holds the lines
up to the next one; of the tags only `@deprecated` says something here.
-/

namespace SchemaCompiler

/-- A mark that something should no longer be used. -/
structure Deprecation where
  reason : Option String
deriving DecidableEq, Repr, Inhabited

/-- What a documentation comment says. -/
structure Doc where
  description : Option String
  deprecated : Option Deprecation
deriving DecidableEq, Repr, Inhabited

namespace Doc

def empty : Doc := ⟨none, none⟩

def isEmpty (d : Doc) : Bool := d.description.isNone && d.deprecated.isNone

/-- One line without its frame. -/
def bareLine (line : List Char) : List Char :=
  Text.trimEnd (Text.dropHead ' ' (Text.dropHead '*' (Text.trim line)))

/-- The name of a tag and the text after it. -/
def splitTag (line : List Char) : List Char × List Char :=
  (line.takeWhile (!Text.isBlank ·), Text.trim (line.dropWhile (!Text.isBlank ·)))

/-- The tag that the line at hand belongs to. -/
inductive Section where
  | description
  | deprecated
  | other
deriving DecidableEq, Repr

/-- What was gathered from the lines so far. -/
structure Draft where
  current : Section := .description
  description : List (List Char) := []
  deprecated : Option (List (List Char)) := none

def deprecatedTag : List Char := "deprecated".toList

def openTag (d : Draft) (line : List Char) : Draft :=
  let (tag, rest) := splitTag line
  if tag = deprecatedTag then
    { d with current := .deprecated, deprecated := some (if rest.isEmpty then [] else [rest]) }
  else { d with current := .other }

def addText (d : Draft) (line : List Char) : Draft :=
  match d.current with
  | .description => { d with description := d.description ++ [line] }
  | .deprecated =>
    let text := Text.trim line
    if text.isEmpty then d else { d with deprecated := d.deprecated.map (· ++ [text]) }
  | .other => d

def addLine (d : Draft) (line : List Char) : Draft :=
  match bareLine line with
  | '@' :: tag => openTag d tag
  | text => addText d text

/-- A text, or nothing when it is empty. -/
def present? (cs : List Char) : Option String :=
  if cs.isEmpty then none else some (String.ofList cs)

def Draft.finish (d : Draft) : Doc :=
  { description := present? (Text.trim (Text.joinWith ['\n'] d.description))
    deprecated := d.deprecated.map fun lines =>
      ⟨present? (Text.trim (Text.joinWith [' '] lines))⟩ }

/-- Reads the characters between `/*` and `*/`. -/
def parseChars : List Char → Doc
  | '*' :: body => ((Text.lines body).foldl addLine {}).finish
  | _ => empty

def parse (text : String) : Doc := parseChars text.toList

end Doc

end SchemaCompiler

import SchemaCompiler.Text.Blank

/-!
# File paths

A path is kept as it was written, and compared by its components: repeated slashes, a trailing
slash and a `.` that does not stand first say nothing.
-/

namespace SchemaCompiler

/-- One step of a path. A `.` is a step only where a path starts with it. -/
inductive Component where
  | root
  | here
  | up
  | name (text : String)
deriving DecidableEq, Repr

namespace Component

def text : Component → String
  | root => "/"
  | here => "."
  | up => ".."
  | name s => s

/-- Steps sort as `/`, `.`, `..`, then names by code point. -/
def rank : Component → Nat
  | root => 0
  | here => 1
  | up => 2
  | name _ => 3

def compare : Component → Component → Ordering
  | name a, name b => Ord.compare a b
  | a, b => Ord.compare a.rank b.rank

end Component

structure Path where
  text : String
deriving Repr, Inhabited

namespace Path

/-! ## Components -/

/-- The pieces between slashes. -/
def segments (text : String) : List String :=
  (Text.splitAt (· == '/') text.toList).map String.ofList

/-- A segment that no component stands for. -/
def isIdle (segment : String) : Bool := segment == "" || segment == "."

def ofSegment (segment : String) : Component :=
  if segment = ".." then .up else .name segment

def ofSegments : List String → List Component
  | [] => []
  | segment :: more => if isIdle segment then ofSegments more else ofSegment segment :: ofSegments more

def components (p : Path) : List Component :=
  match segments p.text with
  | [] => []
  | [only] => if only = "" then [] else if only = "." then [.here] else [ofSegment only]
  | first :: more =>
    if first = "" then .root :: ofSegments more
    else if first = "." then .here :: ofSegments more
    else ofSegment first :: ofSegments more

/-- Two paths are the same when their components are. -/
instance : BEq Path := ⟨fun p q => p.components == q.components⟩

def compareComponents : List Component → List Component → Ordering
  | [], [] => .eq
  | [], _ :: _ => .lt
  | _ :: _, [] => .gt
  | a :: as, b :: bs => (a.compare b).then (compareComponents as bs)

/-- Paths sort component by component. -/
def compare (p q : Path) : Ordering := compareComponents p.components q.components

def isAbsolute (p : Path) : Bool := p.text.toList.head? == some '/'

/-! ## Building paths -/

/-- Appends a path; an absolute one replaces what is there. -/
def join (p : Path) (more : String) : Path :=
  if more.toList.head? == some '/' then ⟨more⟩
  else if p.text = "" ∨ p.text.toList.getLast? = some '/' then ⟨p.text ++ more⟩
  else ⟨p.text ++ "/" ++ more⟩

/-- The path that is written as these components. -/
def ofComponents : List Component → Path
  | [] => ⟨""⟩
  | .root :: more => ⟨"/" ++ "/".intercalate (more.map Component.text)⟩
  | steps => ⟨"/".intercalate (steps.map Component.text)⟩

/-! ## Taking paths apart -/

/-- Segments without the idle ones at their end. The first segment is never idle here: it is the
root, a leading `.`, or a component. -/
def trimIdle : List String → List String
  | [] => []
  | first :: more => first :: (more.reverse.dropWhile isIdle).reverse

/-- The text of segments; the root alone is a slash. -/
def ofTrimmed : List String → Path
  | [] => ⟨""⟩
  | [only] => if only = "" then ⟨"/"⟩ else ⟨only⟩
  | segments => ⟨"/".intercalate segments⟩

/-- The last component. -/
def last? (p : Path) : Option Component := p.components.getLast?

/-- The path without its last component; the root and the empty path have none. -/
def parent? (p : Path) : Option Path :=
  match p.last? with
  | none => none
  | some .root => none
  | some _ =>
    match trimIdle (segments p.text) with
    | [] => none
    | [_] => some ⟨""⟩
    | segments => some (ofTrimmed (trimIdle segments.dropLast))

/-- The directory of a file: its parent, or the empty path. -/
def directory (p : Path) : Path := p.parent?.getD ⟨""⟩

def fileName? (p : Path) : Option String :=
  match p.last? with
  | some (.name s) => some s
  | _ => none

/-- Cuts a file name at its last dot. A dot in front alone does not count. -/
def splitExtension (fileName : String) : String × Option String :=
  let back := fileName.toList.reverse
  let extension := back.takeWhile (· ≠ '.')
  match back.dropWhile (· ≠ '.') with
  | [] => (fileName, none)
  | _ :: stem =>
    if stem.isEmpty then (fileName, none)
    else (String.ofList stem.reverse, some (String.ofList extension.reverse))

def extension? (p : Path) : Option String := p.fileName?.bind fun n => (splitExtension n).2

/-- Cuts the last extension off the file name. -/
def withoutExtension (p : Path) : Path :=
  match p.fileName? with
  | none => p
  | some fileName =>
    match trimIdle (segments p.text) with
    | [] => p
    | segments => ofTrimmed (segments.dropLast ++ [(splitExtension fileName).1])

/-- Drops the segments that spell the given count of components. -/
def dropComponents : Nat → List String → List String
  | 0, segments => segments.dropWhile isIdle
  | _ + 1, [] => []
  | n + 1, segment :: more =>
    if isIdle segment then dropComponents (n + 1) more else dropComponents n more

/-- What is left of a path below another one. -/
def stripPrefix? (p base : Path) : Option Path :=
  if base.components.isPrefixOf p.components then
    let count := base.components.length
    match segments p.text with
    | [] => some ⟨""⟩
    | first :: more =>
      let rest :=
        if count = 0 then first :: more
        else if first = "" ∨ first = "." then dropComponents (count - 1) more
        else dropComponents count (first :: more)
      match rest with
      | [] => some ⟨""⟩
      | [only] => some ⟨only⟩
      | rest => some (ofTrimmed (trimIdle rest))
  else none

end Path

/-!
## Normal paths

`Path.normalize` removes `.` and takes back the last step at every `..`, without looking at any
file. A `..` with nothing to take back stays; a further `..` takes that one back again.

`Location` is the place that a path means when it is read from left to right.
-/

namespace Path

/-- Takes one more step. The steps so far are given last step first. -/
def step (steps : List Component) : Component → List Component
  | .here => steps
  | .up =>
    match steps with
    | [] => [.up]
    | [.root] => [.up, .root]
    | _ :: earlier => earlier
  | .root => [.root]
  | .name s => .name s :: steps

def normalSteps (components : List Component) : List Component :=
  (components.foldl step []).reverse

def normalize (p : Path) : Path := ofComponents (normalSteps p.components)

end Path

/-- Where a path leads: `ups` directories above the start (the root has none above it), then down
along `names`, last name first. -/
structure Location where
  absolute : Bool
  ups : Nat
  names : List String
deriving DecidableEq, Repr

namespace Location

def start : Location := ⟨false, 0, []⟩

def walk (l : Location) : Component → Location
  | .root => ⟨true, 0, []⟩
  | .here => l
  | .name s => { l with names := s :: l.names }
  | .up =>
    match l.names with
    | _ :: names => { l with names := names }
    | [] => if l.absolute then l else { l with ups := l.ups + 1 }

def ofComponents (components : List Component) : Location := components.foldl walk start

end Location

def Path.location (p : Path) : Location := Location.ofComponents p.components

end SchemaCompiler

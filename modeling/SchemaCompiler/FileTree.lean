import SchemaCompiler.Path.Basic

/-!
# File trees

A file tree is a directory with all that stands below it. Every entry has a place: the names that
lead to it from the top. A path is followed from the top segment by segment, through directories
that exist; what lies above the top, and every absolute path, is out of reach.
-/

namespace SchemaCompiler

inductive FileEntry where
  | directory
  | file (content : ByteArray)

namespace FileEntry

def isDirectory : FileEntry → Bool
  | directory => true
  | file _ => false

def content? : FileEntry → Option ByteArray
  | directory => none
  | file content => some content

end FileEntry

/-- Why a file cannot be used. -/
inductive AccessError where
  | notFound
  | notDirectory
  | isDirectory
  | alreadyExists
  | notText
deriving DecidableEq, Repr

def AccessError.text : AccessError → String
  | notFound => "No such file or directory (os error 2)"
  | alreadyExists => "File exists (os error 17)"
  | notDirectory => "Not a directory (os error 20)"
  | isDirectory => "Is a directory (os error 21)"
  | notText => "stream did not contain valid UTF-8"

/-- The names from the top down to an entry. -/
abbrev Place := List String

structure FileTree where
  /-- What stands below the top, sorted by place. -/
  entries : List (Place × FileEntry) := []

namespace FileTree

/-! ## Entries by place -/

def get? (t : FileTree) (place : Place) : Option FileEntry :=
  if place = [] then some .directory else t.entries.lookup place

def isDirectoryAt (t : FileTree) (place : Place) : Bool := (t.get? place).any (·.isDirectory)

/-- The names in a directory, sorted. -/
def children (t : FileTree) (place : Place) : List String :=
  t.entries.filterMap fun (other, _) => if other.dropLast = place then other.getLast? else none

/-- The directories below a place, as the names that lead to them from there. -/
def directoriesBelow (t : FileTree) (place : Place) : List Place :=
  t.entries.filterMap fun (other, entry) =>
    if entry.isDirectory ∧ place.isPrefixOf other ∧ other ≠ place then
      some (other.drop place.length)
    else none

def pathOf (place : Place) : Path := ⟨"/".intercalate place⟩

/-- All files with their paths from the top. -/
def files (t : FileTree) : List (Path × ByteArray) :=
  t.entries.filterMap fun (place, entry) => entry.content?.map (pathOf place, ·)

/-! ## Entries by path -/

/-- Follows one segment of a path. -/
def step (t : FileTree) (place : Place) (segment : String) : Except AccessError Place :=
  if !t.isDirectoryAt place then .error .notDirectory
  else if Path.isIdle segment then .ok place
  else if segment = ".." then
    if place = [] then .error .notFound else .ok place.dropLast
  else if (t.get? (place ++ [segment])).isSome then .ok (place ++ [segment])
  else .error .notFound

def follow (t : FileTree) (segments : List String) : Except AccessError Place :=
  segments.foldlM t.step []

/-- Whether a path can lead anywhere. -/
def isReachable (p : Path) : Bool := p.text != "" && !p.isAbsolute

/-- The place of the entry that a path leads to. -/
def locate (t : FileTree) (p : Path) : Except AccessError Place :=
  if isReachable p then t.follow (Path.segments p.text) else .error .notFound

/-- The entry that a path leads to. -/
def find? (t : FileTree) (p : Path) : Option FileEntry :=
  match t.locate p with
  | .ok place => t.get? place
  | .error _ => none

def exists? (t : FileTree) (p : Path) : Bool := (t.find? p).isSome

def isDirectory (t : FileTree) (p : Path) : Bool := (t.find? p).any (·.isDirectory)

def isFile (t : FileTree) (p : Path) : Bool := (t.find? p).any (!·.isDirectory)

def readBytes (t : FileTree) (p : Path) : Except AccessError ByteArray := do
  let place ← t.locate p
  match (t.get? place).bind FileEntry.content? with
  | some content => pure content
  | none => .error .isDirectory

def readText (t : FileTree) (p : Path) : Except AccessError String := do
  let content ← t.readBytes p
  match String.fromUTF8? content with
  | some text => pure text
  | none => .error .notText

/-- The names in the directory that a path leads to; elsewhere there are none. -/
def namesIn (t : FileTree) (p : Path) : List String :=
  match t.locate p with
  | .ok place => t.children place
  | .error _ => []

end FileTree

end SchemaCompiler

/-!
## Writing into a file tree

Directories and files are made where a path leads, as long as the directory around them exists.
`FileTree.changes` lists what was written between two states of a tree.
-/

namespace SchemaCompiler.FileTree

/-! ### Entries by place -/

def comparePlaces : Place → Place → Ordering
  | [], [] => .eq
  | [], _ :: _ => .lt
  | _ :: _, [] => .gt
  | a :: as, b :: bs => (Ord.compare a b).then (comparePlaces as bs)

/-- Puts an entry in its place; it replaces what stood there. -/
def insertEntry (place : Place) (entry : FileEntry) :
    List (Place × FileEntry) → List (Place × FileEntry)
  | [] => [(place, entry)]
  | other :: rest =>
    match comparePlaces place other.1 with
    | .lt => (place, entry) :: other :: rest
    | .eq => (place, entry) :: rest
    | .gt => other :: insertEntry place entry rest

def insert (t : FileTree) (place : Place) (entry : FileEntry) : FileTree :=
  ⟨insertEntry place entry t.entries⟩

/-! ### Entries by path -/

/-- The directory around the entry that a path names, and the last segment of the path. -/
def surroundings (t : FileTree) (p : Path) : Except AccessError (Place × String) :=
  if isReachable p then
    match (Path.segments p.text).reverse.dropWhile (· = "") with
    | [] => .error .notFound
    | last :: earlier => do
      let place ← t.follow earlier.reverse
      if t.isDirectoryAt place then pure (place, last) else .error .notDirectory
  else .error .notFound

/-- A segment that never names a new entry. -/
def isDots (segment : String) : Bool := segment = "." || segment = ".."

/-- Makes a directory in a directory that exists. -/
def makeDirectory (t : FileTree) (p : Path) : Except AccessError FileTree := do
  let (place, name) ← t.surroundings p
  if isDots name || (t.get? (place ++ [name])).isSome then .error .alreadyExists
  else pure (t.insert (place ++ [name]) .directory)

/-- A directory that is already there is as good as a new one. -/
def ensureDirectory (t : FileTree) (p : Path) : Except AccessError FileTree :=
  match t.makeDirectory p with
  | .ok made => .ok made
  | .error e => if t.isDirectory p then .ok t else .error e

/-- Makes the first of some directories, each the parent of the one before it. -/
def makeLineage (t : FileTree) : List Path → Except AccessError FileTree
  | [] => .ok t
  | p :: parents =>
    match t.ensureDirectory p with
    | .ok made => .ok made
    | .error .notFound => do
      let t ← makeLineage t parents
      t.ensureDirectory p
    | .error e => .error e

/-- A path, its parent, the parent of that, and so on for `count` paths. -/
def lineage (p : Path) : Nat → List Path
  | 0 => []
  | count + 1 =>
    p :: match p.parent? with
      | some parent => lineage parent count
      | none => []

/-- Makes a directory with all the directories around it. -/
def makeDirectories (t : FileTree) (p : Path) : Except AccessError FileTree :=
  t.makeLineage (lineage p p.components.length)

/-- Writes a file into a directory that exists. -/
def writeFile (t : FileTree) (p : Path) (content : ByteArray) : Except AccessError FileTree := do
  let (place, name) ← t.surroundings p
  if isDots name || p.text.endsWith "/" || t.isDirectoryAt (place ++ [name]) then
    .error .isDirectory
  else pure (t.insert (place ++ [name]) (.file content))

/-- Writes a file and makes the directories around it. -/
def writeFileIn (t : FileTree) (p : Path) (content : ByteArray) : Except AccessError FileTree :=
  match p.parent? with
  | some parent => do
    let t ← t.makeDirectories parent
    t.writeFile p content
  | none => t.writeFile p content

/-! ### Moving and removing -/

/-- Takes an entry away with all that stands below it. -/
def remove (t : FileTree) (place : Place) : FileTree :=
  ⟨t.entries.filter fun (other, _) => !place.isPrefixOf other⟩

/-- What stands at a place and below it, as seen from there. -/
def below (t : FileTree) (place : Place) : List (Place × FileEntry) :=
  t.entries.filterMap fun (other, entry) =>
    if place.isPrefixOf other then some (other.drop place.length, entry) else none

/-- Puts a copy of all at one place at another. -/
def copy (t : FileTree) (source target : Place) : FileTree :=
  (t.below source).foldl (fun t (rest, entry) => t.insert (target ++ rest) entry) t

/-! ### Changes -/

/-- Whether a place holds a file with the given content. -/
def holds (t : FileTree) (place : Place) (content : ByteArray) : Bool :=
  ((t.get? place).bind FileEntry.content?).any (·.data == content.data)

/-- The files that are new in `after` or have another content than in `before`, sorted by their
path as text. -/
def changes (before after : FileTree) : List (Path × ByteArray) :=
  (after.entries.filterMap fun (place, entry) => do
    let content ← entry.content?
    if before.holds place content then none else some (pathOf place, content)).mergeSort
    fun a b => a.1.text ≤ b.1.text

end SchemaCompiler.FileTree

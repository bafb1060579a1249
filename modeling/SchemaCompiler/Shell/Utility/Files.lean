import SchemaCompiler.Shell.Quote
import SchemaCompiler.Shell.Usage

/-!
# Commands for files and directories
-/

namespace SchemaCompiler.Shell.Utility

open Exec

/-- The text without slashes at its end. -/
def withoutSlashes (text : String) : String :=
  String.ofList (text.toList.reverse.dropWhile (· = '/')).reverse

/-- The last component of a path. -/
def baseName (path : String) : String :=
  let bare := withoutSlashes path
  if bare = "" then (if path = "" then "" else "/") else (bare.splitOn "/").getLast?.getD bare

/-- What stands in front of the last component of a path. -/
def directoryName (path : String) : String :=
  let bare := withoutSlashes path
  match (bare.splitOn "/").dropLast with
  | [] => if bare = "" && path ≠ "" then "/" else "."
  | parts =>
    let front := withoutSlashes ("/".intercalate parts)
    if front = "" then "/" else front

/-- Characters that a name is shown in quotes for. -/
def isOdd (c : Char) : Bool := !c.isAlphanum && !"%+,-./:=@_".toList.contains c && c.toNat < 128

/-- A name as messages show it: in quotes if it is empty or has odd characters. -/
def shown (name : String) : String :=
  if name ≠ "" && !name.toList.any isOdd then name
  else if name.contains '\'' && !name.toList.any fun c => "\"$\x60\\".toList.contains c then
    "\"" ++ name ++ "\""
  else "'" ++ String.ofList (name.toList.flatMap quoteChar) ++ "'"

/-- The text of a file; `-` is the input. -/
def readFile (file : String) : Exec (Except AccessError String) := do
  if file = "-" || file = "/dev/stdin" then
    let (text, s) := (← get).takeInput
    set s
    return .ok text
  else if file = "/dev/null" then return .ok ""
  else
    let s ← get
    return s.tree.readText (s.resolve file)

/-- Changes the tree by what a path leads to, or fails with a message. -/
def change (message : String) (f : FileTree → Except AccessError FileTree) : Exec Unit := do
  let s ← get
  match f s.tree with
  | .ok tree => set { s with tree }
  | .error e => warn 1 (message ++ ": " ++ reason e)

/-- Runs a command on each of some operands. -/
def forAll (operands : List String) (f : String → Exec Unit) : Exec Unit := operands.forM f

/-! ## Making -/

def touch : List String → Exec Unit :=
  let usage : Usage :=
    { name := "touch", letters := "achm", valued := "drt", long := [("no-create", 'c')] }
  usage.run fun a => do
    if a.operands.isEmpty then usage.refuse "missing file operand"
    forAll a.operands fun file => do
      let path := (← get).resolve file
      change ("touch: cannot touch '" ++ file ++ "'") fun t =>
        if t.exists? path || a.has 'c' then .ok t else t.writeFile path ByteArray.empty

def makeDirectory : List String → Exec Unit :=
  let usage : Usage :=
    { name := "mkdir", letters := "pv", valued := "m"
      long := [("parents", 'p'), ("verbose", 'v'), ("mode", 'm')] }
  usage.run fun a => do
    if a.operands.isEmpty then usage.refuse "missing operand"
    forAll a.operands fun name => do
      let path := (← get).resolve name
      change ("mkdir: cannot create directory '" ++ name ++ "'") fun t =>
        if a.has 'p' then t.makeDirectories path else t.makeDirectory path
      if a.has 'v' && (← get).status = 0 then
        writeOut ("mkdir: created directory '" ++ name ++ "'\n")

/-- The size that a file gets: a number, or how much more or less than it has. -/
def sizeFrom (size : Nat) (text : String) : Nat :=
  let n := (String.ofList (text.toList.filter Char.isDigit)).toNat?.getD 0
  if text.startsWith "+" then size + n else if text.startsWith "-" then size - n else n

/-- Cuts a file off, or fills it up with zeros. -/
def resized (content : ByteArray) (size : Nat) : ByteArray :=
  ⟨((content.toList.take size) ++ List.replicate (size - content.size) 0).toArray⟩

def truncate : List String → Exec Unit :=
  let usage : Usage :=
    { name := "truncate", letters := "c", valued := "s"
      long := [("size", 's'), ("no-create", 'c')] }
  usage.run fun a => do
    match a.value? 's' with
    | none => usage.refuse "you must specify either '--size' or '--reference'"
    | some size =>
      if a.operands.isEmpty then usage.refuse "missing file operand"
      forAll a.operands fun file => do
        let path := (← get).resolve file
        change ("truncate: cannot open '" ++ file ++ "' for writing") fun t => do
          if a.has 'c' && !t.exists? path then return t
          let before := (t.readBytes path).toOption.getD ByteArray.empty
          t.writeFile path (resized before (sizeFrom before.size size))

/-- Whether a mode lets a file be run or keeps it from it, if it says anything about that. -/
def runMode? (mode : String) : Option Bool :=
  if mode.toList.all Char.isDigit then some (mode.toList.any fun c => "1357".contains c)
  else if !mode.contains 'x' then none
  else some (mode.contains '+' || mode.contains '=')

/-- A word that takes a permission away, and is no option. -/
def isModeWord (word : String) : Bool :=
  word.startsWith "-" && (word.toList.drop 1).all fun c => "rwxXst".contains c

/-- Of all permissions only the one to run a file counts. -/
def changeMode (words : List String) : Exec Unit :=
  match words.filter fun w => !Usage.isOption w || isModeWord w with
  | [] => Usage.refuse { name := "chmod" } "missing operand"
  | mode :: names =>
    forAll names fun name => do
      let s ← get
      match s.tree.locate (s.resolve name) with
      | .error e => warn 1 ("chmod: cannot access '" ++ name ++ "': " ++ reason e)
      | .ok place =>
        let others := s.runnable.filter (· ≠ place)
        match runMode? mode with
        | some true => set { s with runnable := place :: others }
        | some false => set { s with runnable := others }
        | none => pure ()

/-! ## Removing -/

def removeDirectory : List String → Exec Unit :=
  let usage : Usage := { name := "rmdir", letters := "pv", long := [("parents", 'p')] }
  usage.run fun a => do
    if a.operands.isEmpty then usage.refuse "missing operand"
    forAll a.operands fun name => do
      let s ← get
      let message := "rmdir: failed to remove '" ++ name ++ "'"
      match s.tree.locate (s.resolve name) with
      | .error e => warn 1 (message ++ ": " ++ reason e)
      | .ok place =>
        if !s.tree.isDirectoryAt place then warn 1 (message ++ ": Not a directory")
        else if !(s.tree.children place).isEmpty then warn 1 (message ++ ": Directory not empty")
        else set { s with tree := s.tree.remove place }

/-- Removes what a name stands for, if the options allow it. -/
def removeNamed (a : Arguments) (name : String) : Exec Unit := do
  let s ← get
  let message := "rm: cannot remove '" ++ name ++ "'"
  match s.tree.locate (s.resolve name) with
  | .error .notFound =>
    if !a.has 'f' then warn 1 (message ++ ": No such file or directory")
  | .error e => warn 1 (message ++ ": " ++ reason e)
  | .ok place =>
    let isDirectory := s.tree.isDirectoryAt place
    if isDirectory && !a.hasAny "rRd" then warn 1 (message ++ ": Is a directory")
    else if isDirectory && !a.hasAny "rR" && !(s.tree.children place).isEmpty then
      warn 1 (message ++ ": Directory not empty")
    else
      set { s with tree := s.tree.remove place }
      if a.has 'v' then
        writeOut ((if isDirectory then "removed directory '" else "removed '") ++ name ++ "'\n")

def remove : List String → Exec Unit :=
  let usage : Usage :=
    { name := "rm", letters := "dfiIrRv"
      long := [("force", 'f'), ("recursive", 'r'), ("dir", 'd'), ("verbose", 'v')] }
  usage.run fun a => do
    if a.operands.isEmpty && !a.has 'f' then usage.refuse "missing operand"
    forAll a.operands (removeNamed a)

/-! ## Copying and moving -/

/-- Where a file of some name goes that is copied to a path. -/
def destination (s : Session) (name target : String) : Except AccessError Place :=
  let path := s.resolve target
  match s.tree.locate path with
  | .ok place => .ok (if s.tree.isDirectoryAt place then place ++ [baseName name] else place)
  | .error _ =>
    match s.tree.surroundings path with
    | .ok (place, last) => .ok (place ++ [last])
    | .error e => .error e

/-- A command that copies or moves. -/
structure Transfer where
  usage : Usage
  /-- Takes away what was copied. -/
  moves : Bool

namespace Transfer

def name (c : Transfer) : String := c.usage.name

/-- Whether directories are taken too. -/
def isRecursive (c : Transfer) (a : Arguments) : Bool := c.moves || a.hasAny "rRa"

/-- Puts what a name stands for where a target leads. -/
def place (c : Transfer) (a : Arguments) (target name : String) : Exec Unit := do
  let s ← get
  match s.tree.locate (s.resolve name) with
  | .error e => warn 1 (c.name ++ ": cannot stat '" ++ name ++ "': " ++ reason e)
  | .ok source =>
    if s.tree.isDirectoryAt source && !c.isRecursive a then
      warn 1 (c.name ++ ": -r not specified; omitting directory '" ++ name ++ "'")
    else
      match destination s name target with
      | .error e =>
        let what := if c.moves then ": cannot move '" ++ name ++ "' to '"
          else ": cannot create regular file '"
        warn 1 (c.name ++ what ++ target ++ "': " ++ reason e)
      | .ok place =>
        let inside := s.tree.isDirectory (s.resolve target)
        let shownTarget := if inside then withoutSlashes target ++ "/" ++ baseName name else target
        if place = source then
          warn 1 (c.name ++ ": '" ++ name ++ "' and '" ++ shownTarget ++ "' are the same file")
        else if a.has 'n' && (s.tree.get? place).isSome then return
        else
          let copied := s.tree.copy source place
          set { s with tree := if c.moves then copied.remove source else copied }
          if a.has 'v' then
            writeOut ((if c.moves then "renamed '" else "'") ++ name ++ "' -> '" ++ shownTarget ++
              "'\n")

/-- Puts names into a directory, or the only one under another name. -/
def placeAll (c : Transfer) (a : Arguments) : List String → String → Exec Unit
  | [only], target => c.place a target only
  | names, target => do
    let s ← get
    let path := s.resolve target
    if s.tree.isDirectory path then forAll names (c.place a target)
    else
      let why := if s.tree.exists? path then "Not a directory" else "No such file or directory"
      warn 1 (c.name ++ ": target '" ++ target ++ "': " ++ why)

def run (c : Transfer) : List String → Exec Unit :=
  c.usage.run fun a => do
    match a.value? 't', a.operands with
    | some target, names => c.placeAll a names target
    | none, [] => c.usage.refuse "missing file operand"
    | none, [only] =>
      c.usage.refuse ("missing destination file operand after '" ++ only ++ "'")
    | none, first :: second :: more =>
      let words := first :: second :: more
      c.placeAll a words.dropLast (words.getLast?.getD second)

end Transfer

def copy : List String → Exec Unit :=
  Transfer.run
    { moves := false
      usage :=
        { name := "cp", letters := "abdfHilLnpPrRsTuvxZ", valued := "St"
          long :=
            [("archive", 'a'), ("force", 'f'), ("no-clobber", 'n'), ("preserve", 'p'),
             ("recursive", 'r'), ("target-directory", 't'), ("update", 'u'), ("verbose", 'v')] } }

def move : List String → Exec Unit :=
  Transfer.run
    { moves := true
      usage :=
        { name := "mv", letters := "bfinTuvZ", valued := "St"
          long :=
            [("force", 'f'), ("no-clobber", 'n'), ("target-directory", 't'), ("update", 'u'),
             ("verbose", 'v')] } }

/-! ## Names of files -/

/-! ### Directories -/

/-- How the names in directories are listed. -/
structure Listing where
  session : Session
  arguments : Arguments

namespace Listing

def isDirectory (l : Listing) (path : String) : Bool :=
  l.session.tree.isDirectory (l.session.resolve path)

def exists? (l : Listing) (path : String) : Bool :=
  l.session.tree.exists? (l.session.resolve path)

/-- Names in their order. -/
def ordered (l : Listing) (names : List String) : List String :=
  let sorted := names.mergeSort
  if l.arguments.has 'r' then sorted.reverse else sorted

/-- A line with a name; directories are marked if that is asked for. -/
def line (l : Listing) (name path : String) : String :=
  (if l.arguments.hasAny "Fp" && l.isDirectory path then name ++ "/" else name) ++ "\n"

/-- The names in a directory; hidden ones only if they are asked for. -/
def namesIn (l : Listing) (path : String) : List String :=
  let found := l.session.tree.namesIn (l.session.resolve path)
  let own := if l.arguments.has 'a' then [".", ".."] else []
  l.ordered (own ++ found.filter fun n => l.arguments.hasAny "aA" || !n.startsWith ".")

def pathIn (directory name : String) : String :=
  if directory.endsWith "/" then directory ++ name else directory ++ "/" ++ name

/-- The names in a directory, one a line, under a title. -/
def block (l : Listing) (titled : Bool) (path : String) : String :=
  (if titled then path ++ ":\n" else "") ++
    String.join ((l.namesIn path).map fun n => l.line n (pathIn path n))

/-- A directory and those in it, down to a depth. -/
def nested (l : Listing) : Nat → String → List String
  | 0, path => [path]
  | depth + 1, path =>
    let inner := ((l.namesIn path).filter fun n => !isDots n).map (pathIn path)
    path :: (inner.filter l.isDirectory).flatMap (l.nested depth)
where
  isDots (name : String) : Bool := name = "." || name = ".."

/-- What is printed for operands. -/
def text (l : Listing) (operands : List String) : String :=
  let opens := fun n => l.isDirectory n && !l.arguments.has 'd'
  let files := operands.filter fun n => l.exists? n && !opens n
  let roots := operands.filter opens
  let recursive := l.arguments.has 'R'
  let depth := l.session.tree.entries.length
  let directories := if recursive then roots.flatMap (l.nested depth) else roots
  let titled := recursive || operands.length > 1
  let blocks := directories.map (l.block titled)
  let gap := if files.isEmpty || directories.isEmpty then "" else "\n"
  String.join (files.map fun n => l.line n n) ++ gap ++ "\n".intercalate blocks

end Listing

def list : List String → Exec Unit :=
  Usage.run
    { name := "ls", letters := "1aAbBcCdfFgGhHikLmnNopqQrRsStuUvxXZ", valued := "TwI", status := 2
      long :=
        [("all", 'a'), ("almost-all", 'A'), ("classify", 'F'), ("directory", 'd'),
         ("color", 'q'), ("recursive", 'R'), ("reverse", 'r')] }
    fun a => do
      let l : Listing := ⟨← get, a⟩
      let operands := if a.operands.isEmpty then ["."] else l.ordered a.operands
      forAll (operands.filter (!l.exists? ·)) fun n =>
        warn 2 ("ls: cannot access '" ++ n ++ "': No such file or directory")
      writeOut (l.text operands)

/-! ### Parts of names -/

/-- A name without an ending, unless that is all there is. -/
def withoutEnding (name ending : String) : String :=
  if name.endsWith ending && name ≠ ending then (name.dropEnd ending.length).toString else name

def baseNameCommand : List String → Exec Unit :=
  let usage : Usage :=
    { name := "basename", letters := "az", valued := "s"
      long := [("multiple", 'a'), ("suffix", 's')] }
  usage.run fun a => do
    match a.operands, a.hasAny "as" with
    | [], _ => usage.refuse "missing operand"
    | paths, true =>
      let ending := (a.value? 's').getD ""
      forAll paths fun path => writeOut (withoutEnding (baseName path) ending ++ "\n")
    | [path], false => writeOut (baseName path ++ "\n")
    | [path, ending], false => writeOut (withoutEnding (baseName path) ending ++ "\n")
    | _ :: _ :: extra :: _, false => usage.refuse ("extra operand '" ++ extra ++ "'")

def directoryNameCommand : List String → Exec Unit :=
  let usage : Usage := { name := "dirname", letters := "z" }
  usage.run fun a => do
    if a.operands.isEmpty then usage.refuse "missing operand"
    forAll a.operands fun path => writeOut (directoryName path ++ "\n")

end SchemaCompiler.Shell.Utility

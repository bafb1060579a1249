import SchemaCompiler.Shell.Regex
import SchemaCompiler.Shell.Utility.Lines

/-!
# Searching for lines
-/

namespace SchemaCompiler.Shell.Utility

open Exec

/-! ## Trees -/

/-- The path of something below a path. -/
def pathBelow (path : String) (rest : Place) : String :=
  "/".intercalate ((if path.endsWith "/" then [withoutSlashes path] else [path]) ++ rest)

/-- All that stands at a path and below it, in the order of the tree. -/
def entriesBelow (s : Session) (path : String) : List (String × FileEntry) :=
  match s.tree.locate (s.resolve path) with
  | .error _ => []
  | .ok place => (s.tree.below place).map fun (rest, entry) => (pathBelow path rest, entry)

/-- The files at a path and below it. -/
def filesBelow (s : Session) (path : String) : List String :=
  ((entriesBelow s path).filter (!·.2.isDirectory)).map (·.1)

/-- Whether a pattern for names matches a name. -/
def nameMatches (pattern name : String) : Bool :=
  Matcher.matchesAll (Matcher.ofGlyphs (Glyph.ofString pattern true)) name.toList

/-! ## Lines -/

/-- What is searched for, and how it is reported. -/
structure Search where
  arguments : Arguments
  regex : Regex

namespace Search

def has (q : Search) (letter : Char) : Bool := q.arguments.has letter

def found (q : Search) (line : String) : List Regex.Found :=
  let regex := if q.has 'x' then .sequence .lineStart (.sequence q.regex .lineEnd)
    else if q.has 'w' then .sequence .wordEdge (.sequence q.regex .wordEdge)
    else q.regex
  regex.findAll (q.arguments.hasAny "iy") line

/-- Whether a line is one that is looked for. -/
def selects (q : Search) (line : String) : Bool := (q.found line).isEmpty == q.has 'v'

/-- What is printed of a line. -/
def shown (q : Search) (line : String) : List String :=
  if q.has 'o' then ((q.found line).map (·.text)).filter (· ≠ "") else [line]

/-- The numbers of the lines that are looked for, from zero on. -/
def selected (q : Search) (lines : List String) : List Nat :=
  let all := (lines.zipIdx.filter fun (line, _) => q.selects line).map (·.2)
  match q.arguments.number? 'm' with
  | some most => all.take most
  | none => all

/-- How many lines are shown in front of a selected one, and behind it. -/
def context (q : Search) : Nat × Nat :=
  let both := (q.arguments.number? 'C').getD 0
  ((q.arguments.number? 'B').getD both, (q.arguments.number? 'A').getD both)

/-- What stands in front of a line: the name of its file and its number. -/
def front (q : Search) (title : Option String) (index : Nat) (mark : String) : String :=
  (title.map (· ++ mark)).getD "" ++ if q.has 'n' then toString (index + 1) ++ mark else ""

/-- The selected lines and those around them, with a mark between groups that are apart. -/
def withContext (q : Search) (title : Option String) (lines : List String) (chosen : List Nat) :
    List String :=
  let (before, after) := q.context
  let isNear := fun (i : Nat) => chosen.any fun j => j ≤ i + before && i ≤ j + after
  let near := lines.zipIdx.filter fun (_, i) => isNear i
  let rows := near.zipIdx.flatMap fun ((line, i), k) =>
    let apart := before + after > 0 && k > 0 &&
      (near[k - 1]?).any fun previous => previous.2 + 1 < i
    let texts := if chosen.contains i then (q.shown line).map (q.front title i ":" ++ ·)
      else if q.has 'o' then [] else [q.front title i "-" ++ line]
    (if apart then ["--"] else []) ++ texts
  rows

/-- What is printed about a file. -/
def report (q : Search) (title : Option String) (file text : String) : String :=
  let lines := linesOf text
  let chosen := q.selected lines
  let file := if file = "-" then "(standard input)" else file
  if q.has 'q' then ""
  else if q.has 'L' then if chosen.isEmpty then file ++ "\n" else ""
  else if q.has 'l' then if chosen.isEmpty then "" else file ++ "\n"
  else if q.has 'c' then (title.map (· ++ ":")).getD "" ++ toString chosen.length ++ "\n"
  else unlines (q.withContext title lines chosen)

end Search

def dialectOf (a : Arguments) : Regex.Dialect :=
  match a.lastOf? "EFGP" with
  | some 'F' => .fixed
  | some 'E' => .extended
  | some 'P' => .extended
  | _ => .basic

def searchUsage : Usage where
  name := "grep"
  letters := "EFGPabchHiIlLnoqrRsTuUvwxyzZ"
  valued := "eABCfmdD+%"
  status := 2
  synopsis := some "Usage: grep [OPTION]... PATTERNS [FILE]..."
  long :=
    [("extended-regexp", 'E'), ("fixed-strings", 'F'), ("basic-regexp", 'G'), ("perl-regexp", 'P'),
     ("count", 'c'), ("ignore-case", 'i'), ("files-with-matches", 'l'),
     ("files-without-match", 'L'), ("line-number", 'n'), ("only-matching", 'o'), ("quiet", 'q'),
     ("silent", 'q'), ("recursive", 'r'), ("no-messages", 's'), ("invert-match", 'v'),
     ("word-regexp", 'w'), ("line-regexp", 'x'), ("with-filename", 'H'), ("no-filename", 'h'),
     ("regexp", 'e'), ("file", 'f'), ("max-count", 'm'), ("after-context", 'A'),
     ("before-context", 'B'), ("context", 'C'), ("include", '+'), ("exclude", '%'),
     ("color", 'a'), ("colour", 'a')]

/-- The patterns that are looked for, and the files. -/
def patternsOf (a : Arguments) : Exec (List String × List String) := do
  let lists ← (a.values 'f').mapM fun file => do
    match ← readFile file with
    | .ok text => return linesOf text
    | .error e =>
      warn 2 ("grep: " ++ file ++ ": " ++ reason e)
      return []
  let given := (a.values 'e').flatMap (·.splitOn "\n") ++ lists.flatten
  if a.hasAny "ef" then return (given, a.operands)
  match a.operands with
  | first :: files => return (first.splitOn "\n", files)
  | [] => return ([], [])

/-- The files that a search goes through. Those below directories are chosen by their names. -/
def searchedFiles (s : Session) (a : Arguments) (files : List String) : List String :=
  if !a.hasAny "rR" then files
  else
    let all := if files.isEmpty then (filesBelow s ".").map fun f => (f.drop 2).toString
      else files.flatMap fun f => if s.tree.isDirectory (s.resolve f) then filesBelow s f else [f]
    let wanted := a.values '+'
    let unwanted := a.values '%'
    all.filter fun f =>
      let name := baseName f
      (wanted.isEmpty || wanted.any (nameMatches · name)) && !unwanted.any (nameMatches · name)

/-- Whether there may be more than one file. -/
def isSpread (s : Session) (a : Arguments) (files : List String) : Bool :=
  files.length > 1 || (a.hasAny "rR" &&
    (files.isEmpty || files.any fun f => s.tree.isDirectory (s.resolve f)))

/-- The texts of files that can be read. -/
def readSearched (a : Arguments) (files : List String) : Exec (List (String × String)) := do
  if files.isEmpty && a.hasAny "rR" then return []
  else if a.has 's' then
    let found ← (if files.isEmpty then ["-"] else files).mapM fun file => do
      match ← readFile file with
      | .ok text => return some (file, text)
      | .error _ =>
        setStatus 2
        return none
    return found.filterMap id
  else readAll (fun f => "grep: " ++ f) 2 files

def search : List String → Exec Unit :=
  searchUsage.run fun a => do
    let (patterns, files) ← patternsOf a
    if let some problem := patterns.findSome? fun p => Regex.problem? (dialectOf a) p.toList then
      return ← warn 2 ("grep: " ++ problem)
    match patterns.map (Regex.parse (dialectOf a)) with
    | [] =>
      if a.hasAny "ef" then setStatus (max 1 (← get).status)
      else warn 2 searchUsage.advice
    | first :: more =>
      let q : Search := ⟨a, more.foldl .either first⟩
      let found ← readSearched a (searchedFiles (← get) a files)
      let faulty := (← get).status = 2
      let titled := (isSpread (← get) a files || q.has 'H') && !q.has 'h'
      found.forM fun (file, text) =>
        let name := if file = "-" then "(standard input)" else file
        writeOut (q.report (if titled then some name else none) file text)
      let any := found.any fun (_, text) => !(q.selected (linesOf text)).isEmpty
      if !faulty || (any && q.has 'q') then setStatus (if any then 0 else 1)

end SchemaCompiler.Shell.Utility

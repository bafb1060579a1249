import SchemaCompiler.FileTree
import SchemaCompiler.Program.Basic

/-!
# Loading programs

A program is loaded from files by a queue, which starts with the listed files. A module that is read
puts the files in front that its imports and re-exports lead to, and no file is read twice. A listed
file is scanned, and what is wrong with it is reported; any other file is left out when it cannot be
read.

An import or a re-export is followed when it binds a name or exports all names of a module. One that
binds nothing leads nowhere, and neither does `export * as`, whose name is never looked up.
-/

namespace SchemaCompiler

/-- Files as loading sees them: where they stand, which paths lead to one, and what stands there. -/
structure FileView where
  paths : List Path
  isFile : Path → Bool
  readText : Path → Except AccessError String

def FileTree.view (t : FileTree) : FileView := ⟨t.files.map (·.1), t.isFile, t.readText⟩

namespace Program

/-- Paths by their components, each once. -/
def sortedPaths (paths : List Path) : List Path :=
  (paths.mergeSort fun a b => (a.compare b).isLE).eraseDups

/-! ## Files in the queue -/

/-- A file that is to be read. -/
structure Pending where
  path : Path
  scanned : Bool

/-- The module in a file. -/
def Pending.read (v : FileView) (e : Pending) : Reported (Option SourceModule) :=
  match v.readText e.path with
  | .ok source => readModule e.path source e.scanned
  | .error err =>
    if e.scanned then
      ⟨none, [.error .parseError ("failed to read " ++ e.path.text ++ ": " ++ err.text)
        (some (.wholeFile e.path))]⟩
    else pure none

/-- The files behind the specifiers that a module keeps. -/
def targets (v : FileView) (m : SourceModule) : List Path :=
  m.referencedSpecifiers.filterMap fun specifier => resolveSpecifier m.path specifier v.isFile

/-- What a module puts in front of the queue. Listed files are in the queue already. -/
def followed (v : FileView) (listed : List Path) (m : SourceModule) : List Pending :=
  (((targets v m).filter fun path => !listed.contains path).map (⟨·, false⟩)).reverse

/-! ## Reading the queue -/

def without (paths : List Path) (path : Path) : List Path := paths.filter (path != ·)

theorem length_without_lt {paths : List Path} {path : Path} (h : paths.contains path = true) :
    (without paths path).length < paths.length := by
  obtain ⟨other, hmem, heq⟩ := List.contains_iff_exists_mem_beq.1 h
  exact List.length_filter_lt_length_iff_exists.2 ⟨other, hmem, by simp [bne, heq]⟩

/-- The modules in the files of a queue and in all that they lead to, in the order in which they are
read. `waiting` are the files that were not seen yet. -/
def readQueue (v : FileView) (listed waiting : List Path) (queue : List Pending) :
    Reported (List SourceModule) :=
  match queue with
  | [] => pure []
  | next :: queue =>
    if waiting.contains next.path then do
      match ← next.read v with
      | some m => do
        let rest ← readQueue v listed (without waiting next.path) (followed v listed m ++ queue)
        pure (m :: rest)
      | none => readQueue v listed (without waiting next.path) queue
    else readQueue v listed waiting queue
termination_by (waiting.length, queue.length)
decreasing_by
  · exact .left _ _ (length_without_lt ‹_›)
  · exact .left _ _ (length_without_lt ‹_›)
  · exact .right _ (by simp)

def loadModules (v : FileView) (files : List Path) : Reported (List SourceModule) :=
  let listed := sortedPaths (files.map Path.normalize)
  readQueue v listed (listed ++ v.paths) (listed.map (⟨·, true⟩))

/-- The program of some files, with all that they lead to. -/
def load (v : FileView) (files : List Path) : Reported Program := do
  let modules ← loadModules v files
  pure (modules.foldl insert {})

end Program

end SchemaCompiler

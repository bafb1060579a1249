import SchemaCompiler.CommandLine.System

/-!
# The command line

Reads the tree below the current directory, runs on it, and writes back what changed.
-/

open SchemaCompiler

/-- Adds all that stands in a directory to a tree. -/
partial def readTree (t : FileTree) (place : Place) (dir : IO.FS.DirEntry) : IO FileTree := do
  let mut t := t
  for entry in ← dir.path.readDir do
    let here := place ++ [entry.fileName]
    if ← entry.path.isDir then
      t ← readTree (t.insert here .directory) here entry
    else
      t := t.insert here (.file (← IO.FS.readBinFile entry.path))
  return t

def writeChange (path : Path) (content : ByteArray) : IO Unit := do
  if path.directory.text ≠ "" then IO.FS.createDirAll path.directory.text
  IO.FS.writeBinFile path.text content

def main (args : List String) : IO UInt32 := do
  let before ← readTree {} [] ⟨".", "."⟩
  let outcome := runCommandLine before args
  for (path, content) in before.changes outcome.tree do
    writeChange path content
  IO.print outcome.stdout
  IO.eprint outcome.stderr
  return UInt32.ofNat outcome.exit

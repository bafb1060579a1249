import SchemaCompiler.CommandLine.Run
import SchemaCompiler.Shell.Run

/-!
# The command line with the system's shell

Hooks are run by `sh -c`, each line in a shell of its own. Between two lines the files stay, with
what was said about which of them may be run.
-/

namespace SchemaCompiler

/-- The shell of the system; it keeps the files that may be run. -/
def Shell.lineRunner : LineRunner (List Place) where
  start := []
  run dir line := fun (runnable, s) =>
    let (_, after) := Id.run ((runToEnd line).run { tree := s.tree, runnable, dir })
    let s : Progress :=
      { stdout := s.stdout ++ after.stdout, stderr := s.stderr ++ after.stderr, tree := after.tree }
    pure (after.status % 256, after.runnable, s)

/-- Runs the command line on a file tree. -/
def runCommandLine (t : FileTree) (args : List String) : Outcome :=
  CommandLine.run Shell.lineRunner t args

end SchemaCompiler

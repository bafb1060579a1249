import SchemaCompiler.FileTree
import SchemaCompiler.Glob
import SchemaCompiler.Json.Reader

/-!
# Failures

What stops a run: files, documents and patterns that cannot be used, and commands that fail. What is
wrong with the analysed program is a diagnostic and not a failure.
-/

namespace SchemaCompiler

inductive Failure where
  | read (path : Path) (cause : AccessError)
  | write (path : Path) (cause : AccessError)
  | access (cause : AccessError)
  | json (fault : Json.Fault)
  | pattern (error : Glob.PatternError)
  | hook (command : String) (status : Nat)

namespace Failure

def message : Failure → String
  | read path cause => "failed to read " ++ path.text ++ ": " ++ cause.text
  | write path cause => "failed to write " ++ path.text ++ ": " ++ cause.text
  | access cause => cause.text
  | json fault => "invalid JSON: " ++ fault.text
  | pattern error => "invalid glob pattern: " ++ error.text
  | hook command status => "hook `" ++ command ++ "` exited with exit status: " ++ toString status

/-- The failure behind a failure. -/
def cause? : Failure → Option String
  | read _ cause => some cause.text
  | write _ cause => some cause.text
  | access _ => none
  | json fault => some fault.text
  | pattern error => some error.text
  | hook _ _ => none

/-- The message, and the failure behind it once more. -/
def report (f : Failure) : String :=
  match f.cause? with
  | some cause => f.message ++ ": " ++ cause
  | none => f.message

end Failure

end SchemaCompiler

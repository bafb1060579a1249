import SchemaCompiler.Shell.Builtin.Setting
import SchemaCompiler.Shell.Expand
import SchemaCompiler.Shell.Printf
import SchemaCompiler.Shell.Test

/-!
# Commands of the shell itself

Those that only change the session. Commands that run others are run where scripts are.
-/

namespace SchemaCompiler.Shell.Builtin

open Exec

/-! ## Leaving -/

/-- The status that a command is given, or the last one. A faulty one ends the script. -/
def statusFrom (name : String) : List String → Exec (Option Nat)
  | [] => return some (← get).status
  | text :: _ => do
    match text.toNat? with
    | some n => if text.toList.all Char.isDigit then return some n
    | none => pure ()
    abort (name ++ ": Illegal number: " ++ text)
    return none

def exit (words : List String) : Exec Unit := do
  if let some status ← statusFrom "exit" words then leave status

def return' (words : List String) : Exec Unit := do
  if let some status ← statusFrom "return" words then
    modify ({ · with status, jump := some .return })

/-- Leaves loops, if any are running. -/
def leaveLoops (name : String) (again : Bool) (words : List String) : Exec Unit := do
  let count ← match words with
    | [] => pure (some 1)
    | text :: _ => pure (text.toNat?.filter (· > 0))
  match count with
  | none => abort (name ++ ": Illegal number: " ++ words.headD "")
  | some n =>
    setStatus 0
    let loops := (← get).loops
    if loops > 0 then modify ({ · with jump := some (.loop (min n loops) again) })

/-! ## Directories -/

/-- Goes to a directory. -/
def enter (target : String) : Exec Unit := do
  let s ← get
  let dir := s.resolve target
  if s.tree.isDirectory dir then
    set { s.withVariable "OLDPWD" s.dir.text with dir, status := 0 }
  else refuse ("cd: can't cd to " ++ target)

def changeDirectory : List String → Exec Unit
  | [] => setStatus 0
  | "-" :: _ => do
    match (← get).lookup? "OLDPWD" with
    | some before =>
      modify fun s => { s.withVariable "OLDPWD" s.dir.text with dir := ⟨before⟩, status := 0 }
      writeOut (before ++ "\n")
    | none => refuse "cd: OLDPWD not set"
  | "--" :: target :: _ => enter target
  | target :: _ => if target = "" then setStatus 0 else enter target

def printDirectory (_ : List String) : Exec Unit := do
  writeOut ((← get).dir.text ++ "\n")
  setStatus 0

/-! ## Printing -/

def echo (words : List String) : Exec Unit := do
  writeOut (echoText words)
  setStatus 0

/-- Options are refused, up to a word that ends them. -/
def print (words : List String) : Exec Unit := do
  let ended := words.head? = some "--"
  match if ended then words.tail else words with
  | [] => refuse "printf: usage: printf format [arg ...]"
  | format :: arguments =>
    if let '-' :: letter :: _ := format.toList then
      if !ended then return ← refuse ("printf: Illegal option -" ++ String.ofList [letter])
    let result := printf format arguments
    writeOut result.text
    result.errors.forM fun e => complain ("printf: " ++ e)
    setStatus (if result.faulty then 2 else if result.errors.isEmpty then 0 else 1)

/-! ## Jobs -/

/-- Waits for commands in the background, which have all ended. -/
def wait : List String → Exec Unit
  | [] => setStatus 0
  | "" :: rest => wait rest
  | word :: _ => do
    if word.startsWith "%" then refuse ("wait: No such job: " ++ word)
    else if word.toList.all Char.isDigit then setStatus 127
    else refuse ("wait: Illegal number: " ++ word)

/-! ## Tests -/

def testBrackets (words : List String) : Exec Unit := do
  if words.getLast? = some "]" then Exec.test "[" words.dropLast
  else refuse "[: missing ]"

/-! ## Names -/

/-- Commands of the shell whose faults end the script. -/
def specialNames : List String :=
  [".", ":", "break", "continue", "eval", "exec", "exit", "export", "readonly", "return", "set",
   "shift", "times", "trap", "unset"]

/-- The command of the shell that has a name. -/
def find? : String → Option (List String → Exec Unit)
  | ":" => some fun _ => setStatus 0
  | "true" => some fun _ => setStatus 0
  | "false" => some fun _ => setStatus 1
  | "exit" => some exit
  | "return" => some return'
  | "break" => some (leaveLoops "break" false)
  | "continue" => some (leaveLoops "continue" true)
  | "cd" => some changeDirectory
  | "pwd" => some printDirectory
  | "echo" => some echo
  | "printf" => some print
  | "read" => some read
  | "test" => some (Exec.test "test")
  | "[" => some testBrackets
  | "export" => some export'
  | "readonly" => some readonly
  | "local" => some local'
  | "unset" => some unset
  | "set" => some set'
  | "shift" => some shift
  | "trap" => some trap
  | "alias" => some alias'
  | "unalias" => some unalias
  | "wait" => some wait
  | "hash" => some fun _ => setStatus 0
  | "jobs" => some fun _ => setStatus 0
  | "umask" => some umask
  | "chdir" => some changeDirectory
  | "getopts" => some getOption
  | _ => none

end SchemaCompiler.Shell.Builtin

import SchemaCompiler.Path.Basic
import SchemaCompiler.Project
import SchemaCompiler.Shell.Quote

/-!
# Runs of the command line

A run takes a file tree to an outcome: an exit code, what was printed, and the tree afterwards.
Diagnostics and failures are printed to the error stream. A run succeeds when there are no errors,
ends with 1 when there are some, and with 2 when a failure stops it; what was written before stays.
The lines of hooks are left to whatever runs lines in the system.
-/

namespace SchemaCompiler.CommandLine

/-!
## Arguments of the command line

`gen` and `check` take `--config`, `--cwd` and `--verbose` (or `-v`), each at most once; without a
task there is only `--version` (or `-V`). All else is a usage error, which is `none` here.
-/

inductive Task where
  /-- Generates and writes the results. -/
  | gen
  /-- Only reports what is wrong. -/
  | check
deriving DecidableEq, Repr

structure Settings where
  config : Option String := none
  dir : Option String := none
  verbose : Bool := false
deriving DecidableEq, Repr

inductive Request where
  | version
  | run (task : Task) (settings : Settings)
deriving DecidableEq, Repr

namespace Settings

/-- Whether a text can be the value of an option; what starts with a dash is an option itself. -/
def isValue (s : String) : Bool := s ≠ "" && (s = "-" || !s.startsWith "-")

def setConfig? (s : Settings) (value : String) : Option Settings :=
  if s.config.isSome || value = "" then none else some { s with config := some value }

def setDir? (s : Settings) (value : String) : Option Settings :=
  if s.dir.isSome || value = "" then none else some { s with dir := some value }

def setVerbose? (s : Settings) : Option Settings :=
  if s.verbose then none else some { s with verbose := true }

/-- An option with its value behind an equals sign. -/
def setAttached? (s : Settings) (argument : String) : Option Settings :=
  if argument.startsWith "--config=" then s.setConfig? (argument.drop 9).toString
  else if argument.startsWith "--cwd=" then s.setDir? (argument.drop 6).toString
  else none

/-- Reads the arguments behind a task. -/
def read? (s : Settings) : List String → Option Settings
  | [] => some s
  | ["--"] => some s
  | "-v" :: rest => s.setVerbose?.bind (read? · rest)
  | "--verbose" :: rest => s.setVerbose?.bind (read? · rest)
  | "--config" :: value :: rest =>
    if isValue value then (s.setConfig? value).bind (read? · rest) else none
  | "--cwd" :: value :: rest =>
    if isValue value then (s.setDir? value).bind (read? · rest) else none
  | argument :: rest => (s.setAttached? argument).bind (read? · rest)

end Settings

/-- What the arguments ask for. -/
def Request.ofArguments? : List String → Option Request
  | [] => none
  | "gen" :: rest => (Settings.read? {} rest).map (.run .gen)
  | "check" :: rest => (Settings.read? {} rest).map (.run .check)
  | argument :: _ =>
    if argument = "--version" || argument.startsWith "-V" then some .version else none

end SchemaCompiler.CommandLine

namespace SchemaCompiler

structure Outcome where
  exit : Nat
  stdout : String := ""
  stderr : String := ""
  tree : FileTree

/-- How far a run has come: what it has printed, and the files as they are now. -/
structure Progress where
  stdout : String := ""
  stderr : String := ""
  tree : FileTree

def Progress.finish (s : Progress) (exit : Nat) : Outcome :=
  { exit, stdout := s.stdout, stderr := s.stderr, tree := s.tree }

def Progress.report (s : Progress) (text : String) : Progress := { s with stderr := s.stderr ++ text }

/-- What runs lines of commands in a directory. It keeps a state between lines, and gives the status
that a line ends with. -/
structure LineRunner (σ : Type) where
  start : σ
  run (dir : Path) (line : String) : StateM (σ × Progress) Nat

namespace CommandLine

def versionText : String := "gqlkit 0.1.0\n"

/-- What is printed about a usage error. -/
def usageText : String := "usage"

def diagnosticText (d : Diagnostic) : String :=
  match d.location with
  | some l => d.headline ++ "\n  --> " ++ l.text ++ "\n"
  | none => d.headline ++ "\n"

def diagnosticsText (ds : List Diagnostic) : String := String.join (ds.map diagnosticText)

def failureText (f : Failure) : String := "error: " ++ f.report ++ "\n"

/-! ## Writing -/

/-- The files to write, with paths relative to the project. -/
def artifacts (config : Config) (g : Generated) : List (Path × String) :=
  [(config.resolversPath, g.resolversCode), (config.typeDefsPath, g.typeDefsCode),
    (config.schemaPath, g.sdl)].filterMap fun (path, text) => path.map (·, text)

/-- Writes files until one cannot be written. -/
def writeArtifacts (t : FileTree) (dir : Path) : List (Path × String) → FileTree × Option Failure
  | [] => (t, none)
  | (path, text) :: rest =>
    let full := dir.join path.text
    match t.writeFileIn full text.toUTF8 with
    | .ok t => writeArtifacts t dir rest
    | .error e => (t, some (.write full e))

/-! ## Hooks -/

/-- The line of a hook: its command with the written files as further arguments. -/
def hookLine (command : String) (written : List Path) : String :=
  command ++ " " ++ " ".intercalate (written.map fun p => Shell.quote p.text)

section Runs

variable {σ : Type} (runner : LineRunner σ)

/-- Runs hooks until one fails. -/
def runHooks (dir : Path) (written : List Path) :
    List String → StateM (σ × Progress) (Option Failure)
  | [] => pure none
  | command :: rest => do
    let status ← runner.run dir (hookLine command written)
    if status = 0 then runHooks dir written rest else pure (some (.hook command status))

/-- Why commands cannot run in a directory. -/
def entryFailure? (t : FileTree) (dir : Path) : Option Failure :=
  match t.locate dir with
  | .ok place => if t.isDirectoryAt place then none else some (.access .notDirectory)
  | .error e => some (.access e)

/-! ## Runs -/

/-- The end of a run that a failure may have stopped. -/
def finish (s : Progress) (exit : Nat) : Option Failure → Outcome
  | some f => (s.report (failureText f)).finish 2
  | none => s.finish exit

/-- Writes the results and runs the hooks, if anything was written. -/
def writeResults (s : Progress) (dir : Option String) (config : Config) (g : Generated) :
    Progress × Option Failure :=
  let files := artifacts config g
  let (tree, failure) := writeArtifacts s.tree ⟨dir.getD ""⟩ files
  let s := { s with tree }
  match failure with
  | some f => (s, some f)
  | none =>
    if files.isEmpty || config.hooks.isEmpty then (s, none)
    else
      match dir.bind fun dir => entryFailure? tree ⟨dir⟩ with
      | some f => (s, some f)
      | none =>
        let hooks := runHooks runner ⟨dir.getD ""⟩ (files.map (·.1)) config.hooks
        let (failure, _, s) := Id.run (hooks.run (runner.start, s))
        (s, failure)

def runTask (t : FileTree) (task : Task) (settings : Settings) : Outcome :=
  let dir : Path := ⟨settings.dir.getD ""⟩
  let s : Progress := { tree := t }
  match Project.loadConfig t dir (settings.config.map Path.mk) with
  | .error f => finish s 2 (some f)
  | .ok loaded =>
    let s := s.report (diagnosticsText loaded.config.diagnostics)
    match loaded.config.value with
    | none => s.finish 1
    | some config =>
      match generateProject t dir config with
      | .error f => finish s 2 (some f)
      | .ok g =>
        let s := s.report (diagnosticsText g.diagnostics)
        let exit := if g.hasErrors then 1 else 0
        match task with
        | .check => s.finish exit
        | .gen =>
          let (s, failure) := writeResults runner s settings.dir config g
          finish s exit failure

/-- Runs the command line on a file tree. -/
def run (t : FileTree) (args : List String) : Outcome :=
  match Request.ofArguments? args with
  | none => { exit := 2, stderr := usageText, tree := t }
  | some .version => { exit := 0, stdout := versionText, tree := t }
  | some (.run task settings) => runTask runner t task settings

end Runs

end CommandLine

end SchemaCompiler

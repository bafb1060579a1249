import SchemaCompiler.Shell.Parser.Command
import SchemaCompiler.Shell.Session

/-!
# Scripts

A script is read and run line by line, for a line may change what the ones behind it mean. Loops may
go on for ever, so a run has a number of rounds and nestings that it must get along with.

A command may run in a shell of its own inside of this one. What it does to files and streams stays;
variables, directories and all else are as before when it has ended.
-/

namespace SchemaCompiler.Shell

open Exec

/-- Runs a command that is nested in another one. -/
abbrev Runner := Command → Exec Unit

/-- The rounds and nestings that a script must get along with. -/
def patience : Nat := 1000000

/-! ## Running lines -/

/-- Runs the lines of a script up to what is wrong with it; `command` is the one that runs it. -/
def runLines (run : Runner) (command : Option String) : Nat → Source → Exec Unit
  | 0, _ => leave 1
  | fuel + 1, source => do
    if !(← goesOn) then return
    let s ← get
    match source.nextLine s.aliases with
    | .ended => return
    | .faulty problem =>
      set (s.write 2 (problem.message s.name command))
      leave 2
    | .read line rest =>
      run line
      runLines run command fuel rest

def runScript (run : Runner) (command : Option String) (text : String) : Exec Unit :=
  runLines run command patience (Source.ofText text)

def runText (run : Runner) (command : Option String) (text : String) : Exec Unit := do
  setStatus 0
  runScript run command text

/-- Runs what is kept for the end. The status stays, unless the script for the end leaves with
one. -/
def runAtExit (run : Runner) : Exec Unit := do
  let s ← get
  if let some script := s.traps.lookup 0 then
    set { s with jump := none, traps := s.traps.filter (·.1 ≠ 0) }
    runScript run none script
    if ← goesOn then setStatus s.status

/-! ## Shells in shells -/

/-- The inputs that a shell shares with one inside of it, when that has ended. -/
def sharedInputs (before after : Session) : List (Nat × String) :=
  before.otherInputs.map fun (n, text) => (n, (after.otherInputs.lookup n).getD text)

/-- Runs something in a shell of its own, which forgets what is kept for events. A status is a
byte. -/
def inSubshell (run : Runner) (action : Exec Unit) : Exec Unit := do
  let before ← get
  set { before with traps := before.traps.filter (·.2 = "") }
  action
  runAtExit run
  modify fun after =>
    { before with
      tree := after.tree, runnable := after.runnable
      stdout := after.stdout, stderr := after.stderr, gathered := after.gathered
      input := after.input, otherInputs := sharedInputs before after
      status := after.status % 256 }

/-- The output of a command, without the line ends behind it. -/
def capture (run : Runner) (command : Command) : Exec String := do
  let text ← gather (inSubshell run (run command))
  return String.ofList (text.toList.reverse.dropWhile (· = '\n')).reverse

/-- Runs a script in a shell that knows the exported variables only. -/
def runShell (run : Runner) (options : Options) (name : String) (arguments : List String)
    (text : String) : Exec Unit :=
  inSubshell run do
    modify fun s =>
      let known := s.values.filter fun v => s.exported.contains v.1 && !usual.contains v.1
      { s with
        values := known ++ usualValues
        functions := [], aliases := [], name, arguments, options, optionPlace := {}, locals := []
        loops := 0, tested := false }
    runText run none text
where
  /-- Variables that are never taken over. -/
  usual : List String := ["IFS", "OPTIND"]

/-! ## Failures -/

/-- Runs something whose failure is looked at. -/
def tested (action : Exec Unit) : Exec Unit := do
  let before := (← get).tested
  modify ({ · with tested := true })
  action
  modify ({ · with tested := before })

/-- Ends the script after a failure, if the options say so. -/
def checkFailure : Exec Unit := do
  let s ← get
  if s.options.exitOnFailure && !s.tested && s.status ≠ 0 && s.jump.isNone then leave s.status

end SchemaCompiler.Shell

import SchemaCompiler.Shell.Launch
import SchemaCompiler.Shell.Redirect

/-!
# Running commands

A command runs on a session. Commands nest, and loops go round; both are bounded by the rounds and
nestings that a script must get along with.
-/

namespace SchemaCompiler.Shell

open Exec

/-! ## Simple commands -/

def expandAssignments (run : Runner) : List (String × Word) → Exec (List (String × String))
  | [] => return []
  | (name, word) :: rest => do
    let value ← expandText (capture run) word
    if ← goesOn then assign name value
    let more ← expandAssignments run rest
    return (name, value) :: more

/-- Prints a command before it runs. -/
def trace (assignments : List (String × String)) (words : List String) : Exec Unit := do
  let s ← get
  if s.options.trace then
    let texts := assignments.map (fun (name, value) => name ++ "=" ++ value) ++ words
    let before := (s.lookup? "PS4").getD "+ "
    set (s.write 2 (before ++ " ".intercalate texts ++ "\n"))

def isOutput : Part → Bool
  | .output _ _ => true
  | _ => false

/-- Assignments alone. Their status is that of the last command in them. -/
def assignOnly (run : Runner) (assignments : List (String × Word)) (words : List Word) :
    Exec Unit := do
  let values ← expandAssignments run assignments
  trace values []
  let ran := (assignments.map (·.2) ++ words).any (·.any isOutput)
  if !ran && (← goesOn) then setStatus 0

/-- A command with the values that variables have for it alone, unless it is one of the special
ones. -/
def runWith (run : Runner) (assignments : List (String × Word)) (words : List String) :
    Exec Unit := do
  let s ← get
  let old := assignments.map fun (name, _) => (name, s.lookup? name)
  let values ← expandAssignments run assignments
  trace values words
  if ← goesOn then
    modify fun s => { s with exported := assignments.map (·.1) ++ s.exported }
    runWords run words
    if !Builtin.specialNames.contains (words.headD "") then
      modify fun after =>
        old.foldl Session.restore { after with exported := after.exported.drop assignments.length }

def runSimple (run : Runner) (line : Nat) (assignments : List (String × Word))
    (words : List Word) (redirects : List Redirect) : Exec Unit := do
  modify ({ · with line })
  let fields ← expandWords (capture run) words
  if !(← goesOn) then return
  if fields = ["exec"] then
    if !(← redirectAll run redirects) then leave 2
    return
  let action :=
    if fields.isEmpty then assignOnly run assignments words else runWith run assignments fields
  let made ← redirected run redirects action
  if !made && Builtin.specialNames.contains (fields.headD "") then leave 2

/-! ## Loops and choices -/

/-- What a jump means for the loop around it: whether the loop goes on. -/
def endRound : Exec Bool := do
  match (← get).jump with
  | none => return true
  | some (.loop count again) =>
    if count > 1 then
      modify ({ · with jump := some (.loop (count - 1) again) })
      return false
    modify ({ · with jump := none })
    return again
  | some _ => return false

/-- Counts a loop as running. -/
def inLoop (action : Exec Unit) : Exec Unit := do
  modify fun s => { s with loops := s.loops + 1 }
  action
  modify fun s => { s with loops := s.loops - 1 }

/-- Runs the rounds of a loop; `last` is the status of the round before. -/
def rounds (run : Runner) (whileTrue : Bool) (condition body : Command) : Nat → Nat → Exec Unit
  | 0, last => setStatus last
  | fuel + 1, last => do
    tested (run condition)
    if (← goesOn) && ((← get).status == 0) == whileTrue then
      run body
      let status := (← get).status
      if ← endRound then rounds run whileTrue condition body fuel status
    else if ← goesOn then setStatus last
    else
      let _ ← endRound

def forWords (run : Runner) (name : String) (body : Command) : List String → Exec Unit
  | [] => return
  | w :: rest => do
    assign name w
    if ← goesOn then
      run body
      if ← endRound then forWords run name body rest

/-- Whether one of some patterns matches a text. -/
def anyMatches (run : Runner) (text : String) : List Word → Exec Bool
  | [] => return false
  | w :: rest => do
    let pattern ← expandPattern (capture run) w
    if Matcher.matchesAll pattern text.toList then return true else anyMatches run text rest

def runBranches (run : Runner) (text : String) : List Branch → Exec Unit
  | [] => setStatus 0
  | .mk patterns body :: rest => do
    if ← anyMatches run text patterns then
      setStatus 0
      run body
    else runBranches run text rest

/-! ## Any command -/

/-- Runs two commands, the second on the output of the first. -/
def runPipe (run : Runner) (first second : Command) : Exec Unit := do
  let before ← get
  let text ← gather (inSubshell run (tested (run first)))
  modify ({ · with input := text, fromFile := false })
  inSubshell run (run second)
  modify ({ · with input := before.input, fromFile := before.fromFile })

/-- Runs a command; `fuel` bounds its nestings and the rounds of its loops. -/
def runCommand : Nat → Command → Exec Unit
  | 0, _ => leave 1
  | fuel + 1, command => do
    let run := runCommand fuel
    if (← get).options.readOnly then return
    match command with
    | .nothing => return
    | .simple line assignments words redirects =>
      runSimple run line assignments words redirects
      checkFailure
    | .sequence first second =>
      run first
      if ← goesOn then run second
    | .andThen first second =>
      tested (run first)
      if (← goesOn) && (← get).status = 0 then run second
    | .orElse first second =>
      tested (run first)
      if (← goesOn) && (← get).status ≠ 0 then run second
    | .not inner =>
      tested (run inner)
      if ← goesOn then setStatus (if (← get).status = 0 then 1 else 0)
    | .pipe first second =>
      runPipe run first second
      checkFailure
    | .background inner =>
      inSubshell run (run inner)
      setStatus 0
    | .subshell body =>
      inSubshell run (run body)
      checkFailure
    | .redirected body redirects =>
      let _ ← redirected run redirects (run body)
      checkFailure
    | .ifThen condition body otherwise =>
      tested (run condition)
      if ← goesOn then
        if (← get).status = 0 then run body
        else
          setStatus 0
          run otherwise
    | .loop whileTrue condition body => inLoop (rounds run whileTrue condition body fuel 0)
    | .forEach name words body =>
      let fields ← match words with
        | some words => expandWords (capture run) words
        | none => pure (← get).arguments
      setStatus 0
      if ← goesOn then inLoop (forWords run name body fields)
    | .choose subject branches =>
      let text ← expandText (capture run) subject
      if ← goesOn then runBranches run text branches
    | .function name body =>
      modify fun s =>
        { s with functions := (name, body) :: s.functions.filter (·.1 ≠ name), status := 0 }

/-- Runs a script and what it keeps for the end. -/
def runToEnd (text : String) : Exec Unit := do
  runText (runCommand patience) none text
  runAtExit (runCommand patience)

end SchemaCompiler.Shell

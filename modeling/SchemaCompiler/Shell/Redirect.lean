import SchemaCompiler.Shell.Expand
import SchemaCompiler.Shell.Script

/-!
# Redirections

A stream that is written to goes to a sink, and several streams may go to the same one. A stream
that is read has a text that is left of it; where one input stands in for another, what the other
has read is gone from it afterwards.
-/

namespace SchemaCompiler.Shell

open Exec

/-! ## Opening files -/

/-- Why a file cannot be written to. -/
def creationReason : AccessError → String
  | .notFound => "Directory nonexistent"
  | e => reason e

/-- Opens a file to write to. -/
def openSink (mode : RedirectMode) (target : String) : Exec (Option Sink) := do
  let s ← get
  if target = "/dev/null" then return some .nowhere
  if target = "/dev/stdout" then return s.sink 1
  if target = "/dev/stderr" then return s.sink 2
  let path := s.resolve target
  if mode = .append && s.tree.isFile path then return some (.file path)
  let kept := mode = .write && s.options.keepFiles && s.tree.isFile path
  match if kept then .error .alreadyExists else s.tree.writeFile path ByteArray.empty with
  | .ok tree =>
    set { s with tree }
    return some (.file path)
  | .error e =>
    complain ("cannot create " ++ target ++ ": " ++ creationReason e)
    return none

namespace Session

/-- The text that is left of an input. -/
def inputOf? (s : Session) (stream : Nat) : Option String :=
  if stream = 0 then some s.input else s.otherInputs.lookup stream

/-- Gives an input a text. -/
def withInput (s : Session) (stream : Nat) (input : String) : Session :=
  if stream = 0 then { s with input, fromFile := true, borrowed := none }
  else { s with otherInputs := (stream, input) :: s.otherInputs.filter (·.1 ≠ stream) }

/-- Closes a stream. -/
def withoutStream (s : Session) (stream : Nat) : Session :=
  let s := if stream = 0 then s.withInput 0 "" else s
  { s with
    sinks := s.sinks.filter (·.1 ≠ stream)
    otherInputs := s.otherInputs.filter (·.1 ≠ stream) }

end Session

/-- Makes a file the input, and tells whether it can be. -/
def openInput (stream : Nat) (target : String) : Exec Bool := do
  let s ← get
  if target = "/dev/null" then
    let s := s.withInput stream ""
    set (if stream = 0 then { s with fromFile := false } else s)
    return true
  match s.tree.readText (s.resolve target) with
  | .ok text =>
    set (s.withInput stream text)
    return true
  | .error .notFound =>
    complain ("cannot open " ++ target ++ ": No such file")
    return false
  | .error .isDirectory =>
    set (s.withInput stream "")
    return true
  | .error e =>
    complain ("cannot open " ++ target ++ ": " ++ reason e)
    return false

/-- Lets a stream be another one, or closes it. -/
def copyStream (stream : Nat) (target : String) : Exec Bool := do
  let s ← get
  match target.toList with
  | ['-'] =>
    set (s.withoutStream stream)
    return true
  | [digit] =>
    if digit.isDigit then
      let n := digit.toNat - '0'.toNat
      match s.sink n, s.inputOf? n with
      | some sink, _ =>
        set (s.withSink stream sink)
        return true
      | none, some text =>
        if stream ≠ n then
          let s := s.withInput stream text
          set (if stream = 0 then { s with borrowed := some n } else s)
        return true
      | none, none =>
        complain (target ++ ": Bad file descriptor")
        return false
  | _ => pure ()
  abort "Syntax error: Bad fd number"
  return false

/-! ## Commands with redirections -/

/-- Makes a redirection, and tells whether it can be made. -/
def redirect (run : Runner) : Redirect → Exec Bool
  | .mk stream mode word => do
    let target ← expandText (capture run) word
    if !(← goesOn) then return false
    match mode with
    | .text =>
      modify (·.withInput stream target)
      return true
    | .read => openInput stream target
    | .copy => copyStream stream target
    | mode =>
      match ← openSink mode target with
      | some sink =>
        modify (·.withSink stream sink)
        return true
      | none => return false

def redirectAll (run : Runner) : List Redirect → Exec Bool
  | [] => return true
  | r :: rest => do
    if ← redirect run r then redirectAll run rest else return false

/-- Whether a redirection may change an input. -/
def Redirect.reads (stream : Nat) : Redirect → Bool
  | .mk s mode _ => s = stream && (mode = .read || mode = .text || mode = .copy)

namespace Session

/-- Writes what has been read of a borrowed input back to where it is from. -/
def giveBack (s : Session) : Session :=
  match s.borrowed with
  | some stream => if (s.inputOf? stream).isSome then s.withInput stream s.input else s
  | none => s

/-- The inputs as they were before some redirections; what other commands have read stays read. -/
def restoreInputs (s before : Session) (redirects : List Redirect) : Session :=
  let touched := fun (n : Nat) => redirects.any (Redirect.reads n)
  let s := if touched 0 then s.giveBack else s
  let others := s.otherInputs.filter (!touched ·.1) ++ before.otherInputs.filter (touched ·.1)
  let s := { s with otherInputs := others }
  if touched 0 then
    { s with input := before.input, fromFile := before.fromFile, borrowed := before.borrowed }
  else s

end Session

/-- Runs something with redirections, if they can be made, and tells whether they could. -/
def redirected (run : Runner) (redirects : List Redirect) (action : Exec Unit) : Exec Bool := do
  let before ← get
  let made ← redirectAll run redirects
  if made then action else setStatus 2
  modify fun s => { s.restoreInputs before redirects with sinks := before.sinks }
  return made

end SchemaCompiler.Shell

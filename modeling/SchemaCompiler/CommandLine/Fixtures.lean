import SchemaCompiler.CommandLine.System
import SchemaCompiler.Json.Record

/-!
# Checks of example projects

Every directory below a root that holds a file `expected.json` is a project, and the file says what
generating from it should give. `runFixtures` prints one line for each project, in order.
-/

namespace SchemaCompiler

namespace Fixture

/-! ## Expectations -/

structure Expectation where
  hasErrors : Bool
  /-- Codes of diagnostics in order. -/
  diagnostics : List String
  /-- Texts that the schema holds. -/
  sdlContains : List String
deriving DecidableEq, Repr

structure Draft where
  hasErrors : Option Bool := none
  diagnostics : Option (List String) := none
  sdlContains : Option (List String) := none

open Json.Reader in
def shape : RecordShape Draft where
  name := "Expected"
  empty := {}
  closed := true
  fields :=
    [{ key := "hasErrors", optional := false, isFilled := (·.hasErrors.isSome)
       read := fun way d => do
         let found ← boolean way
         pure { d with hasErrors := some found } },
     { key := "diagnostics", optional := true, isFilled := (·.diagnostics.isSome)
       read := fun way d => do
         let found ← list text way
         pure { d with diagnostics := some found } },
     { key := "sdlContains", optional := true, isFilled := (·.sdlContains.isSome)
       read := fun way d => do
         let found ← list text way
         pure { d with sdlContains := some found } }]

def Expectation.ofText (s : String) : Except Json.Fault Expectation :=
  (Json.Reader.run (shape.read []) s).map fun d =>
    ⟨d.hasErrors.getD false, d.diagnostics.getD [], d.sdlContains.getD []⟩

/-! ## Comparing -/

def holds (needle : List Char) : List Char → Bool
  | [] => needle.isEmpty
  | c :: cs => needle.isPrefixOf (c :: cs) || holds needle cs

def boolText (b : Bool) : String := if b then "true" else "false"

def listText (items : List String) : String :=
  "[" ++ ", ".intercalate (items.map Text.shown) ++ "]"

/-- What differs from the expectation. -/
def problems (e : Expectation) (g : Generated) : List String :=
  let codes := g.diagnostics.map (·.code.text)
  let errors :=
    if g.hasErrors = e.hasErrors then []
    else ["hasErrors: expected " ++ boolText e.hasErrors ++ ", got " ++ boolText g.hasErrors]
  let diagnostics :=
    if codes = e.diagnostics then []
    else ["diagnostics: expected " ++ listText e.diagnostics ++ ", got " ++ listText codes]
  let missing := e.sdlContains.filter fun needle => !holds needle.toList g.sdl.toList
  errors ++ diagnostics ++ missing.map fun needle => "schema does not contain " ++ Text.shown needle

/-! ## Running -/

/-- What differs in the project of an expectation file, or why it cannot be told. -/
def check (t : FileTree) (dir file : Path) : Except String (List String) := do
  let text ← (t.readText file).mapError fun e => "reading " ++ file.text ++ ": " ++ e.text
  let expected ← (Expectation.ofText text).mapError Json.Fault.described
  let loaded ← (Project.loadConfig t dir none).mapError Failure.report
  match loaded.config.value with
  | none => .error ("invalid " ++ Project.configFileName)
  | some config => do
    let g ← (generateProject t dir config).mapError Failure.report
    pure (problems expected g)

def fails : Except String (List String) → Bool
  | .ok found => !found.isEmpty
  | .error _ => true

def resultText (dir : Path) : Except String (List String) → String
  | .ok [] => "ok      " ++ dir.text ++ "\n"
  | .ok found =>
    "FAILED  " ++ dir.text ++ "\n" ++ String.join (found.map fun p => "          " ++ p ++ "\n")
  | .error e => "ERROR   " ++ dir.text ++ ": " ++ e ++ "\n"

def defaultRoot : String := "fixtures"

end Fixture

open Fixture in
/-- Checks the projects below the root that the arguments name. -/
def runFixtures (t : FileTree) (args : List String) : Outcome :=
  let root := args.head?.getD defaultRoot
  match Glob.expand t (Glob.Pattern.escape root ++ "/*/expected.json") with
  | .error e => { exit := 2, stderr := "error: " ++ e.text ++ "\n", tree := t }
  | .ok files =>
    let results := files.map fun file => (file.directory, check t file.directory file)
    let stdout := String.join (results.map fun (dir, result) => resultText dir result)
    let failed := (results.filter fun (_, result) => fails result).length
    if failed = 0 then { exit := 0, stdout, tree := t }
    else { exit := 1, stdout, stderr := toString failed ++ " fixture(s) failed\n", tree := t }

end SchemaCompiler

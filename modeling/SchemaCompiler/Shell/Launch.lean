import SchemaCompiler.Shell.Builtin
import SchemaCompiler.Shell.Script
import SchemaCompiler.Shell.Utility

/-!
# Commands by their words

The first word of a command is the name of a function, of a command of the shell itself, or of a
program. There is a program for every utility, and every file with a script that may be run is
one.
-/

namespace SchemaCompiler.Shell

open Exec

/-! ## Shells as programs -/

/-- What a shell is asked to do by the options in front of its operands. -/
structure Invocation where
  options : Options := {}
  /-- The first operand is the script. -/
  inWords : Bool := false
  operands : List String := []

/-- A failure of a shell before it has read anything. -/
def failToStart (text : String) : Exec Unit := warn 2 ("sh: 0: " ++ text)

namespace Invocation

/-- The options in a word, and what is left of the words behind it; the alternative is a
complaint. -/
def withLetters (on : Bool) : List Char → List String → Invocation →
    Except String (Invocation × List String)
  | [], rest, i => .ok (i, rest)
  | 'c' :: letters, rest, i => withLetters on letters rest { i with inWords := true }
  | 'o' :: letters, name :: rest, i =>
    match Options.names.lookup name with
    | some (some letter) =>
      withLetters on letters rest { i with options := i.options.set on letter }
    | some none => withLetters on letters rest i
    | none => .error ("Illegal option " ++ (if on then "-o " else "+o ") ++ name)
  | letter :: letters, rest, i =>
    if Options.names.any (·.2 = some letter) then
      withLetters on letters rest { i with options := i.options.set on letter }
    else .error ("Illegal option -" ++ String.ofList [letter])

/-- Reads the words behind the name of a shell. -/
def ofWords : Nat → List String → Invocation → Except String Invocation
  | 0, words, i => .ok { i with operands := words }
  | _, [], i => .ok i
  | fuel + 1, word :: rest, i =>
    match word.toList with
    | ['-'] | ['-', '-'] => .ok { i with operands := rest }
    | '-' :: letters => do
      let (i, rest) ← i.withLetters true letters rest
      ofWords fuel rest i
    | '+' :: letters => do
      let (i, rest) ← i.withLetters false letters rest
      ofWords fuel rest i
    | _ => .ok { i with operands := word :: rest }

end Invocation

/-- A shell with a script in its words, in a file or in its input. -/
def shell (run : Runner) (words : List String) : Exec Unit := do
  match Invocation.ofWords (words.length + 1) words {} with
  | .error text => failToStart text
  | .ok i =>
    match i.inWords, i.operands with
    | true, [] => failToStart "-c requires an argument"
    | true, text :: rest => runShell run i.options (rest.headD "sh") rest.tail text
    | false, [] => fromInput i []
    | false, file :: rest =>
      if i.options.has 's' then fromInput i (file :: rest)
      else
        let s ← get
        match s.tree.readText (s.resolve file) with
        | .ok text => runShell run i.options file rest text
        | .error _ => failToStart ("cannot open " ++ file ++ ": No such file")
where
  fromInput (i : Invocation) (arguments : List String) : Exec Unit := do
    let (text, s) := (← get).takeInput
    set s
    runShell run (i.options.set true 's') "sh" arguments text

/-! ## Functions -/

/-- Runs a function on arguments. -/
def call (run : Runner) (body : Command) (arguments : List String) : Exec Unit := do
  let before ← get
  set { before with
    arguments, locals := [] :: before.locals, loops := 0, optionPlace := {} }
  run body
  modify fun s =>
    let s := (s.locals.headD []).foldl Session.restore s
    { s with
      arguments := before.arguments, locals := before.locals, loops := before.loops
      optionPlace := before.optionPlace, jump := afterReturn s.jump }
where
  afterReturn (jump : Option Jump) : Option Jump := if jump = some .return then none else jump

/-! ## Programs -/

/-- Whether a name is one of a file that may be run. -/
def isRunnable (s : Session) (name : String) : Bool :=
  name.contains '/' && s.tree.isFile (s.resolve name) &&
    (s.tree.locate (s.resolve name)).toOption.any s.runnable.contains

/-- A command that is no program that can be run; `title` is what it is called in messages. -/
def unknown (title name : String) : Exec Unit := do
  let s ← get
  if name = "" then
    complain (title ++ ": Permission denied")
    setStatus 127
  else if name.contains '/' && s.tree.exists? (s.resolve name) then
    complain (title ++ ": Permission denied")
    setStatus 126
  else
    complain (title ++ ": not found")
    setStatus 127

/-- Commands of the shell that are programs of their own too. -/
def programNames : List String := ["[", "echo", "false", "printf", "pwd", "test", "true"]

/-- The program of a name that runs no other one. -/
def program? (name : String) : Option (List String → Exec Unit) :=
  utility? name <|> (if programNames.contains name then Builtin.find? name else none)

/-- Whether a name is one of a program. -/
def isProgram (name : String) : Bool :=
  name = "sh" || name = "which" || (program? name).isSome || (Utility.launching? name).isSome

/-- Tells where programs are. -/
def locateAll (names : List String) : Exec Unit := do
  let (found, missing) := names.partition isProgram
  writeOut (String.join (found.map fun name => "/usr/bin/" ++ name ++ "\n"))
  setStatus (if missing.isEmpty && !names.isEmpty then 0 else 1)

/-- Runs a program by its words. Programs may run others, down to a depth. -/
def launch (run : Runner) : Nat → List String → Exec Unit
  | 0, _ => setStatus 126
  | _, [] => return
  | depth + 1, name :: words => do
    setStatus 0
    if name = "sh" then shell run words
    else if name = "which" then locateAll words
    else
      match Utility.launching? name, program? name with
      | some program, _ => program { run := launch run depth, knows := isProgram } words
      | none, some program => program words
      | none, none =>
        if isRunnable (← get) name then shell run (name :: words) else unknown name name

/-- How deep programs may run each other. -/
def launchDepth : Nat := 64

/-! ## Names -/

/-- What a name stands for where a command starts. -/
inductive Meaning where
  | reserved
  | alias (text : String)
  | function
  | special
  | builtin
  | program
deriving DecidableEq, Repr

/-- Whether a name is one of a command of the shell itself. -/
def isBuiltin (name : String) : Bool :=
  (Builtin.find? name).isSome || ["command", "type"].contains name

def meaning? (s : Session) (name : String) : Option Meaning :=
  if Token.reserved.contains name then some .reserved
  else if let some text := s.aliases.lookup name then some (.alias text)
  else if (s.functions.lookup name).isSome then some .function
  else if Builtin.specialNames.contains name then some .special
  else if isBuiltin name then some .builtin
  else if isProgram name then some .program
  else none

/-- How a command is called where names are looked up. -/
def describe (name : String) : Exec Unit := do
  match meaning? (← get) name with
  | some .program => writeOut ("/usr/bin/" ++ name ++ "\n")
  | some (.alias text) => writeOut ("alias " ++ Aliases.line (name, text))
  | some _ => writeOut (name ++ "\n")
  | none => setStatus 127

/-- Tells what a name stands for. -/
def explain (name : String) : Exec Unit := do
  match meaning? (← get) name with
  | some .reserved => writeOut (name ++ " is a shell keyword\n")
  | some (.alias text) => writeOut (name ++ " is an alias for " ++ text ++ "\n")
  | some .function => writeOut (name ++ " is a shell function\n")
  | some .special => writeOut (name ++ " is a special shell builtin\n")
  | some .builtin => writeOut (name ++ " is a shell builtin\n")
  | some .program => writeOut (name ++ " is /usr/bin/" ++ name ++ "\n")
  | none =>
    writeOut (name ++ ": not found\n")
    setStatus 127

/-- Remembers where programs are, and complains about those that are nowhere. -/
def remember (names : List String) : Exec Unit := do
  setStatus 0
  names.forM fun name => do
    if !name.startsWith "-" && !isBuiltin name && !isProgram name then
      complain ("hash: " ++ name ++ ": not found")
      setStatus 1

/-- What the options in front of a command ask for. -/
inductive Lookup where
  /-- The command is run. -/
  | run (words : List String)
  /-- Only the first name counts. -/
  | describe (names : List String)
  | explain (names : List String)
  | faulty (letter : Char)

/-- Reads the words behind `command`. -/
def Lookup.ofWords : List String → Lookup
  | [] => .run []
  | word :: rest =>
    match word.toList with
    | ['-', '-'] => .run rest
    | ['-', 'p'] => ofWords rest
    | ['-', 'v'] => .describe rest
    | ['-', 'V'] => .explain rest
    | '-' :: letter :: _ => .faulty letter
    | _ => .run (word :: rest)

/-! ## All commands -/

/-- Runs the script in a file as if it stood here. A file is found by its path only. -/
def source (run : Runner) (file : String) : Exec Unit := do
  let s ← get
  if !file.contains '/' then return ← abort (".: " ++ file ++ ": not found")
  match s.tree.readText (s.resolve file) with
  | .ok text =>
    runText run (some ".") text
    modify fun s => { s with jump := if s.jump = some .return then none else s.jump }
  | .error _ => abort (".: cannot open " ++ file ++ ": No such file")

/-- Runs a command that is no function. -/
def runProgram (run : Runner) : Nat → List String → Exec Unit
  | 0, _ => setStatus 126
  | _, [] => return
  | _, "eval" :: words => runText run (some "eval") (" ".intercalate words)
  | _, ["."] => setStatus 0
  | _, "." :: file :: _ => source run file
  | depth + 1, "command" :: words => do
    setStatus 0
    match Lookup.ofWords words with
    | .run words => runProgram run depth words
    | .describe names => (names.take 1).forM describe
    | .explain names => (names.take 1).forM explain
    | .faulty letter => Builtin.refuse ("command: Illegal option -" ++ String.ofList [letter])
  | _, "type" :: names => do
    setStatus 0
    names.forM explain
  | _, "hash" :: names => remember names
  | _, "exec" :: name :: words => do
    if isProgram name || isRunnable (← get) name then launch run launchDepth (name :: words)
    else unknown ("exec: " ++ name) name
    leave (← get).status
  | _, name :: words =>
    match Builtin.find? name with
    | some command => command words
    | none => launch run launchDepth (name :: words)

def runWords (run : Runner) : List String → Exec Unit
  | [] => return
  | name :: words => do
    match (← get).functions.lookup name with
    | some body =>
      if Builtin.specialNames.contains name then runProgram run launchDepth (name :: words)
      else call run body words
    | none => runProgram run launchDepth (name :: words)

end SchemaCompiler.Shell

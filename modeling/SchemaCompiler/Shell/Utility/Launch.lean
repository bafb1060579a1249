import SchemaCompiler.Shell.Awk.Run
import SchemaCompiler.Shell.Utility.Find

/-!
# Commands that run others
-/

namespace SchemaCompiler.Shell.Utility

open Exec

/-- What runs a program by its words, and tells which programs there are. -/
structure Launcher where
  run : List String → Exec Unit
  knows : String → Bool

/-- Runs a program, or tells that there is none; `title` is how it is called then. -/
def Launcher.start (l : Launcher) (title : String → String) : List String → Exec Unit
  | [] => return
  | name :: words =>
    if l.knows name then do
      setStatus 0
      l.run (name :: words)
    else warn 127 (title name ++ ": No such file or directory")

/-! ## Arguments from the input -/

/-- Cuts the input into items at blanks. Quotes and backslashes keep characters together; a quote
without its end is given back instead. -/
def inputItems (quote : Option Char) (item : Option (List Char)) :
    List Char → Except Char (List String)
  | [] =>
    match quote with
    | some q => .error q
    | none => .ok (finished item)
  | '\\' :: c :: rest =>
    match quote with
    | some q =>
      if c = q then inputItems none (some ('\\' :: item.getD [])) rest
      else inputItems quote (some (c :: '\\' :: item.getD [])) rest
    | none => inputItems none (some (c :: item.getD [])) rest
  | c :: rest =>
    match quote with
    | some q =>
      if c = '\n' then .error q
      else if c = q then inputItems none item rest
      else inputItems quote (some (c :: item.getD [])) rest
    | none =>
      if c = '\'' || c = '"' then inputItems (some c) (some (item.getD [])) rest
      else if c.isWhitespace then do
        let more ← inputItems none none rest
        .ok (finished item ++ more)
      else inputItems none (some (c :: item.getD [])) rest
where
  finished (item : Option (List Char)) : List String :=
    (item.map fun cs => String.ofList cs.reverse).toList

/-- The items of a text that a character ends. -/
def itemsEndedBy (ending : String) (text : String) : List String :=
  let parts := text.splitOn ending
  if parts.getLast? = some "" then parts.dropLast else parts

/-- Cuts a list into parts of a length. -/
def chunks (size : Nat) : Nat → List String → List (List String)
  | 0, _ => []
  | _, [] => []
  | fuel + 1, xs => xs.take size :: chunks size fuel (xs.drop size)

/-- The items of the input. -/
def argumentItems (a : Arguments) (text : String) : Except Char (List String) :=
  if a.has '0' then .ok (itemsEndedBy "\x00" text)
  else
    match a.value? 'd' with
    | some d => .ok (itemsEndedBy (if d = "\\n" then "\n" else d) text)
    | none => inputItems none none text.toList

/-- The commands that are run, each with its share of the items. -/
def argumentCommands (a : Arguments) (text : String) : Except Char (List (List String)) := do
  let words := if a.operands.isEmpty then ["echo"] else a.operands
  match a.value? 'I' with
  | some mark =>
    let lines ← if a.hasAny "0d" then argumentItems a text
      else .ok (((itemsEndedBy "\n" text).map (·.trimAsciiStart.toString)).filter (· ≠ ""))
    .ok (lines.map fun line => words.map fun w => line.intercalate (w.splitOn mark))
  | none =>
    match a.number? 'L' with
    | some count =>
      let lines := (itemsEndedBy "\n" text).filter (· ≠ "")
      (chunks count lines.length lines).mapM fun part => do
        let items ← inputItems none none ("\n".intercalate part).toList
        .ok (words ++ items)
    | none =>
      let items ← argumentItems a text
      if items.isEmpty then .ok (if a.has 'r' then [] else [words])
      else
        let size := ((a.number? 'n').getD items.length)
        .ok ((chunks size items.length items).map (words ++ ·))

/-- Runs commands one after the other, and tells their status together. -/
def runInTurn (l : Launcher) (traced : Bool) (status : Nat) : List (List String) → Exec Unit
  | [] => setStatus status
  | words :: rest => do
    if traced then modify (·.write 2 (" ".intercalate words ++ "\n"))
    l.start (fun name => "xargs: " ++ name) words
    let last := (← get).status
    if last = 126 || last = 127 then return
    else if last = 255 then
      warn 124 ("xargs: " ++ words.headD "" ++ ": exited with status 255; aborting")
    else runInTurn l traced (if last = 0 then status else 123) rest

/-- Runs a command on the items of the input. -/
def onArguments (l : Launcher) : List String → Exec Unit :=
  Usage.run
    { name := "xargs", letters := "0oprtx", valued := "adEILnPs", stops := true
      long :=
        [("null", '0'), ("no-run-if-empty", 'r'), ("max-args", 'n'), ("delimiter", 'd'),
         ("max-lines", 'L'), ("replace", 'I'), ("verbose", 't'), ("max-procs", 'P')] }
    fun a => do
      let (text, s) := (← get).takeInput
      set s
      match argumentCommands a text with
      | .ok commands => runInTurn l (a.has 't') 0 commands
      | .error quote =>
        let kind := if quote = '"' then "double" else "single"
        warn 1 ("xargs: unmatched " ++ kind ++
          " quote; by default quotes are special to xargs unless you use the -0 option")

/-! ## Surroundings -/

/-- The name and the value that a word sets. -/
def setting? (word : String) : Option (String × String) :=
  match word.splitOn "=" with
  | name :: first :: more =>
    if name = "" then none else some (name, "=".intercalate (first :: more))
  | _ => none

/-- Runs a command with variables that it alone sees. -/
def inEnvironment (l : Launcher) : List String → Exec Unit :=
  Usage.run
    { name := "env", letters := "iv0", valued := "uCS", stops := true, status := 125
      long := [("ignore-environment", 'i'), ("unset", 'u')] }
    fun a => do
      let words := if a.operands.head? = some "-" then a.operands.tail else a.operands
      let settings := (words.takeWhile fun w => (setting? w).isSome).filterMap setting?
      let before ← get
      let kept := if a.has 'i' then [] else before.exported.filter (!(a.values 'u').contains ·)
      set (settings.foldl (fun s (name, value) =>
        { s.withVariable name value with exported := name :: s.exported })
        { before with exported := kept })
      match words.drop settings.length with
      | [] => do
        let s ← get
        let lines := s.exported.eraseDups.filterMap fun name =>
          (s.lookup? name).map fun value => name ++ "=" ++ value ++ "\n"
        writeOut (String.join lines)
        setStatus 0
      | command => l.start (fun name => "env: '" ++ name ++ "'") command
      modify fun s => { s with values := before.values, exported := before.exported }

/-- Runs a command that never takes too long. -/
def withinTime (l : Launcher) : List String → Exec Unit :=
  let usage : Usage :=
    { name := "timeout", letters := "fv", valued := "ks", stops := true, status := 125
      long := [("kill-after", 'k'), ("signal", 's'), ("preserve-status", 'f')] }
  usage.run fun a =>
    match a.operands with
    | _ :: name :: words =>
      l.start (fun name => "timeout: failed to run command '" ++ name ++ "'") (name :: words)
    | _ => usage.refuse "missing operand"

/-- The programs that run others. -/
def launching? : String → Option (Launcher → List String → Exec Unit)
  | "awk" => some fun l => runOnRecords fun command => l.run ["sh", "-c", command]
  | "env" => some inEnvironment
  | "find" => some fun l => findFiles (l.start fun name => "find: '" ++ name ++ "'")
  | "timeout" => some withinTime
  | "xargs" => some onArguments
  | _ => none

end SchemaCompiler.Shell.Utility

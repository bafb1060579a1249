import SchemaCompiler.Shell.Edit.Reader
import SchemaCompiler.Shell.Utility.Lines

/-!
# Running scripts of edits

A run goes from line to line. The text at hand is the line that was read last, or several of them,
and it is printed when the script has come to its end.
-/

namespace SchemaCompiler.Shell.Edit

open Utility (linesOf)

/-- What is printed behind the text at hand. -/
inductive Appended where
  | text (t : String)
  | file (name : String)

structure State where
  session : Session
  /-- The lines that have not been read. -/
  lines : List String
  /-- The last line has no line end. -/
  unended : Bool
  /-- The text at hand is not printed by itself. -/
  quiet : Bool
  number : Nat := 0
  text : String := ""
  /-- The text that was put aside. -/
  held : String := ""
  appended : List Appended := []
  /-- The numbers of the steps whose ranges are open, with the lines that end them if they are
  known. -/
  opened : List (Nat × Option Nat) := []
  /-- A replacement has been made in the line. -/
  replaced : Bool := false
  /-- The expression that was used last. -/
  used : Option Regex := none
  output : String := ""
  /-- A line end is due before anything else is printed. -/
  owes : Bool := false
  /-- Files that have been written to. -/
  written : List String := []

abbrev Run := StateM State

namespace Run

/-! ## Output -/

/-- Prints a text as a line, whose end may be left out. -/
def printLine (text : String) (ended : Bool) : Run Unit :=
  modify fun s =>
    { s with
      output := s.output ++ (if s.owes then "\n" else "") ++ text ++ (if ended then "\n" else "")
      owes := !ended }

/-- Prints a text as it is. -/
def printText (text : String) : Run Unit :=
  modify fun s =>
    if text = "" then s
    else { s with output := s.output ++ (if s.owes then "\n" else "") ++ text, owes := false }

def isLast : Run Bool := return (← get).lines.isEmpty

/-- Prints a text that ends where the line at hand does. -/
def printOwn (text : String) : Run Unit := do
  let s ← get
  printLine text !(s.unended && s.lines.isEmpty)

/-- Writes a line to a file, which is emptied before the first one. -/
def writeTo (name text : String) : Run Unit := do
  if name = "/dev/stdout" then printOwn text
  else
    modify fun s =>
      let path := s.session.resolve name
      let before := if s.written.contains name then
        (s.session.tree.readText path).toOption.getD "" else ""
      match s.session.tree.writeFile path (before ++ text ++ "\n").toUTF8 with
      | .ok tree => { s with session.tree := tree, written := name :: s.written }
      | .error _ => s

/-- Prints what stands behind the text at hand. -/
def flush : Run Unit := do
  let s ← get
  set { s with appended := [] }
  s.appended.forM fun a =>
    match a with
    | .text t => printLine t true
    | .file name => printText ((s.session.tree.readText (s.session.resolve name)).toOption.getD "")

/-! ## Lines -/

/-- Reads the next line, if there is one. -/
def nextLine? : Run (Option String) := do
  let s ← get
  match s.lines with
  | [] => return none
  | line :: rest =>
    set { s with lines := rest, number := s.number + 1 }
    return some line

/-- Prints the text at hand unless it is kept quiet. -/
def printByItself : Run Unit := do
  let s ← get
  if !s.quiet then printOwn s.text

/-! ## Addresses -/

/-- The expression that a pattern stands for. -/
def regexOf (p : Pattern) : Run Regex := do
  match p.regex with
  | some regex =>
    modify ({ · with used := some regex })
    return regex
  | none => return (← get).used.getD .empty

def selects (a : Address) : Run Bool := do
  let s ← get
  match a with
  | .line n => return s.number = n
  | .every first step =>
    return if step = 0 then s.number = first
      else first ≤ s.number && (s.number - first) % step = 0
  | .last => isLast
  | .matching p => return (← regexOf p).isIn p.ignoreCase s.text

/-- The number of the line that ends a range which starts at the line at hand, if it is known. -/
def endOf (number : Nat) : RangeEnd → Option Nat
  | .reaching (.line n) => some n
  | .reaching _ => none
  | .behind count => some (number + count)
  | .multiple factor =>
    some (if factor = 0 then number else (number + factor - 1) / factor * factor)

/-- Whether the line at hand is the last one of a range. -/
def closes (last : RangeEnd) (known : Option Nat) : Run Bool := do
  match known, last with
  | some n, _ => return n ≤ (← get).number
  | none, .reaching a => selects a
  | none, _ => return true

/-- Whether a range holds the line at hand. A range that has been open from the start may end in
the first line. -/
def inRange (index : Nat) (first : Address) (last : RangeEnd) : Run Bool := do
  let s ← get
  let fromStart := (first matches .line 0) && s.number = 1
  match s.opened.lookup index with
  | some known =>
    if known.any (· < s.number) then
      modify ({ · with opened := s.opened.filter (·.1 ≠ index) })
      selects first
    else
      if ← closes last known then
        modify fun s => { s with opened := s.opened.filter (·.1 ≠ index) }
      return true
  | none =>
    if ← pure fromStart <||> selects first then
      let known := endOf s.number last
      let ends ← if fromStart then closes last known
        else match last with
          | .reaching .last => isLast
          | _ => pure (known.any (· ≤ s.number))
      if !ends then modify fun s => { s with opened := (index, known) :: s.opened }
      return true
    else return false

/-- Whether a step is made in the line at hand. -/
def chosen (index : Nat) (s : Step) : Run Bool := do
  let found ← match s.first, s.last with
    | none, _ => pure true
    | some a, none => selects a
    | some a, some b => inRange index a b
  return found != s.negated

/-! ## Replacements -/

/-- The case that characters are written in: the next one, and those behind it. -/
structure Casing where
  once : Option Bool := none
  mode : Option Bool := none

def Casing.apply (c : Casing) : List Char → List Char × Casing
  | [] => ([], c)
  | x :: rest =>
    let change := fun (upper : Option Bool) (y : Char) => match upper with
      | some true => y.toUpper
      | some false => y.toLower
      | none => y
    let first := match c.once with
      | some upper => change (some upper) x
      | none => change c.mode x
    (first :: rest.map (change c.mode), { c with once := none })

/-- What a replacement makes of a match. -/
def replacementText (found : Regex.Found) : Casing → List Piece → List Char
  | _, [] => []
  | c, p :: rest =>
    match p with
    | .case mode => replacementText found { mode } rest
    | .caseOnce upper => replacementText found { c with once := some upper } rest
    | .char x =>
      let (text, c) := c.apply [x]
      text ++ replacementText found c rest
    | .part index =>
      let (text, c) := c.apply (found.part index).toList
      text ++ replacementText found c rest

/-- Puts a text together; `number` counts the matches from one on. -/
def rebuild (s : Substitution) : Nat → List (Char ⊕ Regex.Found) → List Char
  | _, [] => []
  | number, .inl c :: rest => c :: rebuild s number rest
  | number, .inr found :: rest =>
    let replaces := if s.every then s.first ≤ number else s.first = number
    (if replaces then replacementText found {} s.replacement else found.text.toList) ++
      rebuild s (number + 1) rest

def substitute (s : Substitution) : Run Unit := do
  let regex ← regexOf s.pattern
  let pieces := regex.pieces s.pattern.ignoreCase (← get).text
  if s.first ≤ (pieces.filter (·.isRight)).length then
    let text := String.ofList (rebuild s 1 pieces)
    modify ({ · with text, replaced := true })
    if s.prints then printOwn text
    if let some file := s.file then writeTo file text

/-! ## Steps -/

/-- How the run of a script on a line ends. -/
inductive Outcome where
  | finished
  | deleted
  /-- The script is run again on what is left of the text. -/
  | again
  | stopped (prints : Bool) (status : Nat)

/-- What follows a step. -/
inductive Move where
  | onward
  | goTo (steps : List Step)
  | ending (o : Outcome)

/-- The first line of a text, and what stands behind it. -/
def splitFirst (text : String) : String × Option String :=
  match text.splitOn "\n" with
  | first :: second :: more => (first, some ("\n".intercalate (second :: more)))
  | _ => (text, none)

/-- A byte as it can be seen. -/
def spelled (b : UInt8) : String :=
  let n := b.toNat
  match n with
  | 92 => "\\\\"
  | 7 => "\\a"
  | 8 => "\\b"
  | 9 => "\\t"
  | 10 => "\\n"
  | 11 => "\\v"
  | 12 => "\\f"
  | 13 => "\\r"
  | _ =>
    if 32 ≤ n && n < 127 then String.ofList [Char.ofNat n]
    else "\\" ++ String.ofList ([n / 64, n / 8 % 8, n % 8].map fun d => Char.ofNat (d + '0'.toNat))

def changeText (f : State → String) : Run Unit := modify fun s => { s with text := f s }

/-- Goes to the next line, or ends where there is none. -/
def advance (f : String → String → String) (prints : Bool) : Run Move := do
  if ← isLast then return .ending (.stopped true 0)
  if prints then printByItself
  flush
  match ← nextLine? with
  | some line =>
    changeText fun s => f s.text line
    return .onward
  | none => return .onward

/-- Makes a step that is chosen; `script` has all steps, and `index` is the number of this one. -/
def make (script : List Step) (index : Nat) (step : Step) : Run Move := do
  match step.command with
  | .delete => return .ending .deleted
  | .deleteFirst =>
    match splitFirst (← get).text with
    | (_, none) => return .ending .deleted
    | (_, some rest) =>
      changeText fun _ => rest
      return .ending .again
  | .print => printOwn (← get).text
  | .printFirst => printLine (splitFirst (← get).text).1 true
  | .number => printLine (toString (← get).number) true
  | .spellOut => printLine (String.join ((← get).text.toUTF8.toList.map spelled) ++ "$") true
  | .quit prints status => return .ending (.stopped prints status)
  | .append text => modify fun s => { s with appended := s.appended ++ [.text text] }
  | .insert text => printLine text true
  | .change text =>
    let waits := ((← get).opened.lookup index).isSome && !step.negated
    if !waits then printLine text true
    return .ending .deleted
  | .substitute s => substitute s
  | .replaceChars pairs =>
    changeText fun s => String.ofList (s.text.toList.map fun c => (pairs.lookup c).getD c)
  | .next => return ← advance (fun _ line => line) true
  | .join => return ← advance (fun text line => text ++ "\n" ++ line) false
  | .hold adds =>
    modify fun s => { s with held := if adds then s.held ++ "\n" ++ s.text else s.text }
  | .take adds => changeText fun s => if adds then s.text ++ "\n" ++ s.held else s.held
  | .exchange => modify fun s => { s with text := s.held, held := s.text }
  | .readFile name => modify fun s => { s with appended := s.appended ++ [.file name] }
  | .writeFile name => writeTo name (← get).text
  | .jump name condition =>
    let replaced := (← get).replaced
    if condition.isSome then modify ({ · with replaced := false })
    if condition.all (· = replaced) then
      return if name = "" then .ending .finished else .goTo ((behindLabel name script).getD [])
  | .label _ | .enter | .leave => pure ()
  return .onward

/-- Runs the steps of a script. Jumps may go on for ever, so a run has a number of steps that it
must get along with. -/
def steps (script : List Step) : Nat → List Step → Run Outcome
  | 0, _ => return .finished
  | _, [] => return .finished
  | fuel + 1, step :: rest => do
    let index := script.length - rest.length - 1
    if ← chosen index step then
      match ← make script index step with
      | .onward => steps script fuel rest
      | .goTo target => steps script fuel target
      | .ending o => return o
    else
      match step.command with
      | .enter => steps script fuel (behindBraces 1 rest)
      | _ => steps script fuel rest

/-- The steps that a script may take in a line. -/
def maxSteps : Nat := 100000

/-- Runs a script on all lines, and gives its status. -/
def cycles (script : List Step) : Nat → Bool → Run Nat
  | 0, _ => return 0
  | fuel + 1, again => do
    if !again then
      match ← nextLine? with
      | none => return 0
      | some line => modify ({ · with text := line, replaced := false })
    match ← steps script maxSteps script with
    | .finished =>
      printByItself
      flush
      cycles script fuel false
    | .deleted =>
      flush
      cycles script fuel false
    | .again =>
      flush
      cycles script fuel true
    | .stopped prints status =>
      if prints then
        printByItself
        flush
      return status

end Run

/-- What a script makes of the texts of some files, and how it ends. -/
def apply (script : List Step) (quiet : Bool) (session : Session) (held : String)
    (texts : List String) : Nat × State :=
  let lines := texts.flatMap linesOf
  let last := (texts.filter (· ≠ "")).getLast?.getD ""
  (Run.cycles script (2 * lines.length + Run.maxSteps) false).run
    { session, lines, quiet, held, unended := last ≠ "" && !last.endsWith "\n" }

end SchemaCompiler.Shell.Edit

/-! ## Editing files -/

namespace SchemaCompiler.Shell.Utility

open Exec

/-- The script that the words of a command give, and the files. -/
def scriptOf (a : Arguments) : Exec (Option (String × List String)) := do
  let parts ← (a.options.filter fun o => "ef".contains o.1).mapM fun (letter, value) => do
    if letter = 'e' then return value
    match ← readFile value with
    | .ok text => return if text.endsWith "\n" then (text.dropEnd 1).toString else text
    | .error e =>
      warn 1 ("sed: couldn't open file " ++ value ++ ": " ++ reason e)
      return ""
  match parts, a.operands with
  | [], [] => return none
  | [], script :: files => return some (script, files)
  | parts, files => return some ("\n".intercalate parts, files)

/-- Edits each file in its place, and keeps a copy of it if an ending for its name is given. -/
def editInPlace (script : List Edit.Step) (a : Arguments) (found : List (String × String)) :
    Exec Unit :=
  found.forM fun (file, text) => do
    let (status, final) := Edit.apply script (a.has 'n') (← get) "" [text]
    set { final.session with status := if status = 0 then final.session.status else status }
    let path := (← get).resolve file
    let ending := (a.value? 'i').getD ""
    if ending ≠ "" then
      let copy := (← get).resolve (file ++ ending)
      change ("sed: cannot rename " ++ file) fun t => t.writeFile copy text.toUTF8
    change ("sed: couldn't edit " ++ file) fun t => t.writeFile path final.output.toUTF8

/-- Prints what a script makes of files, which may count as one text or each for itself. -/
def editToOutput (script : List Edit.Step) (a : Arguments) (found : List (String × String)) :
    Exec Unit := do
  let texts := found.map (·.2)
  let groups := if a.has 's' then texts.map fun t => [t] else [texts]
  groups.forM fun group => do
    let (status, final) := Edit.apply script (a.has 'n') (← get) "" group
    set { final.session with status := if status = 0 then final.session.status else status }
    writeOut final.output

/-- A word such as `-i.bak` or `-ni` edits in place; what stands behind the letter is an ending. -/
def inPlaceWord (word : String) : List String :=
  let body := word.toList.drop 1
  let front := body.takeWhile (· ≠ 'i')
  if word.startsWith "-" && !word.startsWith "--" && front.length < body.length &&
      front.all (fun c => "nErsuz".contains c) then
    (if front.isEmpty then [] else ["-" ++ String.ofList front]) ++
      ["--in-place=" ++ String.ofList (body.drop (front.length + 1))]
  else [word]

def editFiles (words : List String) : Exec Unit :=
  let usage : Usage :=
    { name := "sed", letters := "nErsuzi", valued := "efl"
      long :=
        [("quiet", 'n'), ("silent", 'n'), ("regexp-extended", 'E'), ("in-place", 'i'),
         ("expression", 'e'), ("file", 'f'), ("separate", 's'), ("null-data", 'z')] }
  usage.run (fun a => do
    match ← scriptOf a with
    | none => warn 1 "Usage: sed [OPTION]... \x7bscript-only-if-no-other-script\x7d [input-file]..."
    | some (script, files) =>
      let dialect := if a.hasAny "Er" then .extended else .basic
      match Edit.read dialect script with
      | .error problem => warn problem.status ("sed: " ++ problem.message script)
      | .ok steps =>
        let a := if script.startsWith "#n\n" then a.withOption 'n' else a
        let found ← readAll (fun f => "sed: can't read " ++ f) 2 files
        if a.has 'i' then editInPlace steps a found else editToOutput steps a found)
    (words.flatMap inPlaceWord)

end SchemaCompiler.Shell.Utility

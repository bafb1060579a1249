import SchemaCompiler.Shell.Utility.Files

/-!
# Lines of files

Commands that read files, or the input where none is named, and write their lines.
-/

namespace SchemaCompiler.Shell.Utility

open Exec

/-- The lines of a text; a line end at its end starts no further line. -/
def linesOf (text : String) : List String :=
  match text.splitOn "\n" with
  | [] => []
  | parts => if parts.getLast? = some "" then parts.dropLast else parts

def unlines (lines : List String) : String := String.join (lines.map (· ++ "\n"))

/-- Reads the files of a command one after the other; those that cannot be read are left out. -/
def readAll (message : String → String) (status : Nat) (files : List String) :
    Exec (List (String × String)) := do
  let files := if files.isEmpty then ["-"] else files
  let found ← files.mapM fun file => do
    match ← readFile file with
    | .ok text => return some (file, text)
    | .error e =>
      warn status (message file ++ ": " ++ reason e)
      return none
  return found.filterMap id

def textOfAll (found : List (String × String)) : String := String.join (found.map (·.2))

/-- The lines of files; each file starts with a line of its own. -/
def linesOfAll (found : List (String × String)) : List String := found.flatMap (linesOf ·.2)

def blanks (count : Nat) : String := String.ofList (List.replicate count ' ')

def padLeft (width : Nat) (text : String) : String := blanks (width - text.length) ++ text

/-! ## Whole texts -/

/-- One of several empty lines in a row. -/
def squeezeEmpty : List String → List String
  | "" :: "" :: rest => squeezeEmpty ("" :: rest)
  | line :: rest => line :: squeezeEmpty rest
  | [] => []

/-- A byte of which only the name is shown, unless it is a tab. -/
def visibleByte (b : UInt8) : String :=
  let n := b.toNat
  if n < 128 then plain n
  else "M-" ++ if n = 137 then "^I" else plain (n - 128)
where
  plain (n : Nat) : String :=
    if n = 9 then "\t" else if n < 32 then "^" ++ String.ofList [Char.ofNat (n + 64)]
    else if n = 127 then "^?" else String.ofList [Char.ofNat n]

/-- A line as the options show it. -/
def visibleLine (a : Arguments) (line : String) : String :=
  let line := if a.hasAny "vAet" then String.join (line.toUTF8.toList.map visibleByte) else line
  let line := if a.hasAny "TAt" then "^I".intercalate (line.splitOn "\t") else line
  if a.hasAny "EAe" then line ++ "$" else line

/-- Lines with numbers in front of those that `counts` takes; the others get `filler`. -/
def numberLines (number : Nat → String) (step : Nat) (filler : String) (counts : String → Bool) :
    Nat → List String → List String
  | _, [] => []
  | n, line :: rest =>
    if counts line then
      (number n ++ line) :: numberLines number step filler counts (n + step) rest
    else (filler ++ line) :: numberLines number step filler counts n rest

/-- The number in front of a line. -/
def lineNumber (n : Nat) : String := padLeft 6 (toString n) ++ "\t"

def concatenate : List String → Exec Unit :=
  Usage.run
    { name := "cat", letters := "AbeEnstTuv"
      long :=
        [("show-all", 'A'), ("number-nonblank", 'b'), ("show-ends", 'E'), ("number", 'n'),
         ("squeeze-blank", 's'), ("show-tabs", 'T'), ("show-nonprinting", 'v')] }
    fun a => do
      let found ← readAll (fun f => "cat: " ++ shown f) 1 a.operands
      let text := textOfAll found
      if a.options.isEmpty then writeOut text
      else
        let lines := linesOf text
        let lines := if a.has 's' then squeezeEmpty lines else lines
        let numbered := if a.has 'b' then numberLines lineNumber 1 "" (· ≠ "") 1
          else if a.has 'n' then numberLines lineNumber 1 "" (fun _ => true) 1
          else id
        let written := unlines (numbered (lines.map (visibleLine a)))
        writeOut (if text.endsWith "\n" || text = "" then written
          else (written.dropEnd (if a.hasAny "EAe" then 2 else 1)).toString)

/-- Copies the input to the output and to files. -/
def tee : List String → Exec Unit :=
  Usage.run { name := "tee", letters := "aip", long := [("append", 'a')] } fun a => do
    let (text, s) := (← get).takeInput
    set s
    writeOut text
    forAll a.operands fun file => do
      let path := (← get).resolve file
      change ("tee: " ++ shown file) fun t =>
        let before := if a.has 'a' then (t.readText path).toOption.getD "" else ""
        t.writeFile path (before ++ text).toUTF8

/-- The items of a text with the line ends behind them. -/
def endedLines (text : String) : List String :=
  let parts := text.splitOn "\n"
  let last := parts.getLast?.getD ""
  parts.dropLast.map (· ++ "\n") ++ if last = "" then [] else [last]

/-- Writes the lines of each file from the last to the first. -/
def reverseLines : List String → Exec Unit :=
  Usage.run { name := "tac", letters := "br", valued := "s" } fun a => do
    let found ← readAll (fun f => "tac: failed to open '" ++ f ++ "' for reading") 1 a.operands
    writeOut (String.join (found.map fun (_, text) => String.join (endedLines text).reverse))

/-- Writes each line from its end to its start. -/
def reverseChars : List String → Exec Unit :=
  Usage.run { name := "rev", letters := "0" } fun a => do
    let found ← readAll (fun f => "rev: cannot open " ++ f) 1 a.operands
    writeOut (String.join ((endedLines (textOfAll found)).map fun line =>
      let ended := line.endsWith "\n"
      let body := line.toList.filter (· ≠ '\n')
      String.ofList body.reverse ++ if ended then "\n" else ""))

/-- The number in front of a line, in one of three forms. -/
def formedNumber (form : String) (width n : Nat) : String :=
  let digits := toString n
  let gap := width - digits.length
  match form with
  | "ln" => digits ++ blanks gap
  | "rz" => String.ofList (List.replicate gap '0') ++ digits
  | _ => blanks gap ++ digits

/-- Numbers the lines that are not empty, or all of them. -/
def numberFiles : List String → Exec Unit :=
  Usage.run { name := "nl", letters := "p", valued := "bdfhilnsvw" } fun a => do
    let found ← readAll (fun f => "nl: " ++ f) 1 a.operands
    let width := (a.number? 'w').getD 6
    let gap := (a.value? 's').getD "\t"
    let counts : String → Bool := match a.value? 'b' with
      | some "a" => fun _ => true
      | some "n" => fun _ => false
      | _ => (· ≠ "")
    let number := fun n => formedNumber ((a.value? 'n').getD "rn") width n ++ gap
    writeOut (unlines (numberLines number ((a.number? 'i').getD 1) (blanks (width + gap.length))
      counts ((a.number? 'v').getD 1) (linesOfAll found)))

/-- Cuts a line into parts of a width. -/
def foldLine (width : Nat) (atBlanks : Bool) : Nat → List Char → List String
  | 0, cs => [String.ofList cs]
  | fuel + 1, cs =>
    if cs.length ≤ width then [String.ofList cs]
    else
      let part := cs.take width
      let upToBlank := (part.reverse.dropWhile (· ≠ ' ')).reverse
      let part := if atBlanks && !upToBlank.isEmpty then upToBlank else part
      String.ofList part :: foldLine width atBlanks fuel (cs.drop part.length)

def foldFiles : List String → Exec Unit :=
  Usage.run
    { name := "fold", letters := "bs", valued := "w"
      long := [("width", 'w'), ("spaces", 's'), ("bytes", 'b')] }
    fun a => do
      let found ← readAll (fun f => "fold: " ++ f) 1 a.operands
      let width := max 1 ((a.number? 'w').getD 80)
      writeOut (String.join ((endedLines (textOfAll found)).map fun line =>
        let body := line.toList.filter (· ≠ '\n')
        "\n".intercalate (foldLine width (a.has 's') body.length body) ++
          if line.endsWith "\n" then "\n" else ""))

/-! ## Counting -/

structure Counts where
  lines : Nat := 0
  words : Nat := 0
  bytes : Nat := 0
  /-- The length of the longest line. -/
  longest : Nat := 0

def Counts.of (text : String) : Counts where
  lines := text.toList.count '\n'
  words := ((text.split Char.isWhitespace).toList.filter (!·.isEmpty)).length
  bytes := text.utf8ByteSize
  longest := ((linesOf text).map String.length).foldl max 0

def Counts.add (a b : Counts) : Counts :=
  ⟨a.lines + b.lines, a.words + b.words, a.bytes + b.bytes, max a.longest b.longest⟩

/-- The counts that options ask for. -/
def Counts.select (c : Counts) (a : Arguments) : List Nat :=
  let wants := fun (letter : Char) => a.options.isEmpty || a.has letter
  (if wants 'l' then [c.lines] else []) ++ (if wants 'w' then [c.words] else []) ++
    (if a.has 'm' then [c.bytes] else []) ++ (if wants 'c' then [c.bytes] else []) ++
    (if a.has 'L' then [c.longest] else [])

/-- Counts of each file, with a sum where there are several. A single number stands alone; others
are as wide as the count of all bytes, or seven wide when that is not known beforehand. -/
def count : List String → Exec Unit :=
  Usage.run
    { name := "wc", letters := "clLmw"
      long :=
        [("bytes", 'c'), ("lines", 'l'), ("words", 'w'), ("chars", 'm'), ("max-line-length", 'L')] }
    fun a => do
      let files := a.operands
      let unknown := (files.isEmpty && !(← get).fromFile) || files.contains "-"
      let found ← readAll (fun f => "wc: " ++ shown f) 1 files
      let rows := found.map fun (file, text) => (file, Counts.of text)
      let total := rows.foldl (fun sum row => sum.add row.2) {}
      let single := (total.select a).length = 1 && files.length ≤ 1
      let width := if single then 1 else if unknown then 7 else (toString total.bytes).length
      let write := fun (c : Counts) (name : String) =>
        " ".intercalate ((c.select a).map fun n => padLeft width (toString n)) ++
          (if name = "" then "" else " " ++ name) ++ "\n"
      writeOut (String.join (rows.map fun (file, c) =>
        write c (if files.isEmpty then "" else file)))
      if files.length > 1 then writeOut (write total "total")

/-! ## Parts of a text -/

/-- A count of items. -/
structure Portion where
  count : Nat := 10
  bytes : Bool := false
  /-- The sign in front of the count. -/
  sign : Option Char := none

/-- A first word such as `-5` is short for `-n 5`. -/
def spelledOut : List String → List String
  | w :: rest =>
    if w.startsWith "-" && w.length > 1 && (w.toList.drop 1).all Char.isDigit then
      "-n" :: (w.drop 1).toString :: rest
    else w :: rest
  | [] => []

/-- The items of a text with what ends them. -/
def items (bytes : Bool) (text : String) : List String :=
  if bytes then text.toList.map fun c => String.ofList [c] else endedLines text

/-- The portion that the options ask for. A count that is none is refused. -/
def portionOf (usage : Usage) (a : Arguments) : Exec (Option Portion) := do
  match (a.options.filter fun o => "nc".contains o.1).getLast? with
  | none => return some {}
  | some (letter, text) =>
    let signed := text.startsWith "+" || text.startsWith "-"
    let digits := if signed then text.toList.drop 1 else text.toList
    match (String.ofList digits).toNat? with
    | some count =>
      let sign := if signed then text.toList.head? else none
      return some { count, bytes := letter = 'c', sign }
    | none =>
      let what := if letter = 'c' then "bytes" else "lines"
      warn 1 (usage.name ++ ": invalid number of " ++ what ++ ": '" ++ text ++ "'")
      return none

/-- Writes a part of each file, under its name where there are several. -/
def portions (name : String) (part : Portion → List String → List String) (words : List String) :
    Exec Unit :=
  let usage : Usage :=
    { name, letters := "fqvz", valued := "nc"
      long := [("lines", 'n'), ("bytes", 'c'), ("quiet", 'q'), ("silent", 'q'), ("verbose", 'v')] }
  usage.run (fun a => do
    let some p ← portionOf usage a | return
    let found ← readAll (fun f => name ++ ": cannot open '" ++ f ++ "' for reading") 1 a.operands
    let titled := (a.operands.length > 1 || a.has 'v') && !a.has 'q'
    let blocks := found.map fun (file, text) =>
      let title := if titled then "==> " ++ titleOf file ++ " <==\n" else ""
      title ++ String.join (part p (items p.bytes text))
    writeOut ((if titled then "\n" else "").intercalate blocks)) (spelledOut words)
where
  titleOf (file : String) : String := if file = "-" then "standard input" else file

def head : List String → Exec Unit := portions "head" fun p xs =>
  if p.sign = some '-' then xs.take (xs.length - p.count) else xs.take p.count

def tail : List String → Exec Unit := portions "tail" fun p xs =>
  if p.sign = some '+' then xs.drop (p.count - 1) else xs.drop (xs.length - p.count)

end SchemaCompiler.Shell.Utility

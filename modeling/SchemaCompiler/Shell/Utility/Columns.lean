import SchemaCompiler.Shell.Pattern
import SchemaCompiler.Shell.Quote
import SchemaCompiler.Shell.Utility.Lines

/-!
# Characters and columns
-/

namespace SchemaCompiler.Shell.Utility

open Exec

/-! ## Characters -/

/-- The characters that a set stands for: ranges, classes and escapes. -/
def characterSet : Nat → List Char → List Char
  | 0, _ => []
  | _, [] => []
  | fuel + 1, '\\' :: rest =>
    let (bytes, behind) := escaped rest
    (textOf bytes).toList ++ characterSet fuel behind
  | fuel + 1, '[' :: ':' :: rest =>
    let name := rest.takeWhile (· ≠ ':')
    classOf (String.ofList name) ++ characterSet fuel (rest.drop (name.length + 2))
  | fuel + 1, a :: '-' :: b :: rest =>
    between a b ++ characterSet fuel rest
  | fuel + 1, c :: rest => c :: characterSet fuel rest
where
  between (a b : Char) : List Char :=
    (List.range (b.toNat + 1 - a.toNat)).map fun i => Char.ofNat (a.toNat + i)
  classOf (name : String) : List Char :=
    (Matcher.classRanges name).flatMap fun (a, b) => between a b

/-- Keeps one of several equal characters in a row that a test takes. -/
def squeeze (test : Char → Bool) : List Char → List Char
  | a :: b :: rest =>
    if a = b && test a then squeeze test (b :: rest) else a :: squeeze test (b :: rest)
  | cs => cs

/-- The character that takes the place of another: the one at the same place of the second set, or
its last. -/
def replacement (first second : List Char) (c : Char) : Char :=
  match first.idxOf? c with
  | some i => second[i]?.getD (second.getLast?.getD c)
  | none => c

def replaceChars : List String → Exec Unit :=
  let usage : Usage :=
    { name := "tr", letters := "cCdst", stops := true
      long :=
        [("complement", 'c'), ("delete", 'd'), ("squeeze-repeats", 's'), ("truncate-set1", 't')] }
  usage.run fun a => do
    let sets := a.operands.map fun text => characterSet (text.length + 1) text.toList
    let least := if a.has 'd' != a.has 's' then 1 else 2
    if sets.isEmpty then return ← usage.refuse "missing operand"
    if sets.length < least then
      return ← usage.refuse ("missing operand after '" ++ a.operands.headD "" ++ "'\n" ++
        "Two strings must be given when " ++
        (if a.has 'd' then "both deleting and squeezing repeats." else "translating."))
    let (text, s) := (← get).takeInput
    set s
    let first := sets.headD []
    let second := sets[1]?.getD []
    let inFirst := fun c => first.contains c != a.hasAny "cC"
    let cs := text.toList
    let cs := if a.has 'd' then cs.filter (!inFirst ·)
      else if sets.length < 2 then cs
      else if a.hasAny "cC" then cs.map fun c => if inFirst c then second.getLast?.getD c else c
      else cs.map (replacement first second)
    let squeezed := if sets.length < 2 then inFirst else second.contains
    writeOut (String.ofList (if a.has 's' then squeeze squeezed cs else cs))

/-! ## Columns -/

/-- The numbers that a list such as `1,3-5,7-` stands for, up to a greatest one. -/
def numbersOf (greatest : Nat) (text : String) : List Nat :=
  let chosen := (text.splitOn ",").flatMap fun part =>
    match part.splitOn "-" with
    | [n] => n.toNat?.toList
    | [a, b] =>
      let low := a.toNat?.getD 1
      let high := b.toNat?.getD greatest
      (List.range (high + 1 - low)).map (low + ·)
    | _ => []
  (List.range greatest).map (· + 1) |>.filter chosen.contains

/-- What is taken of each line. -/
structure Columns where
  arguments : Arguments

namespace Columns

def delimiter (c : Columns) : String := (c.arguments.value? 'd').getD "\t"

/-- The numbers that are taken of some columns. -/
def chosen (c : Columns) (list : String) (count : Nat) : List Nat :=
  let inList := numbersOf count list
  if c.arguments.has 'x' then
    ((List.range count).map (· + 1)).filter (!inList.contains ·)
  else inList

/-- What is taken of a line, if it is printed at all. -/
def take? (c : Columns) (line : String) : Option String :=
  match c.arguments.value? 'f' with
  | none =>
    let cs := line.toList
    let list := ((c.arguments.value? 'c') <|> (c.arguments.value? 'b')).getD ""
    some (String.ofList ((c.chosen list cs.length).filterMap fun i => cs[i - 1]?))
  | some list =>
    let parts := line.splitOn c.delimiter
    if parts.length ≤ 1 then if c.arguments.has 's' then none else some line
    else
      let between := (c.arguments.value? 'o').getD c.delimiter
      some (between.intercalate ((c.chosen list parts.length).filterMap fun i => parts[i - 1]?))

end Columns

def cut : List String → Exec Unit :=
  let usage : Usage :=
    { name := "cut", letters := "nsz", valued := "bcdfo"
      long :=
        [("bytes", 'b'), ("characters", 'c'), ("fields", 'f'), ("delimiter", 'd'),
         ("only-delimited", 's'), ("complement", 'x'), ("output-delimiter", 'o')] }
  usage.run fun a => do
    if !a.hasAny "bcf" then
      return ← usage.refuse "you must specify a list of bytes, characters, or fields"
    if (a.value? 'd').any (·.length ≠ 1) then
      return ← usage.refuse "the delimiter must be a single character"
    let found ← readAll (fun f => "cut: " ++ shown f) 1 a.operands
    writeOut (unlines ((linesOfAll found).filterMap (Columns.take? ⟨a⟩)))

/-! ## Files side by side -/

/-- The texts between columns, which follow each other in turn. -/
def separatorsOf : Nat → List Char → List String
  | 0, _ => []
  | _, [] => []
  | fuel + 1, '\\' :: '0' :: rest => "" :: separatorsOf fuel rest
  | fuel + 1, '\\' :: rest =>
    let (bytes, behind) := escaped rest
    textOf bytes :: separatorsOf fuel behind
  | fuel + 1, c :: rest => String.ofList [c] :: separatorsOf fuel rest

/-- Puts texts together with separators that follow each other in turn. -/
def joinedWith (separators : List String) : Nat → List String → String
  | _, [] => ""
  | _, [last] => last
  | i, first :: rest =>
    let separator := (separators[i % max 1 separators.length]?).getD ""
    first ++ separator ++ joinedWith separators (i + 1) rest

/-- Cuts a list into rows of a length. -/
def rowsOf (width : Nat) : Nat → List String → List (List String)
  | 0, _ => []
  | _, [] => []
  | fuel + 1, xs => xs.take width :: rowsOf width fuel (xs.drop width)

/-- The lines of each column. The input is shared by all columns that name it, line by line. -/
def columnsOf (operands : List String) (found : List (String × String)) : List (List String) :=
  let width := (operands.filter (· = "-")).length
  let input := linesOf ((found.lookup "-").getD "")
  let rows := rowsOf width input.length input
  let inputColumns := (List.range width).map fun i => rows.filterMap fun row => row[i]?
  (operands.foldl (fun (columns, left) file =>
    if file = "-" then (columns ++ left.take 1, left.drop 1)
    else (columns ++ [linesOf ((found.lookup file).getD "")], left))
    (([], inputColumns) : List (List String) × List (List String))).1

def paste : List String → Exec Unit :=
  Usage.run
    { name := "paste", letters := "sz", valued := "d"
      long := [("serial", 's'), ("delimiters", 'd')] }
    fun a => do
      let operands := if a.operands.isEmpty then ["-"] else a.operands
      let found ← readAll (fun f => "paste: " ++ f) 1 operands.eraseDups
      if (← get).status ≠ 0 then return
      let list := (a.value? 'd').getD "\t"
      let separators := separatorsOf list.length list.toList
      if a.has 's' then
        writeOut (unlines (operands.map fun file =>
          joinedWith separators 0 (linesOf ((found.lookup file).getD ""))))
      else
        let columns := columnsOf operands found
        let height := (columns.map List.length).foldl max 0
        writeOut (unlines ((List.range height).map fun i =>
          joinedWith separators 0 (columns.map fun lines => (lines[i]?).getD "")))

end SchemaCompiler.Shell.Utility

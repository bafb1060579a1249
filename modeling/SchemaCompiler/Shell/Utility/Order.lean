import SchemaCompiler.Shell.Utility.Lines

/-!
# Order of lines
-/

namespace SchemaCompiler.Shell.Utility

open Exec

/-! ## Keys -/

/-- A place in a line: a field, and a character of it. Both count from one; the character zero is
the last one of the field. -/
structure KeyPlace where
  field : Nat
  char : Nat := 0

/-- A part of a line that decides on its order, and how. -/
structure SortKey where
  first : KeyPlace
  last : Option KeyPlace := none
  letters : List Char := []

/-- A place in front of a text with the letters behind it. -/
def keyPlace? (cs : List Char) : Option (KeyPlace × List Char) := do
  let digits := cs.takeWhile Char.isDigit
  let field ← (String.ofList digits).toNat?
  match cs.drop digits.length with
  | '.' :: rest =>
    let more := rest.takeWhile Char.isDigit
    let char ← (String.ofList more).toNat?
    some (⟨field, char⟩, rest.drop more.length)
  | rest => some (⟨field, 0⟩, rest)

/-- A key such as `2,3nr`. -/
def sortKey? (text : String) : Option SortKey := do
  let (first, rest) ← keyPlace? text.toList
  let letters := rest.takeWhile Char.isAlpha
  match rest.drop letters.length with
  | [] => some { first, letters }
  | ',' :: rest =>
    let (last, rest) ← keyPlace? rest
    if rest.all Char.isAlpha then some { first, last := some last, letters := letters ++ rest }
    else none
  | _ => none

def isBlank (c : Char) : Bool := c = ' ' || c = '\t'

/-- The fields of a line. Without a separator each field starts with the blanks in front of it. -/
def fieldsOf (separator : Option Char) (cs : List Char) : List (List Char) :=
  match separator with
  | some c => split c cs
  | none => blankFields cs.length cs
where
  split (c : Char) : List Char → List (List Char)
    | [] => [[]]
    | d :: rest =>
      match split c rest with
      | field :: more => if d = c then [] :: field :: more else (d :: field) :: more
      | [] => [[d]]
  blankFields : Nat → List Char → List (List Char)
    | 0, _ => []
    | _, [] => []
    | fuel + 1, cs =>
      let front := cs.takeWhile isBlank
      let body := (cs.drop front.length).takeWhile (!isBlank ·)
      (front ++ body) :: blankFields fuel (cs.drop (front.length + body.length))

/-- How far a line goes up to the start of a field. -/
def fieldStart (separator : Option Char) (fields : List (List Char)) (index : Nat) : Nat :=
  (fields.take index).flatten.length + if separator.isSome then min index fields.length else 0

/-- The part of a line that a key stands for. -/
def SortKey.part (k : SortKey) (separator : Option Char) (line : String) : List Char :=
  let cs := line.toList
  let fields := fieldsOf separator cs
  let lead := fun (i : Nat) =>
    if k.letters.contains 'b' then (((fields[i]?).getD []).takeWhile isBlank).length else 0
  let start := fieldStart separator fields (k.first.field - 1) +
    lead (k.first.field - 1) + (k.first.char - 1)
  let stop := match k.last with
    | none => cs.length
    | some p =>
      let origin := fieldStart separator fields (p.field - 1)
      if p.char = 0 then origin + ((fields[p.field - 1]?).getD []).length
      else origin + lead (p.field - 1) + p.char
  (cs.take stop).drop start

/-! ## Comparing -/

/-- The number at the start of a text: its digits as a whole number, and how many stand behind the
point. -/
def leadingNumber (cs : List Char) : Int × Nat :=
  let cs := cs.dropWhile isBlank
  let (negative, cs) := match cs with
    | '-' :: rest => (true, rest)
    | _ => (false, cs)
  let whole := cs.takeWhile Char.isDigit
  let behind := match cs.drop whole.length with
    | '.' :: rest => rest.takeWhile Char.isDigit
    | _ => []
  let n := ((String.ofList (whole ++ behind)).toNat?.getD 0 : Nat)
  (if negative then -(n : Int) else n, behind.length)

def compareNumbers (a b : Int × Nat) : Ordering :=
  Ord.compare (a.1 * Nat.pow 10 b.2) (b.1 * Nat.pow 10 a.2)

/-- Compares two parts of lines in the way that letters ask for. -/
def compareParts (letters : List Char) (a b : List Char) : Ordering :=
  let clean := fun (cs : List Char) =>
    let cs := if letters.contains 'b' then cs.dropWhile isBlank else cs
    let cs := if letters.contains 'd' then cs.filter fun c => c.isAlphanum || isBlank c else cs
    if letters.contains 'f' then cs.map Char.toUpper else cs
  if letters.contains 'n' || letters.contains 'g' then
    compareNumbers (leadingNumber a) (leadingNumber b)
  else Ord.compare (String.ofList (clean a)) (String.ofList (clean b))

/-- How lines are put in order. -/
structure Sorting where
  keys : List SortKey
  separator : Option Char
  /-- Letters for the keys that have none of their own. -/
  letters : List Char

namespace Sorting

def reversed (letters : List Char) (o : Ordering) : Ordering :=
  if letters.contains 'r' then o.swap else o

/-- Compares two lines by the keys alone. -/
def compareKeys (s : Sorting) (a b : String) : Ordering :=
  s.keys.foldl (fun o k =>
    let k := if k.letters.isEmpty then { k with letters := s.letters } else k
    o.then (reversed k.letters
      (compareParts k.letters (k.part s.separator a) (k.part s.separator b)))) .eq

/-- Compares two lines; where the keys do not decide, all of their characters do. -/
def compare (s : Sorting) (a b : String) : Ordering :=
  (s.compareKeys a b).then
    (if s.letters.any fun c => c = 's' || c = 'u' then .eq
      else reversed s.letters (Ord.compare a b))

/-- Keeps the first of several lines in a row that the keys take for equal. -/
def distinct (s : Sorting) : List String → List String
  | a :: rest =>
    match s.distinct rest with
    | b :: more => if s.compareKeys a b = .eq then a :: more else a :: b :: more
    | [] => [a]
  | [] => []

def apply (s : Sorting) (lines : List String) : List String :=
  let sorted := lines.mergeSort fun a b => s.compare a b ≠ .gt
  if s.letters.contains 'u' then s.distinct sorted else sorted

end Sorting

def sort : List String → Exec Unit :=
  let usage : Usage :=
    { name := "sort", letters := "bcCdfghimMnRrsuVz", valued := "kotST", status := 2
      long :=
        [("reverse", 'r'), ("unique", 'u'), ("numeric-sort", 'n'), ("ignore-case", 'f'),
         ("key", 'k'), ("field-separator", 't'), ("output", 'o'), ("stable", 's'),
         ("check", 'c'), ("ignore-leading-blanks", 'b'), ("dictionary-order", 'd')] }
  usage.run fun a => do
    let found ← readAll (fun f => "sort: cannot read: " ++ shown f) 2 a.operands
    if (← get).status = 2 then return
    let letters := a.options.map (·.1)
    let keys := (a.values 'k').filterMap sortKey?
    let sorting : Sorting :=
      { keys := if keys.isEmpty then [{ first := ⟨1, 0⟩ }] else keys
        separator := (a.value? 't').bind fun t =>
          if t = "\\t" then some '\t' else t.toList.head?
        letters := letters.filter fun c => !"kotST".contains c }
    let lines := linesOfAll found
    if a.hasAny "cC" then checkOrder sorting a lines
    else
      let text := unlines (sorting.apply lines)
      match a.value? 'o' with
      | none => writeOut text
      | some file =>
        let path := (← get).resolve file
        change ("sort: open failed: " ++ file) fun t => t.writeFile path text.toUTF8
where
  /-- Looks for the first line that is not in its place. -/
  checkOrder (sorting : Sorting) (a : Arguments) (lines : List String) : Exec Unit := do
    let pairs := (lines.zip (lines.drop 1)).zipIdx
    let wrong := pairs.find? fun ((x, y), _) =>
      sorting.compare x y = .gt || (a.has 'u' && sorting.compareKeys x y = .eq)
    if let some ((_, line), i) := wrong then
      if a.has 'C' then setStatus 1
      else
        let file := a.operands.headD "-"
        warn 1 ("sort: " ++ file ++ ":" ++ toString (i + 2) ++ ": disorder: " ++ line)

/-! ## Lines in a row -/

/-- Lines with how often each comes in a row, by what is compared of them. -/
def runs (key : String → String) : List String → List (String × Nat)
  | [] => []
  | line :: rest =>
    match runs key rest with
    | (other, n) :: more =>
      if key other = key line then (line, n + 1) :: more else (line, 1) :: (other, n) :: more
    | [] => [(line, 1)]

/-- The part of a line that is compared. -/
def comparedPart (a : Arguments) (line : String) : String :=
  let skipField := fun (cs : List Char) => (cs.dropWhile isBlank).dropWhile (!isBlank ·)
  let cs := ((List.range ((a.number? 'f').getD 0)).foldl (fun cs _ => skipField cs) line.toList)
  let cs := cs.drop ((a.number? 's').getD 0)
  let cs := match a.number? 'w' with
    | some n => cs.take n
    | none => cs
  String.ofList (if a.has 'i' then cs.map Char.toLower else cs)

def unique : List String → Exec Unit :=
  Usage.run
    { name := "uniq", letters := "cdDiuz", valued := "fsw"
      long :=
        [("count", 'c'), ("repeated", 'd'), ("unique", 'u'), ("ignore-case", 'i'),
         ("skip-fields", 'f'), ("skip-chars", 's'), ("check-chars", 'w')] }
    fun a => do
      let found ← readAll (fun f => "uniq: " ++ shown f) 1 (a.operands.take 1)
      let groups := (runs (comparedPart a) (linesOf (textOfAll found))).filter fun (_, n) =>
        (!a.has 'd' || n > 1) && (!a.has 'u' || n = 1)
      let text := unlines (groups.map fun (line, n) =>
        if a.has 'c' then padLeft 7 (toString n) ++ " " ++ line else line)
      match a.operands with
      | [_, file] =>
        let path := (← get).resolve file
        change ("uniq: " ++ shown file) fun t => t.writeFile path text.toUTF8
      | _ => writeOut text

/-! ## Two files -/

/-- Lines of two sorted files, each with the column that it belongs to: of the first alone, of the
second alone, or of both. -/
def merged : Nat → List String → List String → List (Nat × String)
  | 0, _, _ => []
  | _, [], bs => bs.map (2, ·)
  | _, as, [] => as.map (1, ·)
  | fuel + 1, a :: as, b :: bs =>
    match Ord.compare a b with
    | .lt => (1, a) :: merged fuel as (b :: bs)
    | .eq => (3, a) :: merged fuel as bs
    | .gt => (2, b) :: merged fuel (a :: as) bs

/-- Writes the lines of two sorted files in three columns. -/
def commonLines : List String → Exec Unit :=
  let usage : Usage := { name := "comm", letters := "123z" }
  usage.run fun a => do
    match a.operands with
    | [first, second] =>
      match ← readAll (fun f => "comm: " ++ f) 1 [first, second] with
      | [(_, x), (_, y)] =>
        let (xs, ys) := (linesOf x, linesOf y)
        let hidden := fun (column : Nat) => a.has (Char.ofNat ('0'.toNat + column))
        let indent := fun (column : Nat) =>
          String.join ((List.range (column - 1)).map fun i => if hidden (i + 1) then "" else "\t")
        let rows := (merged (xs.length + ys.length + 1) xs ys).filter fun row => !hidden row.1
        writeOut (unlines (rows.map fun (column, line) => indent column ++ line))
      | _ => setStatus 1
    | [] => usage.refuse "missing operand"
    | [only] => usage.refuse ("missing operand after '" ++ only ++ "'")
    | _ :: _ :: extra :: _ => usage.refuse ("extra operand '" ++ extra ++ "'")

/-! ## Numbers in order -/

/-- Fills a number up with zeros behind its sign. -/
def zeroFilled (width : Nat) (n : Int) : String :=
  let sign := if n < 0 then "-" else ""
  let digits := toString n.natAbs
  sign ++ String.ofList (List.replicate (width - sign.length - digits.length) '0') ++ digits

/-- Whether a word is an option, and not a number below zero. -/
def isCountOption (word : String) : Bool :=
  word.startsWith "-" && !((word.toList.drop 1).headD '-').isDigit

/-- Writes the numbers from one to another. -/
def countUp (words : List String) : Exec Unit :=
  let usage : Usage :=
    { name := "seq", letters := "w", valued := "fs", stops := true
      long := [("separator", 's'), ("equal-width", 'w')] }
  let front := words.takeWhile isCountOption
  let separate := front.getLast? = some "-s"
  let count := front.length + if separate then 1 else 0
  usage.run (fun a => do
    let operands := a.operands ++ words.drop count
    match operands.find? fun w => w.toInt?.isNone with
    | some w => usage.refuse ("invalid floating point argument: '" ++ w ++ "'")
    | none =>
      let (first, step, last) := match operands.filterMap (·.toInt?) with
        | [last] => (1, 1, last)
        | [first, last] => (first, 1, last)
        | first :: step :: last :: _ => (first, step, last)
        | [] => (1, 1, 0)
      let rounds := if step = 0 then 0 else (Int.fdiv (last - first) step + 1).toNat
      let numbers := (List.range rounds).map fun (i : Nat) => first + i * step
      let width := (numbers.map fun n => (toString n).length).foldl max 0
      let texts := numbers.map fun n => if a.has 'w' then zeroFilled width n else toString n
      if operands.isEmpty then usage.refuse "missing operand"
      else if !texts.isEmpty then
        writeOut (((a.value? 's').getD "\n").intercalate texts ++ "\n")) (words.take count)

end SchemaCompiler.Shell.Utility

import SchemaCompiler.Shell.Utility.Lines

/-!
# Comparing files
-/

namespace SchemaCompiler.Shell.Utility

open Exec

/-! ## Bytes -/

/-- Where two texts differ first. -/
def reportDifference (first second : String) (xs ys : List UInt8) : Exec Unit := do
  let same := ((xs.zip ys).takeWhile fun (x, y) => x == y).length
  let line := (xs.take same).count 10
  if same < min xs.length ys.length then
    writeOut (first ++ " " ++ second ++ " differ: char " ++ toString (same + 1) ++ ", line " ++
      toString (line + 1) ++ "\n")
    setStatus 1
  else
    let shorter := if xs.length < ys.length then first else second
    if same = 0 then warn 1 ("cmp: EOF on " ++ shorter ++ " which is empty")
    else
      let place := if (xs.take same).getLast? = some 10 then "line " ++ toString line
        else "in line " ++ toString (line + 1)
      warn 1 ("cmp: EOF on " ++ shorter ++ " after byte " ++ toString same ++ ", " ++ place)

/-- Compares two files byte by byte. -/
def compare : List String → Exec Unit :=
  Usage.run
    { name := "cmp", letters := "bls", valued := "in", status := 2
      long := [("silent", 's'), ("quiet", 's')] }
    fun a => do
      let missing := if a.has 's' then fun _ => "" else fun f => "cmp: " ++ f
      match ← readAll missing 2 (a.operands.take 2) with
      | [(first, x), (second, y)] =>
        if x = y then return
        else if a.has 's' then setStatus 1
        else reportDifference first second x.toUTF8.toList y.toUTF8.toList
      | _ => setStatus 2

/-! ## Lines -/

/-- A line of two texts that are laid side by side. -/
inductive SideLine where
  | both
  | removed (line : String)
  | added (line : String)

/-- The lengths of the longest common subsequences of a list that starts with `x` and of all ends
of another list; `below` has those of the list without `x`. -/
def commonLengths (x : String) : List String → List Nat → List Nat
  | y :: ys, b :: below =>
    let rest := commonLengths x ys below
    (if x = y then below.headD 0 + 1 else max b (rest.headD 0)) :: rest
  | _, _ => [0]

/-- The lengths for all ends of a first list, the whole list first. -/
def commonTable (ys : List String) : List String → List (List Nat)
  | [] => [List.replicate (ys.length + 1) 0]
  | x :: xs =>
    let rows := commonTable ys xs
    commonLengths x ys (rows.headD []) :: rows

/-- Lays two texts side by side so that as many lines as possible are common. Lines are compared by
their keys. -/
def sideBySide (key : String → String) :
    List (List Nat) → Nat → List String → List String → List SideLine
  | _, _, [], ys => ys.map .added
  | _, _, xs, [] => xs.map .removed
  | rows, column, x :: xs, y :: ys =>
    let below := rows.tail
    if key x = key y then .both :: sideBySide key below (column + 1) xs ys
    else
      let withoutX := ((below.headD [])[column]?).getD 0
      let withoutY := ((rows.headD [])[column + 1]?).getD 0
      if withoutX ≥ withoutY then .removed x :: sideBySide key below column xs (y :: ys)
      else .added y :: sideBySide key rows (column + 1) (x :: xs) ys
termination_by _ _ xs ys => xs.length + ys.length

/-- Lines that differ, with how many lines of each text stand in front of them. -/
structure Hunk where
  before : Nat × Nat
  removed : List String := []
  added : List String := []

/-- The places where two texts differ. -/
def hunksFrom : Nat × Nat → Option Hunk → List SideLine → List Hunk
  | _, open?, [] => open?.toList
  | (m, n), open?, .both :: rest => open?.toList ++ hunksFrom (m + 1, n + 1) none rest
  | (m, n), open?, .removed line :: rest =>
    let h := open?.getD { before := (m, n) }
    hunksFrom (m + 1, n) (some { h with removed := h.removed ++ [line] }) rest
  | (m, n), open?, .added line :: rest =>
    let h := open?.getD { before := (m, n) }
    hunksFrom (m, n + 1) (some { h with added := h.added ++ [line] }) rest

namespace Hunk

/-- The numbers of some lines; none have the number of the line in front. -/
def range (before count : Nat) : String :=
  if count = 0 then toString before
  else if count = 1 then toString (before + 1)
  else toString (before + 1) ++ "," ++ toString (before + count)

/-- A line behind a mark. The end of a text without a line end is told apart. -/
def marked (mark line : String) : String :=
  mark ++ line ++ if line.endsWith "\n" then "" else "\n\\ No newline at end of file\n"

def text (h : Hunk) : String :=
  let letter := if h.removed.isEmpty then "a" else if h.added.isEmpty then "d" else "c"
  range h.before.1 h.removed.length ++ letter ++ range h.before.2 h.added.length ++ "\n" ++
    String.join (h.removed.map (marked "< ")) ++
    (if letter = "c" then "---\n" else "") ++
    String.join (h.added.map (marked "> "))

end Hunk

/-- What is compared of a line. -/
def lineKey (a : Arguments) (line : String) : String :=
  let isGap := fun (c : Char) => c = ' ' || c = '\t' || c = '\n'
  let words := fun (between : String) =>
    between.intercalate (((line.split isGap).toList.filter (!·.isEmpty)).map (·.toString))
  let line := if a.has 'w' then words "" else if a.has 'b' then words " " else line
  if a.has 'i' then line.toLower else line

/-- Tells where the lines of two files differ. -/
def difference : List String → Exec Unit :=
  Usage.run
    { name := "diff", letters := "abBeiNqrstwy", valued := "U", status := 2
      long :=
        [("brief", 'q'), ("report-identical-files", 's'), ("ignore-case", 'i'),
         ("ignore-all-space", 'w'), ("ignore-space-change", 'b')] }
    fun a => do
      match ← readAll (fun f => "diff: " ++ f) 2 (a.operands.take 2) with
      | [(first, x), (second, y)] =>
        let (xs, ys) := (endedLines x, endedLines y)
        let key := lineKey a
        let lines := sideBySide key (commonTable (ys.map key) (xs.map key)) 0 xs ys
        let hunks := hunksFrom (0, 0) none lines
        let names := "Files " ++ first ++ " and " ++ second
        if hunks.isEmpty then
          if a.has 's' then writeOut (names ++ " are identical\n")
        else
          writeOut (if a.has 'q' then names ++ " differ\n" else String.join (hunks.map (·.text)))
          setStatus 1
      | _ => setStatus 2

end SchemaCompiler.Shell.Utility

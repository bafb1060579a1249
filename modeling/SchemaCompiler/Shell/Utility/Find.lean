import SchemaCompiler.Shell.Quote
import SchemaCompiler.Shell.Utility.Search

/-!
# Searching for files

An expression of tests and actions is evaluated for each entry of a tree. An entry that passes is
printed, unless the expression has an action of its own.
-/

namespace SchemaCompiler.Shell.Utility

open Exec

/-! ## Expressions -/

/-- A number, or those above or below it. -/
structure Bound where
  sign : Option Char
  number : Nat

def Bound.holds (b : Bound) (n : Nat) : Bool :=
  match b.sign with
  | some '+' => n > b.number
  | some '-' => n < b.number
  | _ => n = b.number

inductive FindExpr where
  | constant (value : Bool)
  | name (pattern : String) (ignoreCase : Bool)
  | path (pattern : String) (ignoreCase : Bool)
  | isDirectory (value : Bool)
  | empty
  /-- The size in units, of which the last one may be used in part. -/
  | size (bound : Bound) (unit : Nat)
  | print (ending : String)
  | format (text : String)
  /-- Runs a command for the entry. -/
  | run (words : List String)
  /-- Runs a command once for all entries. -/
  | gather (words : List String)
  | delete
  | prune
  | quit
  | not (inner : FindExpr)
  | both (first second : FindExpr)
  | either (first second : FindExpr)

/-- Whether an expression does something with entries. -/
def FindExpr.acts : FindExpr → Bool
  | print _ | format _ | run _ | gather _ | delete | quit => true
  | not e => e.acts
  | both a b | either a b => a.acts || b.acts
  | _ => false

/-- Whether entries are looked at before the directories that they are in. -/
def FindExpr.deletes : FindExpr → Bool
  | delete => true
  | not e => e.deletes
  | both a b | either a b => a.deletes || b.deletes
  | _ => false

/-! ## Reading expressions -/

/-- What is read of an expression, and what it says about the search as a whole. -/
structure FindInput where
  words : List String
  least : Nat := 0
  most : Option Nat := none
  deepFirst : Bool := false

abbrev FindReader := StateT FindInput (Except String)

namespace FindReader

/-- The value behind a word. -/
def value (word : String) : FindReader String := do
  match (← get).words with
  | w :: rest =>
    modify ({ · with words := rest })
    return w
  | [] => throw ("missing argument to \x60" ++ word ++ "'")

def number (word : String) : FindReader Nat := do
  let text ← value word
  match text.toNat? with
  | some n => return n
  | none =>
    throw ("Expected a positive decimal integer argument to " ++ word ++ ", but got '" ++ text ++
      "'")

def bound (text : List Char) : FindReader Bound := do
  let (sign, digits) := match text with
    | '+' :: rest => (some '+', rest)
    | '-' :: rest => (some '-', rest)
    | _ => (none, text)
  match (String.ofList digits).toNat? with
  | some number => return ⟨sign, number⟩
  | none => throw ("Invalid argument \x60" ++ String.ofList text ++ "' to -size")

def unitOf? : Char → Option Nat
  | 'c' => some 1
  | 'w' => some 2
  | 'b' => some 512
  | 'k' => some 1024
  | 'M' => some 1048576
  | _ => none

def size : FindReader FindExpr := do
  let text := (← value "-size").toList
  match text.getLast?.bind unitOf? with
  | some unit => return .size (← bound text.dropLast) unit
  | none => return .size (← bound text) 512

/-- The words of a command up to the one that ends it. -/
def command : FindReader FindExpr := do
  let words := (← get).words
  let body := words.takeWhile fun w => w ≠ ";" && w ≠ "+"
  match words.drop body.length with
  | [] => throw "missing argument to \x60-exec'"
  | last :: rest =>
    modify ({ · with words := rest })
    if last = ";" then return .run body else return .gather (body.filter (· ≠ "\x7b\x7d"))

/-- A test or an action. -/
def primary (word : String) : FindReader FindExpr := do
  match word with
  | "-name" => return .name (← value word) false
  | "-iname" => return .name (← value word) true
  | "-path" => return .path (← value word) false
  | "-wholename" => return .path (← value word) false
  | "-ipath" => return .path (← value word) true
  | "-type" => do
    match ← value word with
    | "d" => return .isDirectory true
    | "f" => return .isDirectory false
    | _ => return .constant false
  | "-empty" => return .empty
  | "-size" => size
  | "-true" => return .constant true
  | "-false" => return .constant false
  | "-print" => return .print "\n"
  | "-print0" => return .print "\x00"
  | "-printf" => return .format (← value word)
  | "-exec" => command
  | "-delete" => return .delete
  | "-prune" => return .prune
  | "-quit" => return .quit
  | "-mindepth" => do
    let least ← number word
    modify ({ · with least })
    return .constant true
  | "-maxdepth" => do
    let most ← number word
    modify ({ · with most := some most })
    return .constant true
  | "-depth" => do
    modify ({ · with deepFirst := true })
    return .constant true
  | _ =>
    if word.startsWith "-" then throw ("unknown predicate \x60" ++ word ++ "'")
    else throw ("paths must precede expression: \x60" ++ word ++ "'")

mutual

def alternatives : Nat → FindReader FindExpr
  | 0 => throw "expression too deep"
  | fuel + 1 => do
    let first ← conjunction fuel
    match (← get).words with
    | w :: rest =>
      if w = "-o" || w = "-or" then
        modify ({ · with words := rest })
        return .either first (← alternatives fuel)
      else return first
    | [] => return first

def conjunction : Nat → FindReader FindExpr
  | 0 => throw "expression too deep"
  | fuel + 1 => do
    let first ← negation fuel
    match (← get).words with
    | w :: rest =>
      if ["-o", "-or", ")"].contains w then return first
      else
        if w = "-a" || w = "-and" then modify ({ · with words := rest })
        return .both first (← conjunction fuel)
    | [] => return first

def negation : Nat → FindReader FindExpr
  | 0 => throw "expression too deep"
  | fuel + 1 => do
    match (← get).words with
    | [] => throw "invalid expression"
    | w :: rest =>
      modify ({ · with words := rest })
      if w = "!" || w = "-not" then return .not (← negation fuel)
      else if w = "(" then
        let inner ← alternatives fuel
        match (← get).words with
        | ")" :: rest =>
          modify ({ · with words := rest })
          return inner
        | _ =>
          throw ("invalid expression; I was expecting to find a ')' somewhere but did not " ++
            "see one.")
      else primary w

end

/-- A whole expression. -/
def whole : FindReader FindExpr := do
  let words := (← get).words
  if words.isEmpty then return .print "\n"
  let e ← alternatives (3 * words.length + 3)
  if !(← get).words.isEmpty then throw "invalid expression; you have too many ')'"
  return if e.acts then e else .both e (.print "\n")

end FindReader

/-! ## Evaluating -/

/-- An entry of a tree that is searched. -/
structure FoundEntry where
  root : String
  path : String
  depth : Nat
  entry : FileEntry

/-- What has come up in a search. -/
structure FindState where
  /-- Directories whose entries are left out. -/
  pruned : List String := []
  /-- Paths for the commands that run at the end. -/
  gathered : List (List String × List String) := []
  stopped : Bool := false
  /-- Something went wrong. -/
  faulty : Bool := false

abbrev Finding := StateT FindState Exec

namespace FoundEntry

def size (e : FoundEntry) : Nat := (e.entry.content?.map (·.size)).getD 4096

/-- A directory or file in which there is nothing. -/
def isEmpty (s : Session) (e : FoundEntry) : Bool :=
  if e.entry.isDirectory then (s.tree.namesIn (s.resolve e.path)).isEmpty else e.size = 0

/-- What a letter behind a percent sign stands for. -/
def property (e : FoundEntry) : Char → String
  | 'p' => e.path
  | 'f' => baseName e.path
  | 'h' => directoryName e.path
  | 'P' => (e.path.drop (if e.depth = 0 then e.root.length else e.root.length + 1)).toString
  | 'H' => e.root
  | 's' => toString e.size
  | 'd' => toString e.depth
  | 'y' => if e.entry.isDirectory then "d" else "f"
  | '%' => "%"
  | c => "%" ++ String.ofList [c]

/-- Fills a format in. -/
def formatted (e : FoundEntry) : Nat → List Char → String
  | 0, _ => ""
  | _, [] => ""
  | fuel + 1, '%' :: c :: rest => e.property c ++ e.formatted fuel rest
  | fuel + 1, '\\' :: rest =>
    let (bytes, behind) := escaped rest
    textOf bytes ++ e.formatted fuel behind
  | fuel + 1, c :: rest => String.ofList [c] ++ e.formatted fuel rest

end FoundEntry

/-- The words of a command with a path in the place of each pair of braces. -/
def withPath (path : String) (words : List String) : List String :=
  words.map fun w => path.intercalate (w.splitOn "\x7b\x7d")

def matchesCase (ignoreCase : Bool) (pattern name : String) : Bool :=
  if ignoreCase then nameMatches pattern.toLower name.toLower else nameMatches pattern name

/-- Whether an entry passes an expression. Actions are carried out on the way; `run` runs a
command. -/
def FindExpr.evaluate (run : List String → Exec Unit) (e : FoundEntry) : FindExpr → Finding Bool
  | constant value => return value
  | name pattern ignoreCase => return matchesCase ignoreCase pattern (baseName e.path)
  | path pattern ignoreCase => return matchesCase ignoreCase pattern e.path
  | isDirectory value => return e.entry.isDirectory == value
  | empty => return e.isEmpty (← (get : Exec Session))
  | size bound unit => return bound.holds ((e.size + unit - 1) / unit)
  | print ending => do
    writeOut (e.path ++ ending)
    return true
  | format text => do
    writeOut (e.formatted text.length text.toList)
    return true
  | FindExpr.run words => do
    run (withPath e.path words)
    return (← (get : Exec Session)).status = 0
  | gather words => do
    modify fun s =>
      let before := (s.gathered.lookup words).getD []
      { s with
        gathered := (s.gathered.filter (·.1 ≠ words)) ++ [(words, before ++ [e.path])] }
    return true
  | delete => do
    let s ← (get : Exec Session)
    if let .ok place := s.tree.locate (s.resolve e.path) then
      (set { s with tree := s.tree.remove place } : Exec Unit)
    return true
  | prune => do
    if e.entry.isDirectory then modify fun s => { s with pruned := e.path :: s.pruned }
    return true
  | quit => do
    modify ({ · with stopped := true })
    return true
  | not inner => do
    let passed ← inner.evaluate run e
    return !passed
  | both first second => do
    if ← first.evaluate run e then second.evaluate run e else return false
  | either first second => do
    if ← first.evaluate run e then return true else second.evaluate run e

/-- The entries at a root and below it that a search looks at. -/
def searchedEntries (s : Session) (input : FindInput) (root : String) : List FoundEntry :=
  match s.tree.locate (s.resolve root) with
  | .error _ => []
  | .ok place =>
    let all := (s.tree.below place).map fun (rest, entry) =>
      { root, path := pathBelow root rest, depth := rest.length, entry : FoundEntry }
    all.filter fun e => input.least ≤ e.depth && input.most.all (e.depth ≤ ·)

/-- Searches below one root. -/
def findBelow (run : List String → Exec Unit) (input : FindInput) (e : FindExpr) (root : String) :
    Finding Unit := do
  let s ← (get : Exec Session)
  if !s.tree.exists? (s.resolve root) then
    warn 1 ("find: '" ++ root ++ "': No such file or directory")
    modify ({ · with faulty := true })
  else
    let entries := searchedEntries s input root
    let entries := if input.deepFirst || e.deletes then entries.reverse else entries
    entries.forM fun entry => do
      let state ← get
      let hidden := state.pruned.any fun p => entry.path.startsWith (p ++ "/")
      if !state.stopped && !hidden then
        let _ ← e.evaluate run entry

/-- Runs the commands for all paths that were gathered. -/
def runGathered (run : List String → Exec Unit) : Finding Unit := do
  (← get).gathered.forM fun (words, paths) => do
    run (words ++ paths)
    let failed := (← (get : Exec Session)).status ≠ 0
    modify fun s => { s with faulty := s.faulty || failed }

def isFindExpression (word : String) : Bool :=
  Usage.isOption word || ["!", "(", ")"].contains word

/-- Searches trees for entries; `run` runs a command. -/
def findFiles (run : List String → Exec Unit) (words : List String) : Exec Unit := do
  let roots := words.takeWhile (!isFindExpression ·)
  match FindReader.whole.run { words := words.drop roots.length } with
  | .error problem => warn 1 ("find: " ++ problem)
  | .ok (e, input) =>
    let search : Finding Unit := do
      (if roots.isEmpty then ["."] else roots).forM (findBelow run input e)
      runGathered run
    let ((), state) ← search.run {}
    setStatus (if state.faulty then 1 else 0)

end SchemaCompiler.Shell.Utility

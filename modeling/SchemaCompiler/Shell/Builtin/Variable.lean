import SchemaCompiler.Shell.Parser.Word
import SchemaCompiler.Shell.Session

/-!
# Variables

Commands that give variables and arguments their values.
-/

namespace SchemaCompiler.Shell.Builtin

open Exec

/-- Fails with a complaint. -/
def refuse (text : String) : Exec Unit := do
  complain text
  setStatus 2

/-! ## Reading -/

/-- A line of the input: its characters, each with whether a backslash quotes it, whether the line
was ended, and the rest. -/
def lineOf (raw : Bool) : List Char → List (Char × Bool) × Bool × List Char
  | [] => ([], false, [])
  | '\n' :: rest => ([], true, rest)
  | '\\' :: c :: rest =>
    if raw then
      let (line, ended, behind) := lineOf raw (c :: rest)
      (('\\', false) :: line, ended, behind)
    else
      let (line, ended, behind) := lineOf raw rest
      (if c = '\n' then line else (c, true) :: line, ended, behind)
  | c :: rest =>
    let (line, ended, behind) := lineOf raw rest
    ((c, false) :: line, ended, behind)

/-- Cuts a line into as many fields as there are names; the last takes the rest. -/
def fieldsOf (separators : String) : Nat → List (Char × Bool) → List String
  | 0, _ => []
  | more + 1, line =>
    let separates := fun (x : Char × Bool) => !x.2 && separators.toList.contains x.1
    let isBlank := fun (x : Char × Bool) => separates x && x.1.isWhitespace
    let line := line.dropWhile isBlank
    let textOf := fun (xs : List (Char × Bool)) => String.ofList (xs.map (·.1))
    if more = 0 then [textOf (line.reverse.dropWhile isBlank).reverse]
    else
      let field := line.takeWhile (!separates ·)
      let behind := (line.drop field.length).dropWhile isBlank
      let behind := match behind with
        | x :: rest => if separates x then rest else behind
        | [] => []
      textOf field :: fieldsOf separators more behind

/-- The names behind the options of `read`, and whether a backslash means nothing. The prompt is
shown to nobody. -/
def readOptions (raw : Bool) : List String → Bool × List String
  | "-r" :: rest => readOptions true rest
  | "-p" :: _ :: rest => readOptions raw rest
  | "--" :: names => (raw, names)
  | names => (raw, names)

def read (words : List String) : Exec Unit := do
  let (raw, names) := readOptions false words
  if names.isEmpty then return ← refuse "read: arg count"
  let s ← get
  let (line, ended, rest) := lineOf raw s.input.toList
  set { s with input := String.ofList rest }
  let fields := fieldsOf s.separators names.length line
  (names.zip fields).forM fun (name, value) => assign name value
  setStatus (if ended then 0 else 1)

/-! ## Setting -/

/-- The name and the value of a word such as `name=value`. -/
def binding (word : String) : String × Option String :=
  match word.splitOn "=" with
  | name :: first :: more => (name, some ("=".intercalate (first :: more)))
  | _ => (word, none)

/-- Does something with each of some variables. What is no name of one ends the script. -/
def forNames (command : String) (words : List String) (f : String → Option String → Exec Unit) :
    Exec Unit := do
  setStatus 0
  (words.filter (!·.startsWith "-")).forM fun word => do
    let (name, value) := binding word
    if ← goesOn then
      if isName name then f name value else abort (command ++ ": " ++ name ++ ": bad variable name")

/-- Gives variables values and marks them. -/
def declare (command : String) (mark : Session → String → Session) (words : List String) :
    Exec Unit :=
  forNames command words fun name value => do
    if let some value := value then assign name value
    modify (mark · name)

/-- Lists variables in the order of their names, as the command that marks them would be written. -/
def listMarked (command : String) (names : List String) : Exec Unit := do
  let s ← get
  (names.eraseDups.mergeSort fun a b => a ≤ b).forM fun name => do
    let value := ((s.lookup? name).map fun v => "=" ++ Shell.listed v).getD ""
    writeOut (command ++ " " ++ name ++ value ++ "\n")
  setStatus 0

/-- Marks variables, or lists those that are marked where none is named. -/
def marking (command : String) (marked : Session → List String)
    (mark : Session → String → Session) (words : List String) : Exec Unit := do
  let names := if words.head? = some "-p" || words.head? = some "--" then words.tail else words
  match names.head?.map (·.toList) with
  | none => listMarked command (marked (← get))
  | some ('-' :: c :: _) => abort (command ++ ": Illegal option -" ++ String.ofList [c])
  | _ => declare command mark names

def export' : List String → Exec Unit :=
  marking "export" (·.exported) fun s name => { s with exported := name :: s.exported }

def readonly : List String → Exec Unit :=
  marking "readonly" (·.readonly) fun s name => { s with readonly := name :: s.readonly }

/-- Gives variables a value for as long as the function around runs. -/
def local' (words : List String) : Exec Unit := do
  setStatus 0
  words.forM fun word => do
    let (name, value) := binding word
    let s ← get
    match s.locals with
    | [] => abort "local: not in a function"
    | frame :: frames =>
      set { s with locals := ((name, s.lookup? name) :: frame) :: frames }
      if let some value := value then assign name value

/-- Takes a variable away, unless it is fixed. -/
def forget (name : String) : Exec Unit := do
  if (← get).readonly.contains name then abort ("unset: " ++ name ++ ": is read only")
  else modify (·.withoutVariable name)

def unset : List String → Exec Unit
  | "-f" :: names => do
    setStatus 0
    modify fun s => { s with functions := s.functions.filter fun f => !names.contains f.1 }
  | words => forNames "unset" words fun name _ => forget name

def shift (words : List String) : Exec Unit := do
  let text := words.headD "1"
  match text.toNat? with
  | none => abort ("shift: Illegal number: " ++ text)
  | some n =>
    let arguments := (← get).arguments
    if n > arguments.length then abort "shift: can't shift that many"
    else modify ({ · with arguments := arguments.drop n, optionPlace := {}, status := 0 })

end SchemaCompiler.Shell.Builtin

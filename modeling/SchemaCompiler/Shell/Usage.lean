import SchemaCompiler.Shell.Session

/-!
# Options of commands

A command knows letters, some of which take a value, and long names for them. Options may stand
between the operands, up to a word `--`.
-/

namespace SchemaCompiler.Shell

/-- The options that a command knows. -/
structure Usage where
  name : String
  /-- Letters without a value. -/
  letters : String := ""
  /-- Letters with a value. -/
  valued : String := ""
  /-- Long names, and the letters that they stand for. -/
  long : List (String × Char) := []
  /-- The first operand ends the options. -/
  stops : Bool := false
  /-- The status of a command with a faulty option. -/
  status : Nat := 1
  /-- A line on how to use the command. -/
  synopsis : Option String := none

/-- The words of a command: options with their values, in order, and operands. -/
structure Arguments where
  options : List (Char × String) := []
  operands : List String := []

namespace Arguments

def has (a : Arguments) (letter : Char) : Bool := a.options.any (·.1 = letter)

def hasAny (a : Arguments) (letters : String) : Bool := a.options.any fun o => letters.contains o.1

/-- All values of an option. -/
def values (a : Arguments) (letter : Char) : List String :=
  (a.options.filter (·.1 = letter)).map (·.2)

/-- The value of an option; the last one counts. -/
def value? (a : Arguments) (letter : Char) : Option String := (a.values letter).getLast?

/-- The value of an option that is a number. -/
def number? (a : Arguments) (letter : Char) : Option Nat := (a.value? letter).bind (·.toNat?)

/-- The last one of some options that exclude each other. -/
def lastOf? (a : Arguments) (letters : String) : Option Char :=
  ((a.options.filter fun o => letters.contains o.1).getLast?).map (·.1)

def withOption (a : Arguments) (letter : Char) : Arguments :=
  { a with options := (letter, "") :: a.options }

def withOperand (a : Arguments) (word : String) : Arguments :=
  { a with operands := word :: a.operands }

end Arguments

namespace Usage

/-- What may be wrong with options. -/
inductive Problem where
  | unknownLetter (letter : Char)
  | unknownName (word : String)
  | unclearName (word : String)
  | noValue (letter : Char)

def Problem.text : Problem → String
  | unknownLetter c => "invalid option -- '" ++ String.ofList [c] ++ "'"
  | unknownName w => "unrecognized option '" ++ w ++ "'"
  | unclearName w => "option '" ++ w ++ "' is ambiguous"
  | noValue c => "option requires an argument -- '" ++ String.ofList [c] ++ "'"

/-- What the letters of a word say: the options, and a letter whose value is the next word. -/
def cluster (u : Usage) : List Char → Except Problem (List (Char × String) × Option Char)
  | [] => .ok ([], none)
  | c :: rest =>
    if u.letters.contains c then do
      let (more, open?) ← cluster u rest
      .ok ((c, "") :: more, open?)
    else if u.valued.contains c then
      if rest.isEmpty then .ok ([], some c) else .ok ([(c, String.ofList rest)], none)
    else .error (.unknownLetter c)

/-- The letter that a long name stands for; a part of the name will do if no other starts so. -/
def letterOf (u : Usage) (word : String) (name : String) : Except Problem Char :=
  match u.long.lookup name with
  | some c => .ok c
  | none =>
    match (u.long.filter (·.1.startsWith name)).map (·.2) with
    | [] => .error (.unknownName word)
    | c :: others => if others.all (· = c) then .ok c else .error (.unclearName word)

/-- What a word with a long name says. -/
def longOption (u : Usage) (word : String) :
    Except Problem (List (Char × String) × Option Char) := do
  let body := word.toList.drop 2
  let name := body.takeWhile (· ≠ '=')
  let c ← u.letterOf ("--" ++ String.ofList name) (String.ofList name)
  if name.length < body.length then
    .ok ([(c, String.ofList (body.drop (name.length + 1)))], none)
  else if u.valued.contains c then .ok ([], some c)
  else .ok ([(c, "")], none)

def isOption (word : String) : Bool := word.startsWith "-" && word ≠ "-"

def read (u : Usage) : List String → Except Problem Arguments
  | [] => .ok {}
  | w :: rest =>
    if w = "--" then .ok { operands := rest }
    else if isOption w then do
      let (found, open?) ← if w.startsWith "--" then u.longOption w else u.cluster (w.toList.drop 1)
      match open?, rest with
      | none, rest => do
        let a ← u.read rest
        .ok { a with options := found ++ a.options }
      | some c, [] => .error (.noValue c)
      | some c, value :: rest => do
        let a ← u.read rest
        .ok { a with options := found ++ (c, value) :: a.options }
    else if u.stops then .ok { operands := w :: rest }
    else do
      let a ← u.read rest
      .ok (a.withOperand w)

/-- The lines that end a complaint about a command's words. -/
def advice (u : Usage) : String :=
  (u.synopsis.map (· ++ "\n")).getD "" ++ "Try '" ++ u.name ++ " --help' for more information."

/-- Fails with a complaint about a command's words. -/
def refuse (u : Usage) (text : String) : Exec Unit :=
  Exec.warn u.status (u.name ++ ": " ++ text ++ "\n" ++ u.advice)

/-- Runs a command on its words, unless an option is faulty. -/
def run (u : Usage) (command : Arguments → Exec Unit) (words : List String) : Exec Unit :=
  match u.read words with
  | .ok a => command a
  | .error problem => u.refuse problem.text

end Usage

end SchemaCompiler.Shell

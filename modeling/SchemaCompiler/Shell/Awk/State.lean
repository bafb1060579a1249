import SchemaCompiler.Shell.Awk.Syntax
import SchemaCompiler.Shell.Awk.Value
import SchemaCompiler.Shell.Utility.Lines

/-!
# What a program for records works on

The record at hand with its fields, the variables and arrays, and the files and commands that are read
and written. A record and its fields are two views of one thing: who changes one of them changes the
other.

What is written to the output is held back until a command starts that might write to it too.
-/

namespace SchemaCompiler.Shell.Awk

/-- What keeps a program from going on with the next statement. -/
inductive Jump where
  | next
  | break
  | continue
  | return
  | exit
  /-- Ends the program at once. -/
  | abort
deriving DecidableEq

/-- The variables that have values before a program starts. -/
def usualValues : List (String × Value) :=
  [("FS", .text " "), ("OFS", .text " "), ("RS", .text "\n"), ("ORS", .text "\n"),
   ("SUBSEP", .text "\x1c"), ("OFMT", .text "%.6g"), ("CONVFMT", .text "%.6g"),
   ("NR", .number 0), ("FNR", .number 0), ("NF", .number 0)]

structure State where
  session : Session
  /-- Runs a command line. -/
  shell : String → Exec Unit := fun _ => pure ()
  functions : List Function := []
  values : List (String × Value) := usualValues
  arrays : List (String × List (String × Value)) := []
  record : String := ""
  fields : List String := []
  /-- What is left of the file at hand. -/
  text : List Char := []
  /-- The operands that have not been looked at. -/
  operands : List String := []
  /-- No operand has been the name of a file. -/
  unread : Bool := true
  /-- The files that have been written to. -/
  written : List String := []
  /-- What is left of the files and outputs that are read line by line. -/
  readers : List (String × List Char) := []
  /-- What is held back of the output. -/
  held : String := ""
  /-- The inputs of commands, with the one first that was written to last. -/
  pipes : List (String × String) := []
  /-- The rules whose ranges are open. -/
  opened : List Nat := []
  jump : Option Jump := none
  /-- What the function that was left last has returned. -/
  result : Value := .unset
  status : Nat := 0

abbrev Run := StateM State

namespace State

def lookup (s : State) (name : String) : Value := (s.values.lookup name).getD .unset

/-- The text of a variable, or another one if it has no value. -/
def setting (s : State) (name usual : String) : String :=
  match s.lookup name with
  | .unset => usual
  | v => v.toText

def withVariable (s : State) (name : String) (v : Value) : State :=
  { s with values := (name, v) :: s.values.filter (·.1 ≠ name) }

/-! ## Records and fields -/

def isBlank (c : Char) : Bool := c == ' ' || c == '\t' || c == '\n'

/-- The pieces of a text between matches. -/
def piecesBetween (r : Regex) (text : String) : List String :=
  let (last, done) := (r.pieces false text).foldl (fun (now, done) piece =>
    match piece with
    | .inl c => (c :: now, done)
    | .inr found =>
      if found.text = "" then (now, done) else ([], String.ofList now.reverse :: done)) ([], [])
  (String.ofList last.reverse :: done).reverse

/-- The fields of a text. A blank separator stands for any blanks, and an empty one for none. -/
def splitBy (separator : String) (text : String) : List String :=
  if text = "" then []
  else if separator = " " then
    ((text.split isBlank).toList.filter (!·.isEmpty)).map (·.toString)
  else if separator = "" then text.toList.map fun c => String.ofList [c]
  else if separator.length = 1 && separator ≠ "\\" then text.splitOn separator
  else piecesBetween (Regex.parse .extended separator) text

def withFieldCount (s : State) : State := s.withVariable "NF" (.number s.fields.length.toFloat)

/-- Puts another record in the place of the one at hand. -/
def withRecord (s : State) (record : String) : State :=
  { s with record, fields := splitBy (s.setting "FS" " ") record }.withFieldCount

/-- Puts other fields in the place of those at hand. -/
def withFields (s : State) (fields : List String) : State :=
  { s with fields, record := (s.setting "OFS" " ").intercalate fields }.withFieldCount

def field (s : State) (index : Nat) : Value :=
  if index = 0 then .input s.record
  else
    match s.fields[index - 1]? with
    | some text => .input text
    | none => .unset

/-- The fields with empty ones at the end, so that there are so many. -/
def padded (s : State) (count : Nat) : List String :=
  s.fields ++ List.replicate (count - s.fields.length) ""

def withField (s : State) (index : Nat) (text : String) : State :=
  if index = 0 then s.withRecord text
  else s.withFields ((s.padded index).set (index - 1) text)

/-- Gives a variable a value; the count of the fields also changes the record. -/
def assign (s : State) (name : String) (v : Value) : State :=
  if name = "NF" then
    let count := (integerOf v.toNumber).toNat
    s.withFields ((s.padded count).take count)
  else s.withVariable name v

/-! ## Arrays -/

def array (s : State) (name : String) : List (String × Value) := (s.arrays.lookup name).getD []

def withArray (s : State) (name : String) (items : List (String × Value)) : State :=
  { s with arrays := (name, items) :: s.arrays.filter (·.1 ≠ name) }

def withItem (s : State) (name key : String) (v : Value) : State :=
  s.withArray name ((key, v) :: (s.array name).filter (·.1 ≠ key))

/-- A number that a key is scattered by. -/
def scatter (key : String) : Nat :=
  key.toUTF8.toList.foldl (fun h b => (h ^^^ b.toNat) * 16777619 % Nat.pow 2 32) 2166136261

/-- The keys of an array, in the order that a loop visits them in: they are spread over 64 places,
and the one that was used last comes first in its place. -/
def keys (s : State) (name : String) : List String :=
  let place := fun (key : String) => scatter key % 64
  ((s.array name).map (·.1)).mergeSort fun a b => place a ≤ place b

/-! ## Commands -/

/-- Writes what was held back. -/
def flush (s : State) : State := { s with session := s.session.write 1 s.held, held := "" }

/-- Runs something of the shell. -/
def running {α : Type} (s : State) (action : Exec α) : α × State :=
  let s := s.flush
  let (a, session) := action.run s.session
  (a, { s with session })

/-- Runs a command and gives its status. -/
def runCommand (s : State) (command : String) : Nat × State :=
  s.running do
    s.shell command
    return (← get).status

/-- The output of a command. -/
def outputOf (s : State) (command : String) : String × State :=
  s.running (gather (s.shell command))

/-- Runs a command on a text. -/
def runOn (s : State) (command text : String) : State :=
  let before := { s.session with input := text, fromFile := false }
  let ((), session) := Id.run ((s.shell command).run before)
  { s with
    session := { session with input := s.session.input, fromFile := s.session.fromFile } }

/-- Runs the commands that output was written for. -/
def runPipes (s : State) : State :=
  s.pipes.foldl (fun s (command, text) => s.runOn command text) { s with pipes := [] }

/-! ## Output -/

/-- Writes a text to a file. -/
def writeFile (s : State) (text : String) (append : Bool) (file : String) : State :=
  if file = "/dev/stdout" || file = "-" then { s with held := s.held ++ text }
  else if file = "/dev/stderr" then { s with session := s.session.write 2 text }
  else if file = "/dev/null" then s
  else
    let path := s.session.resolve file
    let keeps := append || s.written.contains file
    let before := if keeps then (s.session.tree.readBytes path).toOption.getD .empty else .empty
    match s.session.tree.writeFile path (before ++ text.toUTF8) with
    | .ok tree => { s with session := { s.session with tree }, written := file :: s.written }
    | .error e =>
      { s with
        session := s.session.write 2
          ("awk: cannot open \"" ++ file ++ "\" for output (" ++ reason e ++ ")\n")
        status := 2, jump := some .abort }

/-- Writes a text to a command, which runs when all has been written. -/
def writePipe (s : State) (text command : String) : State :=
  match s.pipes.lookup command with
  | some before =>
    { s with pipes := (command, before ++ text) :: s.pipes.filter (·.1 ≠ command) }
  | none =>
    let s := s.flush
    { s with pipes := (command, text) :: s.pipes }

/-- Writes a text to the output, or to a file or command. -/
def write (s : State) (text : String) : Option (OutputMode × String) → State
  | none => s.writeFile text true "-"
  | some (.command, command) => s.writePipe text command
  | some (mode, file) => s.writeFile text (mode = .append) file

/-- Ends the program with a message. -/
def stop (s : State) (text : String) : State :=
  { s with session := s.session.write 2 ("awk: " ++ text ++ "\n"), status := 2, jump := some .abort }

/-! ## Input -/

/-- The name and the value in an operand that is an assignment. -/
def assignment? (operand : String) : Option (String × String) :=
  match operand.splitOn "=" with
  | name :: value :: more =>
    if name.toList.head?.any isNameStart && name.toList.all isNameChar then
      some (name, "=".intercalate (value :: more))
    else none
  | _ => none

/-- Reads a file, or the input. -/
def open? (s : State) (file : String) : Except AccessError (String × State) :=
  let (found, session) := (Utility.readFile file).run s.session
  found.map fun text => (text, { s with session })

/-- Cuts a text at the first place where something stands in front of it; the record comes first. -/
def cutAt (separator : List Char) : List Char → List Char × List Char
  | [] => ([], [])
  | c :: cs =>
    if separator.isPrefixOf (c :: cs) then ([], (c :: cs).drop separator.length)
    else
      let (record, rest) := cutAt separator cs
      (c :: record, rest)

/-- Cuts a text behind the first match. -/
def cutAtMatch (r : Regex) (cs : List Char) : List Char × List Char :=
  let pieces := r.pieces false (String.ofList cs)
  let isText := fun (p : Char ⊕ Regex.Found) =>
    match p with
    | .inl _ => true
    | .inr found => found.text = ""
  let record := (pieces.takeWhile isText).filterMap Sum.getLeft?
  match (pieces.dropWhile isText).head? with
  | some (.inr found) => (record, cs.drop (record.length + found.text.length))
  | _ => (record, [])

/-- The first record of a text, and what stands behind it. An empty separator stands for empty
lines. -/
def recordOf (separator : String) (cs : List Char) : Option (List Char × List Char) :=
  if separator = "" then
    match cs.dropWhile (· = '\n') with
    | [] => none
    | cs =>
      let (record, rest) := cutAt ['\n', '\n'] cs
      let record := if rest.isEmpty then (record.reverse.dropWhile (· = '\n')).reverse else record
      some (record, rest)
  else if cs.isEmpty then none
  else if separator.length = 1 then some (cutAt separator.toList cs)
  else some (cutAtMatch (Regex.parse .extended separator) cs)

/-- The first record of a text, as the program wants it cut. -/
def cut (s : State) (cs : List Char) : Option (List Char × List Char) :=
  recordOf (s.setting "RS" "\n") cs

/-- Goes on to the next file with records in it, if there is one. Without the name of a file the
input is read. -/
def openNext (s : State) : List String → State
  | [] =>
    let s := { s with operands := [] }
    if s.unread then
      match ({ s with unread := false }).open? "-" with
      | .ok (text, s) => { s with text := text.toList }
      | .error _ => s
    else s
  | operand :: rest =>
    match assignment? operand with
    | some (name, value) => (s.assign name (.input value)).openNext rest
    | none =>
      if operand = "" then s.openNext rest
      else
        match ({ s with unread := false }).open? operand with
        | .ok (text, s) =>
          let s := (s.withVariable "FILENAME" (.text operand)).withVariable "FNR" (.number 0)
          if (s.cut text.toList).isNone then s.openNext rest
          else { s with text := text.toList, operands := rest }
        | .error e => s.stop ("cannot open \"" ++ operand ++ "\" (" ++ reason e ++ ")")

def countUp (s : State) (name : String) : State :=
  s.withVariable name (.number ((s.lookup name).toNumber + 1))

/-- Takes the next record, if there is one. -/
def takeLine (s : State) : Option String × State :=
  let ready := if (s.cut s.text).isNone then s.openNext s.operands else s
  match ready.cut ready.text with
  | none => (none, { ready with text := [] })
  | some (record, text) =>
    (some (String.ofList record), (({ ready with text }).countUp "NR").countUp "FNR")

/-- Takes the next line of a text that is read beside the records; `title` is what it is called. -/
def takeFrom (s : State) (title : String) (text : List Char) : Option String × State :=
  let keep := fun (rest : List Char) =>
    { s with readers := (title, rest) :: s.readers.filter (·.1 ≠ title) }
  match s.cut text with
  | none => (none, keep [])
  | some (record, rest) => (some (String.ofList record), keep rest)

/-- Takes the next line of a file that is read beside the records. -/
def takeLineOf (s : State) (file : String) : Except AccessError (Option String × State) :=
  match s.readers.lookup file with
  | some text => .ok (s.takeFrom file text)
  | none => (s.open? file).map fun (text, s) => s.takeFrom file text.toList

/-- Takes the next line of the output of a command. -/
def takeOutputOf (s : State) (command : String) : Option String × State :=
  match s.readers.lookup command with
  | some text => s.takeFrom command text
  | none =>
    let (text, s) := s.outputOf command
    s.takeFrom command text.toList

/-- Whether something is read or written under a title. -/
def isOpen (s : State) (title : String) : Bool :=
  (s.readers.lookup title).isSome || (s.pipes.lookup title).isSome || s.written.contains title

/-- Ends reading and writing under a title. -/
def close (s : State) (title : String) : State :=
  let closed :=
    { s with
      readers := s.readers.filter (·.1 ≠ title), written := s.written.filter (· ≠ title)
      pipes := s.pipes.filter (·.1 ≠ title) }
  match s.pipes.lookup title with
  | some text => closed.runOn title text
  | none => closed

end State

end SchemaCompiler.Shell.Awk

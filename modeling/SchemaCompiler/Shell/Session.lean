import SchemaCompiler.FileTree
import SchemaCompiler.Shell.Alias

/-!
# Sessions

What a script can see and change: a file tree and a directory of it, the streams, and the
variables, functions and arguments of the shell.
-/

namespace SchemaCompiler.Shell

/-- Where a stream goes. -/
inductive Sink where
  | stdout
  | stderr
  | file (path : Path)
  /-- A text that is gathered for a command around this one; the outermost has the number 0. -/
  | gathered (index : Nat)
  | nowhere

/-- Where the streams go that are open for writing. -/
abbrev Sinks := List (Nat × Sink)

/-- What keeps a script from going on with the next command. -/
inductive Jump where
  | exit
  | return
  /-- Leaves a number of loops, and begins the next round of the last one if `again` is set. -/
  | loop (count : Nat) (again : Bool)
deriving DecidableEq, Repr

/-- The options that are set, by their letters. -/
structure Options where
  letters : List Char := []

namespace Options

/-- The names and letters of options; the last two have no effect. -/
def names : List (String × Option Char) :=
  [("errexit", some 'e'), ("noglob", some 'f'), ("ignoreeof", some 'I'), ("interactive", some 'i'),
   ("monitor", some 'm'), ("noexec", some 'n'), ("stdin", some 's'), ("xtrace", some 'x'),
   ("verbose", some 'v'), ("vi", some 'V'), ("emacs", some 'E'), ("noclobber", some 'C'),
   ("allexport", some 'a'), ("notify", some 'b'), ("nounset", some 'u'), ("privileged", some 'p'),
   ("nolog", none), ("debug", none)]

def has (o : Options) (letter : Char) : Bool := o.letters.contains letter

/-- Sets an option, or takes it away. -/
def set (o : Options) (on : Bool) (letter : Char) : Options :=
  let others := o.letters.filter (· ≠ letter)
  ⟨if on then letter :: others else others⟩

/-- The script ends when a command fails. -/
def exitOnFailure (o : Options) : Bool := o.has 'e'

/-- The use of an unset variable is an error. -/
def refuseUnset (o : Options) : Bool := o.has 'u'

/-- Commands are printed before they run. -/
def trace (o : Options) : Bool := o.has 'x'

/-- Patterns stand for themselves. -/
def plainPatterns (o : Options) : Bool := o.has 'f'

/-- Files are not emptied. -/
def keepFiles (o : Options) : Bool := o.has 'C'

/-- Variables are exported when they are set. -/
def exportAll (o : Options) : Bool := o.has 'a'

/-- Commands are read, but do not run. -/
def readOnly (o : Options) : Bool := o.has 'n'

/-- The letters of the options that are set, as a script sees them. -/
def text (o : Options) : String :=
  String.ofList ((names.reverse.filterMap (·.2)).filter o.has)

end Options

/-- How far options have been read from some words. -/
structure OptionPlace where
  /-- The number of the next word, from one on. -/
  index : Nat := 1
  /-- How many characters of the word before have been read, if more of them are options. -/
  offset : Option Nat := none

/-- The variables that a shell starts with. -/
def usualValues : List (String × String) :=
  [("IFS", " \t\n"), ("OPTIND", "1"), ("PS2", "> "), ("PS4", "+ ")]

structure Session where
  tree : FileTree
  /-- The files that may be run. -/
  runnable : List Place := []
  dir : Path
  stdout : String := ""
  stderr : String := ""
  gathered : List String := []
  /-- What has not been read of the input. -/
  input : String := ""
  /-- The input comes from a file. -/
  fromFile : Bool := false
  /-- What has not been read of the inputs with other numbers than zero. -/
  otherInputs : List (Nat × String) := []
  /-- The number of the input that stands in for the first one. -/
  borrowed : Option Nat := none
  sinks : Sinks := [(1, .stdout), (2, .stderr)]
  values : List (String × String) := usualValues
  readonly : List String := []
  exported : List String := []
  functions : List (String × Command) := []
  aliases : Aliases := []
  /-- The name and the arguments of the script or function that runs. -/
  name : String := "sh"
  arguments : List String := []
  /-- The values that the variables of the functions around had before, innermost first. -/
  locals : List (List (String × Option String)) := []
  /-- How many loops are running. -/
  loops : Nat := 0
  options : Options := {}
  /-- Scripts that run when something happens, by the number of the event. -/
  traps : List (Nat × String) := []
  optionPlace : OptionPlace := {}
  /-- The permissions that new files are not given. -/
  mask : Nat := 18
  line : Nat := 1
  status : Nat := 0
  jump : Option Jump := none
  /-- The outcome of the command is looked at by another one. -/
  tested : Bool := false

abbrev Exec := StateM Session

namespace Session

/-! ## Streams -/

def sink (s : Session) (stream : Nat) : Option Sink := s.sinks.lookup stream

def withSink (s : Session) (stream : Nat) (sink : Sink) : Session :=
  { s with sinks := (stream, sink) :: s.sinks.filter (·.1 ≠ stream) }

def send (s : Session) (text : String) : Sink → Session
  | .stdout => { s with stdout := s.stdout ++ text }
  | .stderr => { s with stderr := s.stderr ++ text }
  | .gathered index => { s with gathered := s.gathered.modify index (· ++ text) }
  | .nowhere => s
  | .file path =>
    let before := (s.tree.readBytes path).toOption.getD ByteArray.empty
    match s.tree.writeFile path (before ++ text.toUTF8) with
    | .ok tree => { s with tree }
    | .error _ => s

/-- Writes to a stream. -/
def write (s : Session) (stream : Nat) (text : String) : Session :=
  match s.sink stream with
  | some sink => if text = "" then s else s.send text sink
  | none => s

/-- Takes what is left of the input. -/
def takeInput (s : Session) : String × Session := (s.input, { s with input := "" })

/-! ## Paths -/

/-- The path of a name that a command is given. An empty name leads nowhere. -/
def resolve (s : Session) (name : String) : Path :=
  if name = "" then ⟨""⟩ else s.dir.join name

/-! ## Variables -/

def lookup? (s : Session) (name : String) : Option String := s.values.lookup name

def withVariable (s : Session) (name value : String) : Session :=
  { s with values := (name, value) :: s.values.filter (·.1 ≠ name) }

def withoutVariable (s : Session) (name : String) : Session :=
  { s with values := s.values.filter (·.1 ≠ name) }

/-- Gives a variable a value that it had, or takes it away if it had none. -/
def restore (s : Session) : String × Option String → Session
  | (name, some value) => s.withVariable name value
  | (name, none) => s.withoutVariable name

/-- The characters between fields. -/
def separators (s : Session) : String := (s.lookup? "IFS").getD " \t\n"

/-- The value of a parameter that is a name, a number or a special character. -/
def parameter? (s : Session) (name : String) : Option String :=
  match name with
  | "#" => some (toString s.arguments.length)
  | "?" => some (toString s.status)
  | "$" => some "1"
  | "-" => some s.options.text
  | "!" => none
  | "0" => some s.name
  | _ =>
    match name.toNat? with
    | some n => s.arguments[n - 1]?
    | none => s.lookup? name

end Session

namespace Exec

def writeOut (text : String) : Exec Unit := modify (·.write 1 text)

/-- Complains about the line at hand. -/
def complain (text : String) : Exec Unit :=
  modify fun s => s.write 2 (complaint s.name s.line text)

def setStatus (status : Nat) : Exec Unit := modify ({ · with status })

/-- Writes a message of a command, which fails. -/
def warn (status : Nat) (text : String) : Exec Unit :=
  modify fun s => { s.write 2 (text ++ "\n") with status }

/-- Ends the script. -/
def leave (status : Nat) : Exec Unit := modify ({ · with status, jump := some .exit })

/-- Ends the script with a complaint. -/
def abort (text : String) : Exec Unit := do
  complain text
  leave 2

/-- Whether the script goes on with the next command. -/
def goesOn : Exec Bool := return (← get).jump.isNone

/-- Sets a variable, unless it is fixed. -/
def assign (name value : String) : Exec Unit := do
  let s ← get
  if s.readonly.contains name then abort (name ++ ": is read only")
  else
    let s := s.withVariable name value
    let exported := if s.options.exportAll then name :: s.exported else s.exported
    let optionPlace : OptionPlace :=
      if name = "OPTIND" then { index := value.toNat?.getD 1 } else s.optionPlace
    set { s with exported, optionPlace }

end Exec

/-! ## Gathered output -/

/-- Gathers the output of something. -/
def gather (action : Exec Unit) : Exec String := do
  let before ← get
  let index := before.gathered.length
  set { before.withSink 1 (.gathered index) with gathered := before.gathered ++ [""] }
  action
  let s ← get
  set { s with gathered := s.gathered.take index, sinks := before.sinks }
  return s.gathered[index]?.getD ""

/-! ## Failures -/

/-- The reason in a message of a command. -/
def reason : AccessError → String
  | .notFound => "No such file or directory"
  | .notDirectory => "Not a directory"
  | .isDirectory => "Is a directory"
  | .alreadyExists => "File exists"
  | .notText => "Invalid or incomplete multibyte or wide character"

end SchemaCompiler.Shell

import SchemaCompiler.Shell.Builtin.Variable

/-!
# Settings

Commands that change how a shell goes about things: its options, its aliases, and what it does at
events.
-/

namespace SchemaCompiler.Shell.Builtin

open Exec

/-! ## Options -/

def setArguments (arguments : List String) : Exec Unit :=
  modify ({ · with arguments, optionPlace := {}, status := 0 })

def isOptionLetter (letter : Char) : Bool := Options.names.any (·.2 = some letter)

def setOption (on : Bool) (letter : Char) : Exec Unit := do
  if isOptionLetter letter then modify fun s => { s with options := s.options.set on letter }
  else abort ("set: Illegal option -" ++ String.ofList [letter])

/-- Sets an option by its name. -/
def setNamed (on : Bool) (name : String) : Exec Unit := do
  match Options.names.lookup name with
  | some (some letter) => setOption on letter
  | some none => return
  | none => abort ("set: Illegal option " ++ (if on then "-o " else "+o ") ++ name)

/-- Lists the options, for a reader or as the commands that would set them. -/
def listOptions (forReader : Bool) : Exec Unit := do
  let options := (← get).options
  if forReader then writeOut "Current option settings\n"
  Options.names.forM fun (name, letter) => do
    let on := letter.any options.has
    if forReader then
      let gap := String.ofList (List.replicate (16 - name.length) ' ')
      writeOut (name ++ gap ++ (if on then "on" else "off") ++ "\n")
    else writeOut ("set " ++ (if on then "-o " else "+o ") ++ name ++ "\n")

/-- Sets options by their letters, and gives back what is left of the words behind them. -/
def setLetters (on : Bool) : List Char → List String → Exec (List String)
  | [], rest => return rest
  | 'o' :: letters, [] => do
    listOptions on
    setLetters on letters []
  | 'o' :: letters, name :: rest => do
    setNamed on name
    if ← goesOn then setLetters on letters rest else return rest
  | letter :: letters, rest => do
    setOption on letter
    if ← goesOn then setLetters on letters rest else return rest

def setFrom : Nat → List String → Exec Unit
  | 0, _ => return
  | _, [] => return
  | _, "--" :: arguments => setArguments arguments
  | _, "-" :: arguments => do
    modify fun s => { s with options := (s.options.set false 'x').set false 'v' }
    if !arguments.isEmpty then setArguments arguments
  | fuel + 1, word :: rest =>
    match word.toList with
    | '-' :: letters => do
      let rest ← setLetters true letters rest
      if ← goesOn then setFrom fuel rest
    | '+' :: letters => do
      let rest ← setLetters false letters rest
      if ← goesOn then setFrom fuel rest
    | _ => setArguments (word :: rest)

def set' (words : List String) : Exec Unit := do
  setStatus 0
  setFrom words.length words

/-- The permissions that new files are not given, in base eight. -/
def maskText (mask : Nat) : String :=
  "0" ++ String.ofList ([mask / 64 % 8, mask / 8 % 8, mask % 8].map Nat.digitChar)

/-- The permissions that new files are given to their owner, a group and others. -/
def grantedText (mask : Nat) : String :=
  ",".intercalate ([('u', mask / 64), ('g', mask / 8), ('o', mask)].map fun (who, bits) =>
    let kept := [('r', 4), ('w', 2), ('x', 1)].filter fun (_, bit) => bits / bit % 2 = 0
    String.ofList (who :: '=' :: kept.map (·.1)))

def umask (words : List String) : Exec Unit := do
  match words with
  | [] => writeOut (maskText (← get).mask ++ "\n")
  | "-S" :: _ => writeOut (grantedText (← get).mask ++ "\n")
  | word :: _ =>
    if word.toList.head?.any Char.isDigit then
      if word.toList.all fun c => '0' ≤ c && c ≤ '7' then
        let mask := word.toList.foldl (fun n c => n * 8 + (c.toNat - '0'.toNat)) 0
        modify ({ · with mask := mask % 512 })
      else return ← refuse ("umask: Illegal number: " ++ word)
  setStatus 0

/-! ## Options of scripts -/

/-- Whether an option takes a value; none if it is no option. -/
def takesValue? (letter : Char) : List Char → Option Bool
  | [] => none
  | c :: ':' :: rest => if c = letter then some true else takesValue? letter rest
  | c :: rest => if c = letter then some false else takesValue? letter rest

/-- What has been found in words that may be options. -/
structure FoundOption where
  letter : Char := '?'
  value : Option String := none
  complaint : Option String := none
  place : OptionPlace
  ended : Bool := false

/-- An option by its letter; `rest` stands behind the letter in its word. -/
def optionOf (options : List Char) (words : List String) (letter : Char) (rest : List Char)
    (place : OptionPlace) : FoundOption :=
  let quiet := options.head? = some ':'
  let name := String.ofList [letter]
  let behind : OptionPlace := { index := place.index }
  match takesValue? letter options with
  | none =>
    if quiet then { value := some name, place }
    else { complaint := some ("Illegal option -" ++ name), place }
  | some false => { letter, value := some "", place }
  | some true =>
    if !rest.isEmpty then { letter, value := some (String.ofList rest), place := behind }
    else
      match words[place.index - 1]? with
      | some value => { letter, value := some value, place := { index := place.index + 1 } }
      | none =>
        if quiet then { letter := ':', value := some name, place := behind }
        else { complaint := some ("No arg for -" ++ name ++ " option"), place := behind }

/-- The next option in some words. -/
def nextOption (options : List Char) (words : List String) (place : OptionPlace) : FoundOption :=
  let before := (words[place.index - 2]?.getD "").toList
  let inWord := match place.offset with
    | some n => if place.index ≤ 1 then [] else before.drop n
    | none => []
  match inWord with
  | letter :: rest =>
    optionOf options words letter rest ⟨place.index, some (before.length - rest.length)⟩
  | [] =>
    match (words[place.index - 1]?.getD "").toList with
    | ['-', '-'] => { place := { index := place.index + 1 }, ended := true }
    | '-' :: letter :: rest =>
      optionOf options words letter rest ⟨place.index + 1, some 2⟩
    | _ => { place := { index := place.index }, ended := true }

/-- Takes the next option out of the arguments or the words that are given. -/
def getOption : List String → Exec Unit
  | options :: name :: given => do
    let s ← get
    let words := if given.isEmpty then s.arguments else given
    let place : OptionPlace := if s.optionPlace.index > words.length + 1 then {} else s.optionPlace
    let found := nextOption options.toList words place
    if let some text := found.complaint then modify (·.write 2 (text ++ "\n"))
    match found.value with
    | some value => assign "OPTARG" value
    | none => if !found.ended then modify (·.withoutVariable "OPTARG")
    assign "OPTIND" (toString found.place.index)
    assign name (String.ofList [found.letter])
    modify ({ · with optionPlace := found.place, status := if found.ended then 1 else 0 })
  | _ => refuse "getopts: Usage: getopts optstring var [arg...]"

/-! ## Events -/

/-- The events that a script can run at, by their numbers. -/
def events : List String :=
  ["EXIT", "HUP", "INT", "QUIT", "ILL", "TRAP", "ABRT", "BUS", "FPE", "KILL", "USR1", "SEGV", "USR2",
   "PIPE", "ALRM", "TERM", "STKFLT", "CHLD", "CONT", "STOP", "TSTP", "TTIN", "TTOU", "URG", "XCPU",
   "XFSZ", "VTALRM", "PROF", "WINCH", "IO", "PWR", "SYS"]

/-- The number of an event that is named in some way. -/
def eventOf? (name : String) : Option Nat :=
  match name.toNat? with
  | some n => if n < 65 then some n else none
  | none => events.idxOf? name.toUpper

def eventName (n : Nat) : String := events[n]?.getD (toString n)

def listTraps : Exec Unit := do
  let traps := (← get).traps.mergeSort fun a b => a.1 ≤ b.1
  traps.forM fun (n, script) =>
    writeOut ("trap -- " ++ Shell.listed script ++ " " ++ eventName n ++ "\n")

/-- Keeps a script for events, or forgets what is kept for them. -/
def keepFor (script : Option String) : List String → Exec Unit
  | [] => setStatus 0
  | name :: rest => do
    match eventOf? name with
    | none => warn 1 ("trap: " ++ name ++ ": bad trap")
    | some n =>
      modify fun s =>
        let others := s.traps.filter (·.1 ≠ n)
        { s with traps := (script.map fun text => (n, text)).toList ++ others }
      keepFor script rest

/-- Keeps a script for events. An event alone is no longer looked at. -/
def trap (words : List String) : Exec Unit := do
  match if words.head? = some "--" then words.tail else words with
  | [] => do
    listTraps
    setStatus 0
  | [event] => keepFor none [event]
  | "-" :: names => keepFor none names
  | script :: names => keepFor (some script) names

/-! ## Aliases -/

/-- A command about words that do not all stand for something; a word that does not is missing. -/
def forAliases (command : String) (words : List String) (f : String → Exec Bool) : Exec Unit := do
  setStatus 0
  words.forM fun word => do
    if !(← f word) then warn 1 (command ++ ": " ++ word ++ " not found")

/-- Introduces an alias, or lists one. -/
def introduce (word : String) : Exec Bool := do
  let chars := word.toList
  let name := String.ofList (chars.take 1 ++ (chars.drop 1).takeWhile (· ≠ '='))
  let aliases := (← get).aliases
  if name.length < word.length then
    let text := String.ofList (chars.drop (name.length + 1))
    modify ({ · with aliases := aliases.set name text })
    return true
  match aliases.lookup name with
  | some text =>
    writeOut (Aliases.line (name, text))
    return true
  | none => return false

def alias' (words : List String) : Exec Unit := do
  if words.isEmpty then writeOut (String.join ((← get).aliases.listed.map Aliases.line))
  forAliases "alias" words introduce

/-- Takes an alias away. -/
def forgetAlias (name : String) : Exec Bool := do
  let s ← get
  set { s with aliases := s.aliases.remove name }
  return (s.aliases.lookup name).isSome

def unalias : List String → Exec Unit
  | [] => setStatus 0
  | word :: words => do
    match word.toList with
    | ['-'] => forAliases "unalias" (word :: words) forgetAlias
    | ['-', '-'] => forAliases "unalias" words forgetAlias
    | '-' :: 'a' :: _ => modify ({ · with aliases := [], status := 0 })
    | '-' :: letter :: _ => refuse ("unalias: Illegal option -" ++ String.ofList [letter])
    | _ => forAliases "unalias" (word :: words) forgetAlias

end SchemaCompiler.Shell.Builtin

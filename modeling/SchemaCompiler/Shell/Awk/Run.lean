import SchemaCompiler.Shell.Awk.Parser
import SchemaCompiler.Shell.Awk.State

/-!
# Running programs for records

Every step of a run takes fuel, so that a program without an end ends all the same.
-/

namespace SchemaCompiler.Shell.Awk

/-! ## Functions -/

/-- The part of a text from a place on, which is counted from one. -/
def substring (text : String) (start : Float) (length : Option Float) : String :=
  let cs := text.toList
  let first := integerOf (start + 0.5).floor
  let behind : Int := match length with
    | some n => if n.isNaN then first else integerOf (start + n + 0.5).floor
    | none => cs.length + 1
  let low := max first 1
  String.ofList ((cs.drop (low - 1).toNat).take (behind - low).toNat)

/-- The place of a text in another one, counted from one; zero if it is not there. -/
def placeOf (part : List Char) : List Char → Nat → Nat
  | [], place => if part.isEmpty then place else 0
  | c :: cs, place => if part.isPrefixOf (c :: cs) then place else placeOf part cs (place + 1)

/-- What a replacement makes of a match: `&` stands for the match. -/
def replacementText (found : String) : List Char → List Char
  | '\\' :: '&' :: rest => '&' :: replacementText found rest
  | '\\' :: '\\' :: rest => '\\' :: replacementText found rest
  | '&' :: rest => found.toList ++ replacementText found rest
  | c :: rest => c :: replacementText found rest
  | [] => []

/-- Puts a replacement in the place of the first match or of all; the number of them comes first. -/
def replaceIn (every : Bool) (replacement : List Char) :
    List (Char ⊕ Regex.Found) → Nat × List Char
  | [] => (0, [])
  | .inl c :: rest =>
    let (n, cs) := replaceIn every replacement rest
    (n, c :: cs)
  | .inr found :: rest =>
    let (n, cs) := if every then replaceIn every replacement rest else (0, rest.flatMap charsOf)
    (n + 1, replacementText found.text replacement ++ cs)
where
  charsOf : Char ⊕ Regex.Found → List Char
    | .inl c => [c]
    | .inr found => found.text.toList

/-- The place and the length of the first match. -/
def firstMatch (r : Regex) (text : String) : Option (Nat × Nat) :=
  let pieces := r.pieces false text
  let before := pieces.takeWhile (·.isLeft)
  match pieces.drop before.length with
  | .inr found :: _ => some (before.length + 1, found.text.length)
  | _ => none

/-- The functions of one number. -/
def numeric? : String → Option (Float → Float)
  | "int" => some truncated
  | "sqrt" => some Float.sqrt
  | "exp" => some Float.exp
  | "log" => some Float.log
  | "sin" => some Float.sin
  | "cos" => some Float.cos
  | _ => none

/-- The functions of values that need no more than them. -/
def simpleCall (function : String) (arguments : List Value) : Value :=
  let texts := arguments.map (·.toText)
  let text := texts.head?.getD ""
  match function, arguments with
  | "length", _ => .number text.utf8ByteSize.toFloat
  | "substr", _ :: start :: rest =>
    .text (substring text start.toNumber (rest.head?.map (·.toNumber)))
  | "index", _ => .number (placeOf (texts[1]?.getD "").toList text.toList 1).toFloat
  | "toupper", _ => .text text.toUpper
  | "tolower", _ => .text text.toLower
  | "atan2", y :: x :: _ => .number (Float.atan2 y.toNumber x.toNumber)
  | _, v :: _ =>
    match numeric? function with
    | some f => .number (f v.toNumber)
    | none => .unset
  | _, [] => .unset

/-! ## Expressions and statements -/

def jumping : Run Bool := return (← get).jump.isSome

/-- Ends the program because a format lacks values. -/
def lackValues (function format : String) : Run Unit :=
  modify fun s =>
    let place := "\tFILENAME=\"" ++ s.setting "FILENAME" "" ++ "\" FNR=" ++ s.setting "FNR" "0" ++
      " NR=" ++ s.setting "NR" "0"
    s.stop ("run time error: not enough arguments passed to " ++ function ++ "(\"" ++ format ++
      "\")\n" ++ place)

/-- What is given for a parameter: a value, and the items of an array if a variable is named. -/
structure Given where
  value : Value := .unset
  array : Option String := none
  items : List (String × Value) := []

/-- Gives the parameters of a function what is given for them. -/
def bindParameters (s : State) (pairs : List (String × Given)) : State :=
  pairs.foldl (fun s (name, g) => (s.withVariable name g.value).withArray name g.items) s

/-- Gives a name the value and the items again that it had before. -/
def restored (before s : State) (name : String) : State :=
  (s.withVariable name (before.lookup name)).withArray name (before.array name)

/-- The state behind a call: parameters are what they were before, and arrays that were handed over
are what the function has made of them. -/
def afterCall (before after : State) (pairs : List (String × Given)) : State :=
  let s := (pairs.map (·.1)).foldl (restored before) after
  pairs.foldl (fun s (name, g) =>
    match g.array with
    | some array =>
      if (after.array name).isEmpty && g.items.isEmpty then s
      else s.withArray array (after.array name)
    | none => s) s

/-- Whether a loop has been left, behind a round of it. -/
def leavesLoop : Run Bool := do
  match (← get).jump with
  | some .break =>
    modify ({ · with jump := none })
    return true
  | some .continue =>
    modify ({ · with jump := none })
    return false
  | some _ => return true
  | none => return false

mutual

def texts : Nat → List Expr → Run (List String)
  | 0, _ => return []
  | fuel + 1, es => do
    let vs ← values fuel es
    return vs.map (·.toText)

def values : Nat → List Expr → Run (List Value)
  | 0, _ => return []
  | _, [] => return []
  | fuel + 1, e :: rest => do
    let v ← eval fuel e
    return v :: (← values fuel rest)

/-- The key that some expressions give. -/
def keyOf : Nat → List Expr → Run String
  | 0, _ => return ""
  | fuel + 1, es => do
    let parts ← texts fuel es
    return ((← get).setting "SUBSEP" "\x1c").intercalate parts

/-- The regular expression that an operand stands for. -/
def regexOf : Nat → Expr → Run Regex
  | 0, _ => return .empty
  | _, .regex r => return r
  | fuel + 1, e => return Regex.parse .extended ((← eval fuel e).toText)

def valueOf : Nat → Target → Run Value
  | 0, _ => return .unset
  | _, .variable name => return (← get).lookup name
  | fuel + 1, .field index => do
    let i ← eval fuel index
    return (← get).field (integerOf i.toNumber).toNat
  | fuel + 1, .item array key => do
    let k ← keyOf fuel key
    let s ← get
    let v := ((s.array array).lookup k).getD .unset
    set (s.withItem array k v)
    return v

def store : Nat → Target → Value → Run Unit
  | 0, _, _ => return
  | _, .variable name, v => modify (·.assign name v)
  | fuel + 1, .field index, v => do
    let i ← eval fuel index
    modify (·.withField (integerOf i.toNumber).toNat (v.toText))
  | fuel + 1, .item array key, v => do
    let k ← keyOf fuel key
    modify (·.withItem array k v)

/-- A call of a function that looks at more than the values of its arguments. -/
def call : Nat → String → List Expr → Run Value
  | 0, _, _ => return .unset
  | fuel + 1, function, arguments => do
    match function, arguments with
    | "length", [] => return .number (← get).record.utf8ByteSize.toFloat
    | "length", [.target (.variable name)] =>
      let s ← get
      if s.arrays.any (·.1 = name) then return .number (s.array name).length.toFloat
      return simpleCall "length" [s.lookup name]
    | "split", e :: .target (.variable array) :: rest =>
      let text := (← eval fuel e).toText
      let parts ← match rest with
        | [] => pure (State.splitBy ((← get).setting "FS" " ") text)
        | .regex r :: _ => pure (if text = "" then [] else State.piecesBetween r text)
        | separator :: _ =>
          pure (State.splitBy ((← eval fuel separator).toText) text)
      let found := parts.zipIdx.map fun (part, i) => (toString (i + 1), Value.input part)
      modify (·.withArray array found)
      return .number parts.length.toFloat
    | "match", [e, pattern] =>
      let text := (← eval fuel e).toText
      let found := firstMatch (← regexOf fuel pattern) text
      let (place, length) : Float × Float := match found with
        | some (start, n) => (start.toFloat, n.toFloat)
        | none => (0, -1)
      modify fun s =>
        (s.withVariable "RSTART" (.number place)).withVariable "RLENGTH" (.number length)
      return .number place
    | "sub", pattern :: replacement :: rest => substitute fuel false pattern replacement rest
    | "gsub", pattern :: replacement :: rest => substitute fuel true pattern replacement rest
    | "close", [e] =>
      let title := (← eval fuel e).toText
      let s ← get
      set (s.close title)
      return .number (if s.isOpen title then 0 else -1)
    | "system", [e] =>
      let command := (← eval fuel e).toText
      let (status, s) := (← get).runCommand command
      set s
      return .number status.toFloat
    | "fflush", _ =>
      modify (·.flush)
      return .number 0
    | "sprintf", _ =>
      match ← values fuel arguments with
      | [] => return .text ""
      | first :: rest =>
        let found := format first.toText rest
        if !found.complete then lackValues "sprintf" first.toText
        return .text found.text
    | _, _ =>
      match (← get).functions.find? (·.name = function) with
      | some f => invoke fuel f arguments
      | none => return simpleCall function (← values fuel arguments)

/-- What arguments give for parameters. -/
def given : Nat → List Expr → Run (List Given)
  | 0, _ => return []
  | _, [] => return []
  | fuel + 1, .target (.variable name) :: rest => do
    let s ← get
    let first : Given := { value := s.lookup name, array := some name, items := s.array name }
    return first :: (← given fuel rest)
  | fuel + 1, e :: rest => do
    let v ← eval fuel e
    return { value := v } :: (← given fuel rest)

/-- Runs a function of the program. -/
def invoke : Nat → Function → List Expr → Run Value
  | 0, _, _ => return .unset
  | fuel + 1, f, arguments => do
    let found ← given fuel arguments
    let missing := List.replicate (f.parameters.length - found.length) {}
    let pairs := f.parameters.zip (found ++ missing)
    let before ← get
    set (bindParameters { before with result := .unset } pairs)
    runAll fuel f.body
    let after ← get
    let jump := if after.jump = some .return then none else after.jump
    set (afterCall before { after with jump, result := .unset } pairs)
    return after.result

/-- Replaces matches in a target, which is the record if none is named. -/
def substitute : Nat → Bool → Expr → Expr → List Expr → Run Value
  | 0, _, _, _, _ => return .unset
  | fuel + 1, every, pattern, replacement, rest => do
    let r ← regexOf fuel pattern
    let new := (← eval fuel replacement).toText
    let t := match rest with
      | .target t :: _ => t
      | _ => .field (.number 0)
    let text := (← valueOf fuel t).toText
    let (n, cs) := replaceIn every new.toList (r.pieces false text)
    if n > 0 then store fuel t (.text (String.ofList cs))
    return .number n.toFloat

/-- Reads a line into a target, and tells whether there was one. -/
def readLine : Nat → Option Target → LineSource → Run Value
  | 0, _, _ => return .number 0
  | fuel + 1, into, source => do
    let found : Except AccessError (Option String) ← match source with
      | .records =>
        let (line, s) := (← get).takeLine
        set s
        pure (.ok line)
      | .command e =>
        let command := (← eval fuel e).toText
        let (line, s) := (← get).takeOutputOf command
        set s
        pure (.ok line)
      | .file e =>
        let name := (← eval fuel e).toText
        match (← get).takeLineOf name with
        | .ok (line, s) => do set s; pure (.ok line)
        | .error e => pure (.error e)
    match found, into with
    | .error _, _ => return .number (-1)
    | .ok none, _ => return .number 0
    | .ok (some line), some t =>
      store fuel t (.input line)
      return .number 1
    | .ok (some line), none =>
      modify (·.withRecord line)
      return .number 1

def eval : Nat → Expr → Run Value
  | 0, _ => return .unset
  | fuel + 1, e => do
    match e with
    | .number x => return .number x
    | .text s => return .text s
    | .regex r => return .ofBool (r.isIn false (← get).record)
    | .target t => valueOf fuel t
    | .group (only :: _) => eval fuel only
    | .group [] => return .unset
    | .unary "!" operand => return .ofBool !(← eval fuel operand).isTrue
    | .unary "-" operand => return .number (-(← eval fuel operand).toNumber)
    | .unary _ operand => return .number (← eval fuel operand).toNumber
    | .binary operator left right => operation fuel operator left right
    | .contained key array =>
      let k ← keyOf fuel key
      return .ofBool (((← get).array array).any (·.1 = k))
    | .conditional test whenTrue whenFalse =>
      if (← eval fuel test).isTrue then eval fuel whenTrue else eval fuel whenFalse
    | .assign t operator value =>
      let v ← eval fuel value
      let v ← match operator with
        | none => pure v
        | some o => pure (.number (calculate o (← valueOf fuel t).toNumber v.toNumber))
      store fuel t v
      return v
    | .count t step before =>
      let x := (← valueOf fuel t).toNumber
      store fuel t (.number (x + step))
      return .number (if before then x else x + step)
    | .call function arguments => call fuel function arguments
    | .getline into source => readLine fuel into source

/-- The value of an operation. Of `&&` and `||` only what is needed is looked at. -/
def operation : Nat → String → Expr → Expr → Run Value
  | 0, _, _, _ => return .unset
  | fuel + 1, operator, left, right => do
    let a ← eval fuel left
    match operator with
    | "&&" => if a.isTrue then return .ofBool (← eval fuel right).isTrue else return .ofBool false
    | "||" => if a.isTrue then return .ofBool true else return .ofBool (← eval fuel right).isTrue
    | "~" => return .ofBool ((← regexOf fuel right).isIn false (a.toText))
    | "!~" => return .ofBool !((← regexOf fuel right).isIn false (a.toText))
    | _ =>
      let b ← eval fuel right
      if operator = "" then return .text (a.toText ++ b.toText)
      if ["<", "<=", "==", "!=", ">", ">="].contains operator then
        return .ofBool
          (compareBy operator a b (a.toText) (b.toText))
      return .number (calculate operator a.toNumber b.toNumber)

/-- Where the output of a statement goes. -/
def sinkOf : Nat → Option Redirect → Run (Option (OutputMode × String))
  | 0, _ => return none
  | _, none => return none
  | fuel + 1, some r => return some (r.mode, (← eval fuel r.target).toText)

def print : Nat → List Expr → Option Redirect → Run Unit
  | 0, _, _ => return
  | fuel + 1, items, redirect => do
    let found ← texts fuel items
    let sink ← sinkOf fuel redirect
    if ← jumping then return
    let s ← get
    let line := if items.isEmpty then s.record else (s.setting "OFS" " ").intercalate found
    set (s.write (line ++ s.setting "ORS" "\n") sink)

def printf : Nat → List Expr → Option Redirect → Run Unit
  | 0, _, _ => return
  | fuel + 1, items, redirect => do
    match ← values fuel items with
    | [] => return
    | first :: rest =>
      let sink ← sinkOf fuel redirect
      if ← jumping then return
      let found := format first.toText rest
      modify (·.write found.text sink)
      if !found.complete then lackValues "printf" first.toText

def runAll : Nat → List Statement → Run Unit
  | 0, _ => return
  | _, [] => return
  | fuel + 1, first :: rest => do
    run fuel first
    if !(← jumping) then runAll fuel rest

/-- Rounds of a loop, whose test and step may be missing. -/
def rounds : Nat → Option Expr → Option Statement → Statement → Run Unit
  | 0, _, _, _ => return
  | fuel + 1, test, step, body => do
    let goesOn ← match test with
      | some e => pure (← eval fuel e).isTrue
      | none => pure true
    if goesOn then
      run fuel body
      if !(← leavesLoop) then
        if let some s := step then run fuel s
        rounds fuel test step body

def visit : Nat → String → List String → Statement → Run Unit
  | 0, _, _, _ => return
  | _, _, [], _ => return
  | fuel + 1, name, key :: rest, body => do
    modify (·.assign name (.input key))
    run fuel body
    if !(← leavesLoop) then visit fuel name rest body

def run : Nat → Statement → Run Unit
  | 0, _ => return
  | fuel + 1, s => do
    match s with
    | .expr e => let _ ← eval fuel e
    | .print items redirect => print fuel items redirect
    | .printf items redirect => printf fuel items redirect
    | .block body => runAll fuel body
    | .branch test whenTrue whenFalse =>
      if (← eval fuel test).isTrue then run fuel whenTrue
      else if let some other := whenFalse then run fuel other
    | .while test body => rounds fuel (some test) none body
    | .doWhile body test =>
      run fuel body
      if !(← leavesLoop) then rounds fuel (some test) none body
    | .for start test step body =>
      if let some first := start then run fuel first
      rounds fuel test step body
    | .each name array body => visit fuel name ((← get).keys array) body
    | .delete array none => modify (·.withArray array [])
    | .delete array (some key) =>
      let k ← keyOf fuel key
      modify fun s => s.withArray array ((s.array array).filter (·.1 ≠ k))
    | .next => modify ({ · with jump := some .next })
    | .break => modify ({ · with jump := some .break })
    | .continue => modify ({ · with jump := some .continue })
    | .exit status =>
      if let some e := status then
        let v ← eval fuel e
        modify ({ · with status := (integerOf v.toNumber % 256).toNat })
      modify ({ · with jump := some .exit })
    | .return value =>
      let v ← match value with
        | some e => eval fuel e
        | none => pure .unset
      if ← jumping then return
      modify ({ · with result := v, jump := some .return })

end

/-! ## Programs -/

def maxSteps : Nat := Nat.pow 2 16

/-- Whether a rule with a number selects the record at hand. -/
def Rule.selects (r : Rule) (index : Nat) : Run Bool := do
  match r.pattern with
  | .start => return false
  | .finish => return false
  | .always => return true
  | .when test => return (← eval maxSteps test).isTrue
  | .range first last =>
    let opened := (← get).opened.contains index
    if ← pure opened <||> (do pure (← eval maxSteps first).isTrue) then
      let ends := (← eval maxSteps last).isTrue
      modify fun s =>
        let others := s.opened.filter (· ≠ index)
        { s with opened := if ends then others else index :: others }
      return true
    return false

/-- Runs the rules on the record at hand; `index` is the number of the first of them. -/
def runRules (index : Nat) : List Rule → Run Unit
  | [] => return
  | r :: rest => do
    if ← r.selects index then runAll maxSteps r.action
    if !(← jumping) then runRules (index + 1) rest

/-- Runs the rules on all records that are left. -/
def runRecords (rules : List Rule) : Nat → Run Unit
  | 0 => return
  | fuel + 1 => do
    match (← get).takeLine with
    | (none, s) => set s
    | (some line, s) =>
      set (s.withRecord line)
      runRules 0 rules
      if (← get).jump = some .next then modify ({ · with jump := none })
      if !(← jumping) then runRecords rules fuel

/-- The statements of all rules with a pattern that stands for no record. -/
def actionsOf (isWanted : RulePattern → Bool) (rules : List Rule) : List Statement :=
  (rules.filter (isWanted ·.pattern)).flatMap (·.action)

def isStart : RulePattern → Bool
  | .start => true
  | _ => false

def isFinish : RulePattern → Bool
  | .finish => true
  | _ => false

/-- Runs rules. The records are read unless all of them come before the first one. -/
def runAllRules (rules : List Rule) : Run Unit := do
  runAll maxSteps (actionsOf isStart rules)
  if rules.any (!isStart ·.pattern) then
    if !(← jumping) then runRecords rules maxSteps
    if (← get).jump ≠ some .abort then
      modify ({ · with jump := none })
      runAll maxSteps (actionsOf isFinish rules)

/-- Runs a program, and then the commands that it has written to. -/
def runProgram (program : Program) : Run Unit := do
  modify ({ · with functions := program.functions })
  runAllRules program.rules
  modify fun s => s.runPipes.flush

end SchemaCompiler.Shell.Awk

/-! ## Running programs on the records of files -/

namespace SchemaCompiler.Shell.Utility

open Exec

/-- What a command line asks for. -/
structure RecordJob where
  /-- Variables and their values, in order. -/
  settings : List (String × String) := []
  /-- Files that hold the program. -/
  sources : List String := []
  operands : List String := []

/-- A text from a command line, in which escapes mean what they mean in a program. -/
def unescaped (text : String) : String := String.ofList (Awk.unescaped text.toList)

/-- Takes the value of an option that stands in the same word or in the next one. -/
def optionValue (attached : String) (rest : List String) : Option (String × List String) :=
  if attached ≠ "" then some (attached, rest)
  else
    match rest with
    | [] => none
    | value :: rest => some (value, rest)

/-- Reads options up to the first operand, or tells what is wrong. -/
def recordJob : Nat → RecordJob → List String → Except String RecordJob
  | 0, job, words => .ok { job with operands := words }
  | _, job, [] => .ok job
  | fuel + 1, job, w :: rest =>
    if w = "--" then .ok { job with operands := rest }
    else if !w.startsWith "-" || w = "-" then .ok { job with operands := w :: rest }
    else
      let letter := (w.drop 1).take 1 |>.toString
      match optionValue (w.drop 2).toString rest with
      | none =>
        if ["F", "v", "f"].contains letter then .error ("option -" ++ letter ++ " lacks argument")
        else .error ("not an option: " ++ w)
      | some (value, behind) =>
        match letter with
        | "F" =>
          recordJob fuel { job with settings := job.settings ++ [("FS", unescaped value)] } behind
        | "f" => recordJob fuel { job with sources := job.sources ++ [value] } behind
        | "v" =>
          match Awk.State.assignment? value with
          | some (name, text) =>
            recordJob fuel { job with settings := job.settings ++ [(name, unescaped text)] } behind
          | none => .error ("improper assignment: -v " ++ value)
        | _ => .error ("not an option: " ++ w)

/-- The text of the program, and the operands behind it. -/
def programOf (job : RecordJob) : Exec (Option (String × List String)) := do
  match job.sources, job.operands with
  | [], program :: operands => return some (program, operands)
  | [], [] => return none
  | sources, operands =>
    let texts ← sources.mapM fun file => do
      match ← readFile file with
      | .ok text => return text
      | .error e =>
        warn 2 ("awk: cannot open \"" ++ file ++ "\" (" ++ reason e ++ ")")
        return ""
    return some ("\n".intercalate texts, operands)

/-- The arrays that a program starts with: its words, and what it is run with. -/
def startArrays (s : Session) (operands : List String) : List (String × List (String × Awk.Value)) :=
  let words := ("awk" :: operands).zipIdx.map fun (word, i) => (toString i, Awk.Value.input word)
  let names := s.exported.eraseDups
  let values := names.filterMap fun name => (s.lookup? name).map fun v => (name, Awk.Value.input v)
  [("ARGV", words), ("ENVIRON", values)]

/-- Runs a program; `shell` runs a command line. -/
def runOnRecords (shell : String → Exec Unit) (words : List String) : Exec Unit := do
  match recordJob words.length {} words with
  | .error problem => warn 2 ("awk: " ++ problem)
  | .ok job =>
    match ← programOf job with
    | none => warn 2 "usage: awk [-F value] [-v var=value] [-f program-file | program] [file ...]"
    | some (text, operands) =>
      if (← get).status = 2 then return
      match Awk.parse text with
      | .error p => warn 2 ("awk: line " ++ toString p.line ++ ": " ++ p.text)
      | .ok program =>
        let s ← get
        let start : Awk.State :=
          { session := s, shell, operands, arrays := startArrays s operands }
        let counted := start.assign "ARGC" (.number (operands.length + 1).toFloat)
        let ready := job.settings.foldl (fun s (name, v) => s.assign name (.input v)) counted
        let (_, final) := (Awk.runProgram program).run ready
        set { final.session with status := final.status }

end SchemaCompiler.Shell.Utility

import SchemaCompiler.Json.Reader
import SchemaCompiler.Text.Quoted

/-!
# Values of a given shape from JSON text

Readers for strings, booleans, lists and records. A fault tells the way to the value that does not
fit. A record is an object with known keys, of which others are passed over, or a list of its fields
in order.
-/

namespace SchemaCompiler.Json

/-- A way as text: `scalars[0].name`, or a single dot for the document itself. -/
def wayText (way : List Step) : String :=
  match way with
  | [] => "."
  | first :: more => stepText "" first ++ String.join (more.map (stepText "."))
where
  stepText (mark : String) : Step → String
    | .key name => mark ++ name
    | .index n => "[" ++ toString n ++ "]"
    | .unknown => mark ++ "?"

/-- A fault with the way to it. -/
def Fault.described (f : Fault) : String :=
  "at JSON path " ++ wayText (f.way.getD []) ++ ": " ++ f.text

namespace Reader

/-! ## Plain values -/

def failType {α : Type} (found expected : String) : Reader α :=
  failHere (.shape ("invalid type: " ++ found ++ ", expected " ++ expected))

def numberText : Json → String
  | .int n => "integer `" ++ toString n ++ "`"
  | .float x => "floating point `" ++ FloatFormat.json.write x ++ "`"
  | _ => ""

/-- Fails because of the value that comes next; lists and objects are not entered. -/
def unexpected {α : Type} (expected : String) : Reader α := do
  match ← peek with
  | some 'n' => do eat; word ['u', 'l', 'l']; failType "null" expected
  | some 't' => do eat; word ['r', 'u', 'e']; failType "boolean `true`" expected
  | some 'f' => do eat; word ['a', 'l', 's', 'e']; failType "boolean `false`" expected
  | some '-' => do
    eat
    let n ← readNumber false
    failType (numberText n) expected
  | some '"' => do
    eat
    let s ← readString
    failType ("string " ++ Text.shown s) expected
  | some '[' => failType "sequence" expected
  | some '\x7b' => failType "map" expected
  | some c =>
    if c.isDigit then do
      let n ← readNumber true
      failType (numberText n) expected
    else failNext .expectedValue
  | none => failNext .expectedValue

/-- What comes after blanks; there must be something. -/
def someToken : Reader Char := do
  match ← peekToken with
  | some c => pure c
  | none => failNext .eofInValue

def text (way : List Step) : Reader String := standing way do
  if (← someToken) = '"' then do eat; readString else unexpected "a string"

def boolean (way : List Step) : Reader Bool := standing way do
  match ← someToken with
  | 't' => do eat; word ['r', 'u', 'e']; pure true
  | 'f' => do eat; word ['a', 'l', 's', 'e']; pure false
  | _ => unexpected "a boolean"

/-- A value, or none for `null`. -/
def nullable {α : Type} (read : List Step → Reader α) (way : List Step) : Reader (Option α) :=
  standing way do
    match ← peekToken with
    | some 'n' => do eat; word ['u', 'l', 'l']; pure none
    | _ => do
      let a ← standing way (read way)
      pure (some a)

/-! ## Lists -/

def itemsFrom {α : Type} (read : List Step → Reader α) (way : List Step) (index : Nat) :
    Nat → Reader (List α)
  | 0 => pure []
  | fuel + 1 => do
    let here := way ++ [.index index]
    if ← moreItems (index == 0) then
      let a ← standing here (read here)
      let as ← itemsFrom read way (index + 1) fuel
      pure (a :: as)
    else pure []

/-- A list; each item takes at least one character. -/
def list {α : Type} (read : List Step → Reader α) (way : List Step) : Reader (List α) :=
  standing way do
    if (← someToken) = '[' then do
      eat
      closedBy (fun c => itemsFrom read way 0 (c.rest.length + 1) c) endList
    else unexpected "a sequence"

/-! ## Records -/

/-- A field of a record that is gathered in a draft. -/
structure RecordField (δ : Type) where
  key : String
  /-- Whether the record is complete without it. -/
  optional : Bool
  isFilled : δ → Bool
  read : List Step → δ → Reader δ

/-- The shape of a record. -/
structure RecordShape (δ : Type) where
  name : String
  fields : List (RecordField δ)
  empty : δ
  /-- Whether keys beside those of the fields are refused. -/
  closed : Bool := false

namespace RecordShape

variable {δ : Type}

def title (s : RecordShape δ) : String := "struct " ++ s.name

def missing? (s : RecordShape δ) (draft : δ) : Option String :=
  (s.fields.find? fun f => !f.optional && !f.isFilled draft).map (·.key)

/-- The keys, as a message lists them. -/
def keysText (s : RecordShape δ) : String :=
  let keys := s.fields.map fun f => "`" ++ f.key ++ "`"
  match keys with
  | [a] => a
  | [a, b] => a ++ " or " ++ b
  | keys => "one of " ++ ", ".intercalate keys

/-- A key that no field has. -/
def otherKey (s : RecordShape δ) (here : List Step) (key : String) : Reader Unit :=
  if s.closed then
    standing here (failShape ("unknown field `" ++ key ++ "`, expected " ++ s.keysText))
  else do
    colon
    standing here skip

def readFields (s : RecordShape δ) (way : List Step) : Nat → Bool → δ → Reader δ
  | 0, _, draft => pure draft
  | fuel + 1, first, draft => do
    match ← nextKey way first with
    | none =>
      match s.missing? draft with
      | some key => standing way (failShape ("missing field `" ++ key ++ "`"))
      | none => pure draft
    | some key =>
      let here := way ++ [.key key]
      match s.fields.find? (·.key == key) with
      | none => do
        s.otherKey here key
        readFields s way fuel false draft
      | some f =>
        if f.isFilled draft then standing way (failShape ("duplicate field `" ++ key ++ "`"))
        else do
          colon
          let draft ← standing here (f.read here draft)
          readFields s way fuel false draft

/-- Reads fields in order from the items of a list. -/
def readItems (s : RecordShape δ) (way : List Step) :
    Nat → Bool → List (RecordField δ) → δ → Reader δ
  | _, _, [], draft => pure draft
  | index, first, f :: fields, draft => do
    let here := way ++ [.index index]
    if ← moreItems first then
      let draft ← standing here (f.read here draft)
      readItems s way (index + 1) false fields draft
    else if f.optional then readItems s way (index + 1) first fields draft
    else
      standing way (failShape
        ("invalid length " ++ toString index ++ ", expected " ++ s.title ++ " with " ++
          toString s.fields.length ++ " element" ++ if s.fields.length = 1 then "" else "s"))

def read (s : RecordShape δ) (way : List Step) : Reader δ := standing way do
  match ← someToken with
  | '[' => do
    eat
    closedBy (s.readItems way 0 true s.fields s.empty) endList
  | '\x7b' => do
    eat
    closedBy (fun c => s.readFields way (c.rest.length + 1) true s.empty c) endObject
  | _ => unexpected s.title

end RecordShape

end Reader

/-- Reads the value at the start of a text; what follows it is not looked at. -/
def Reader.run {α : Type} (r : Reader α) (text : String) : Except Fault α :=
  match r (Cursor.start text) with
  | .ok a _ => .ok a
  | .fault e _ => .error e

end SchemaCompiler.Json

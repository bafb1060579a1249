import SchemaCompiler.Json.Basic

/-!
# Reading JSON text

A cursor stands before the part of a text that is not read yet and knows its line and the bytes
read on it. A fault names its cause and the place where reading stopped: behind the last byte read,
or, when the offending byte was only looked at, behind that byte.

Reading in full and skipping are two different passes. Skipping does not look into escapes or at
the size of numbers, and it expects a value after every comma of a list.
-/

namespace SchemaCompiler.Json

/-! ## Places and faults -/

structure Place where
  line : Nat
  column : Nat
deriving DecidableEq, Repr, Inhabited

inductive Problem where
  | eofInValue
  | eofInList
  | eofInObject
  | eofInString
  | expectedColon
  | expectedListCommaOrEnd
  | expectedObjectCommaOrEnd
  | expectedIdent
  | expectedValue
  | invalidEscape
  | invalidNumber
  | numberOutOfRange
  | controlCharacter
  | keyMustBeString
  | loneSurrogate
  | trailingComma
  | trailingCharacters
  | unexpectedEndOfHexEscape
  | nestedTooDeeply
  /-- A well-formed document of the wrong shape, in the words of whoever asked for it. -/
  | shape (message : String)
deriving DecidableEq, Repr, Inhabited

def Problem.message : Problem → String
  | eofInValue => "EOF while parsing a value"
  | eofInList => "EOF while parsing a list"
  | eofInObject => "EOF while parsing an object"
  | eofInString => "EOF while parsing a string"
  | expectedColon => "expected `:`"
  | expectedListCommaOrEnd => "expected `,` or `]`"
  | expectedObjectCommaOrEnd => "expected `,` or `\x7d`"
  | expectedIdent => "expected ident"
  | expectedValue => "expected value"
  | invalidEscape => "invalid escape"
  | invalidNumber => "invalid number"
  | numberOutOfRange => "number out of range"
  | controlCharacter => "control character (\\u0000-\\u001F) found while parsing a string"
  | keyMustBeString => "key must be a string"
  | loneSurrogate => "lone leading surrogate in hex escape"
  | trailingComma => "trailing comma"
  | trailingCharacters => "trailing characters"
  | unexpectedEndOfHexEscape => "unexpected end of hex escape"
  | nestedTooDeeply => "recursion limit exceeded"
  | shape message => message

/-- A step from a value to a part of it. -/
inductive Step where
  | key (name : String)
  | index (n : Nat)
  | unknown
deriving DecidableEq, Repr

/-- Why reading stopped. A place or a way that is still `none` is set by an enclosing reader. -/
structure Fault where
  problem : Problem
  place : Option Place
  way : Option (List Step)
deriving Repr

def Fault.text (f : Fault) : String :=
  let place := f.place.getD ⟨0, 0⟩
  f.problem.message ++ " at line " ++ toString place.line ++ " column " ++ toString place.column

/-! ## Cursor -/

structure Cursor where
  rest : List Char
  line : Nat := 1
  column : Nat := 0

namespace Cursor

def start (text : String) : Cursor := { rest := text.toList }

def place (c : Cursor) : Place := ⟨c.line, c.column⟩

def advance (c : Cursor) (head : Char) (tail : List Char) : Cursor :=
  if head = '\n' then ⟨tail, c.line + 1, 0⟩ else ⟨tail, c.line, c.column + head.utf8Size⟩

/-- The cursor behind the next character. -/
def next (c : Cursor) : Cursor :=
  match c.rest with
  | [] => c
  | head :: tail => c.advance head tail

/-- The place behind the next byte. -/
def placeBehind (c : Cursor) : Place :=
  match c.rest with
  | [] => c.place
  | head :: _ => if head = '\n' then ⟨c.line + 1, 0⟩ else ⟨c.line, c.column + 1⟩

/-- The place behind so many bytes, which may end inside a character. -/
def placeBehindBytes (c : Cursor) (count : Nat) : Place :=
  go c.rest count c.line c.column
where
  go : List Char → Nat → Nat → Nat → Place
    | [], _, line, column => ⟨line, column⟩
    | _ :: _, 0, line, column => ⟨line, column⟩
    | head :: tail, count, line, column =>
      if head = '\n' then go tail (count - 1) (line + 1) 0
      else go tail (count - head.utf8Size) line (column + min count head.utf8Size)

def peek? (c : Cursor) : Option Char := c.rest.head?

/-- Passes over the characters that `p` holds of. -/
def skipWhile (p : Char → Bool) (c : Cursor) : Cursor :=
  go c.rest c.line c.column
where
  go : List Char → Nat → Nat → Cursor
    | [], line, column => ⟨[], line, column⟩
    | head :: tail, line, column =>
      if p head then
        if head = '\n' then go tail (line + 1) 0 else go tail line (column + head.utf8Size)
      else ⟨head :: tail, line, column⟩

def skipBlanks (c : Cursor) : Cursor :=
  c.skipWhile fun ch => ch == ' ' || ch == '\n' || ch == '\t' || ch == '\r'

def skipDigits (c : Cursor) : Cursor := c.skipWhile Char.isDigit

end Cursor

/-! ## Outcome of reading -/

/-- Both outcomes carry the cursor: an enclosing reader goes on from where a fault was met. -/
inductive Outcome (α : Type) where
  | ok (value : α) (cursor : Cursor)
  | fault (fault : Fault) (cursor : Cursor)

abbrev Reader (α : Type) := Cursor → Outcome α

namespace Outcome

def bind {α β : Type} : Outcome α → (α → Reader β) → Outcome β
  | ok a c, f => f a c
  | fault e c, _ => fault e c

def map {α β : Type} (f : α → β) : Outcome α → Outcome β
  | ok a c => ok (f a) c
  | fault e c => fault e c

/-- A fault without a place gets the place of the cursor. -/
def located {α : Type} : Outcome α → Outcome α
  | fault ⟨problem, none, way⟩ c => fault ⟨problem, some c.place, way⟩ c
  | o => o

/-- A fault without a way gets this one. -/
def along {α : Type} (way : List Step) : Outcome α → Outcome α
  | fault ⟨problem, place, none⟩ c => fault ⟨problem, place, some way⟩ c
  | o => o

end Outcome

instance : Monad Reader where
  pure a := fun c => .ok a c
  bind r f := fun c => (r c).bind f

namespace Reader

/-- Fails behind the last byte read. -/
def failHere {α : Type} (problem : Problem) : Reader α :=
  fun c => .fault ⟨problem, some c.place, none⟩ c

/-- Fails behind the byte that comes next. -/
def failNext {α : Type} (problem : Problem) : Reader α :=
  fun c => .fault ⟨problem, some c.placeBehind, none⟩ c

/-- Fails at a place that an enclosing reader chooses. -/
def failShape {α : Type} (message : String) : Reader α :=
  fun c => .fault ⟨.shape message, none, none⟩ c

def peek : Reader (Option Char) := fun c => .ok c.peek? c

def eat : Reader Unit := fun c => .ok () c.next

def skipBlanks : Reader Unit := fun c => .ok () c.skipBlanks

/-- What comes after blanks. -/
def peekToken : Reader (Option Char) := do
  skipBlanks
  peek

/-- Reads something that stands at `way` inside the document. -/
def standing {α : Type} (way : List Step) (r : Reader α) : Reader α := fun c => (r c).along way

/-! ## Words -/

def word : List Char → Reader Unit
  | [] => pure ()
  | expected :: more => do
    match ← peek with
    | none => failHere .eofInValue
    | some c => if c = expected then do eat; word more else failNext .expectedIdent

/-! ## Numbers -/

def isExponentMark (c : Option Char) : Bool := c == some 'e' || c == some 'E'

def wordLimit : Nat := Nat.pow 2 64

/-- Takes digits into `significand` while it stays below `2 ^ 64`; the second part counts them. -/
def digitsFrom : List Char → Nat → Nat → Nat × Nat
  | [], significand, count => (significand, count)
  | d :: ds, significand, count =>
    let grown := significand * 10 + (d.toNat - '0'.toNat)
    if grown < wordLimit then digitsFrom ds grown (count + 1) else (significand, count)

def upcomingDigits (c : Cursor) : List Char := c.rest.takeWhile Char.isDigit

def advanceBy (count : Nat) : Reader Unit :=
  fun c => .ok () ⟨c.rest.drop count, c.line, c.column + count⟩

def powersOfTen (n : Nat) : Float := Float.ofScientific 1 false n

/-- Scales by a power of ten in double arithmetic; too large a result is a fault. -/
def scale : Nat → Float → Int → Option Float
  | 0, x, _ => some x
  | fuel + 1, x, exponent =>
    if exponent.natAbs ≤ 308 then
      if exponent ≥ 0 then
        let y := x * powersOfTen exponent.natAbs
        if y.isInf then none else some y
      else some (x / powersOfTen exponent.natAbs)
    else if x == 0.0 then some x
    else if exponent ≥ 0 then none
    else scale fuel (x / 1e308) (exponent + 308)

def assemble (positive : Bool) (significand : Nat) (exponent : Int) : Reader Json :=
  match scale (exponent.natAbs / 308 + 2) (Float.ofNat significand) (max exponent (-4000)) with
  | some x => pure (.float (if positive then x else -x))
  | none => failHere .numberOutOfRange

def exponentLimit : Nat := Nat.pow 2 31

def readExponent (positive : Bool) (significand : Nat) (start : Int) : Reader Json := do
  eat
  let sign ← peek
  let negative := sign == some '-'
  if negative || sign == some '+' then eat
  match ← peek with
  | none => failHere .eofInValue
  | some c => if !c.isDigit then failNext .invalidNumber
  let digits ← fun c => .ok (upcomingDigits c) c
  let size := digits.foldl (fun n d => n * 10 + (d.toNat - '0'.toNat)) 0
  if size < exponentLimit then do
    advanceBy digits.length
    assemble positive significand (if negative then start - size else start + size)
  else if significand ≠ 0 ∧ !negative then do
    let kept := (digits.length - (overlong digits 0)) + 1
    advanceBy kept
    failHere .numberOutOfRange
  else do
    advanceBy digits.length
    pure (.float (if positive then 0.0 else -0.0))
where
  /-- How many digits are left once the exponent has grown past its limit. -/
  overlong : List Char → Nat → Nat
    | [], _ => 1
    | d :: ds, n =>
      let grown := n * 10 + (d.toNat - '0'.toNat)
      if grown < exponentLimit then overlong ds grown else ds.length + 1

def readFraction (positive : Bool) (significand : Nat) (start : Int) : Reader Json := do
  eat
  let digits ← fun c => .ok (upcomingDigits c) c
  if digits.isEmpty then
    match ← peek with
    | some _ => failNext .invalidNumber
    | none => failNext .eofInValue
  else
    let (grown, taken) := digitsFrom digits significand 0
    advanceBy digits.length
    let exponent := start - taken
    if isExponentMark (← peek) then readExponent positive grown exponent
    else assemble positive grown exponent

/-- The rest of a number after its whole part. -/
def readNumberTail (positive : Bool) (significand : Nat) : Reader Json := do
  match ← peek with
  | some '.' => readFraction positive significand 0
  | c =>
    if isExponentMark c then readExponent positive significand 0
    else if positive then pure (.int significand)
    else if significand = 0 then pure (.float (-0.0))
    else if significand ≤ Nat.pow 2 63 then pure (.int (-significand))
    else pure (.float (-(Float.ofNat significand)))

/-- A whole part beyond 64 bits: its further digits only count. -/
def readLongNumber (positive : Bool) (significand extra : Nat) : Reader Json := do
  match ← peek with
  | some '.' => readFraction positive significand extra
  | c =>
    if isExponentMark c then readExponent positive significand extra
    else assemble positive significand extra

def readNumber (positive : Bool) : Reader Json := do
  match ← peek with
  | none => failHere .eofInValue
  | some '0' => do
    eat
    match ← peek with
    | some c => if c.isDigit then failNext .invalidNumber else readNumberTail positive 0
    | none => readNumberTail positive 0
  | some c =>
    if c.isDigit then do
      let digits ← fun c => .ok (upcomingDigits c) c
      let (significand, taken) := digitsFrom digits 0 0
      advanceBy digits.length
      if taken = digits.length then readNumberTail positive significand
      else readLongNumber positive significand (digits.length - taken)
    else failNext .invalidNumber

def skipExponent : Reader Unit := do
  eat
  let sign ← peek
  if sign == some '-' || sign == some '+' then eat
  match ← peek with
  | none => failHere .invalidNumber
  | some c => if c.isDigit then fun k => .ok () k.skipDigits else failNext .invalidNumber

def skipFraction : Reader Unit := do
  eat
  match ← peek with
  | none => failNext .invalidNumber
  | some c => if c.isDigit then fun k => .ok () k.skipDigits else failNext .invalidNumber
  if isExponentMark (← peek) then skipExponent

def skipNumber : Reader Unit := do
  match ← peek with
  | none => failHere .invalidNumber
  | some '0' => do
    eat
    if (← peek).any Char.isDigit then failNext .invalidNumber
  | some c => if c.isDigit then fun k => .ok () k.skipDigits else failNext .invalidNumber
  match ← peek with
  | some '.' => skipFraction
  | c => if isExponentMark c then skipExponent

/-! ## Strings -/

def hexValue? (c : Char) : Option Nat :=
  if c.isDigit then some (c.toNat - '0'.toNat)
  else if 'a' ≤ c ∧ c ≤ 'f' then some (c.toNat - 'a'.toNat + 10)
  else if 'A' ≤ c ∧ c ≤ 'F' then some (c.toNat - 'A'.toNat + 10)
  else none

/-- The number that four characters spell in hexadecimal, if they do. -/
def hexNumber? : List Char → Option Nat
  | [a, b, c, d] =>
    match hexValue? a, hexValue? b, hexValue? c, hexValue? d with
    | some w, some x, some y, some z => some (((w * 16 + x) * 16 + y) * 16 + z)
    | _, _, _, _ => none
  | _ => none

/-- Four bytes that spell a number in hexadecimal. They are taken, whatever they are. -/
def hexQuad : Reader Nat := fun c =>
  match hexNumber? (c.rest.take 4) with
  | some n => .ok n ((c.next).next.next).next
  | none =>
    let bytes := c.rest.foldl (fun n ch => n + ch.utf8Size) 0
    if bytes < 4 then
      let stop := c.skipWhile fun _ => true
      .fault ⟨.eofInString, some stop.place, none⟩ stop
    else .fault ⟨.invalidEscape, some (c.placeBehindBytes 4), none⟩ c

/-- Takes the one character that must come next inside a surrogate pair. -/
def pairMark (expected : Char) : Reader Unit := do
  match ← peek with
  | none => failHere .eofInString
  | some c => if c = expected then eat else failNext .unexpectedEndOfHexEscape

def unicodeEscape : Reader Char := do
  let lead ← hexQuad
  if 0xDC00 ≤ lead ∧ lead ≤ 0xDFFF then failHere .loneSurrogate
  else if lead < 0xD800 ∨ 0xDBFF < lead then pure (Char.ofNat lead)
  else do
    pairMark '\\'
    pairMark 'u'
    let trail ← hexQuad
    if trail < 0xDC00 ∨ 0xDFFF < trail then failHere .loneSurrogate
    else pure (Char.ofNat (0x10000 + (lead - 0xD800) * 0x400 + (trail - 0xDC00)))

/-- The character that stands for an escape of one letter. -/
def shortEscape? : Char → Option Char
  | '"' => some '"'
  | '\\' => some '\\'
  | '/' => some '/'
  | 'b' => some (Char.ofNat 8)
  | 'f' => some (Char.ofNat 12)
  | 'n' => some '\n'
  | 'r' => some '\r'
  | 't' => some '\t'
  | _ => none

def escape : Reader Char := do
  match ← peek with
  | none => failHere .eofInString
  | some 'u' => do eat; unicodeEscape
  | some c =>
    match shortEscape? c with
    | some meant => do eat; pure meant
    | none => failNext .invalidEscape

def skipEscape : Reader Unit := do
  match ← peek with
  | none => failHere .eofInString
  | some 'u' => do eat; let _ ← hexQuad
  | some c => if (shortEscape? c).isSome then eat else failNext .invalidEscape

/-- The rest of a string after its opening quote; `done` is what was read, last character first.
Each round reads at least one character, so a text's length is fuel enough. -/
def stringFrom : Nat → List Char → Reader String
  | 0, _ => failHere .eofInString
  | fuel + 1, done => do
    match ← peek with
    | none => failHere .eofInString
    | some '"' => do eat; pure (String.ofList done.reverse)
    | some '\\' => do
      eat
      let c ← escape
      stringFrom fuel (c :: done)
    | some c =>
      if c.toNat < 0x20 then failNext .controlCharacter
      else do eat; stringFrom fuel (c :: done)

def readString : Reader String := fun c => stringFrom (c.rest.length + 1) [] c

def skipStringFrom : Nat → Reader Unit
  | 0 => failHere .eofInString
  | fuel + 1 => do
    match ← peek with
    | none => failHere .eofInString
    | some '"' => eat
    | some '\\' => do eat; skipEscape; skipStringFrom fuel
    | some c => if c.toNat < 0x20 then failNext .controlCharacter else do eat; skipStringFrom fuel

def skipString : Reader Unit := fun c => skipStringFrom (c.rest.length + 1) c

/-! ## Lists and objects -/

/-- Whether another item follows; `first` tells that none was read yet. -/
def moreItems (first : Bool) : Reader Bool := do
  match ← peekToken with
  | none => failNext .eofInList
  | some ']' => pure false
  | some c =>
    if c = ',' ∧ !first then do
      eat
      match ← peekToken with
      | some ']' => failNext .trailingComma
      | some _ => pure true
      | none => failNext .eofInValue
    else if first then pure true
    else failNext .expectedListCommaOrEnd

def moreFields (first : Bool) : Reader Bool := do
  match ← peekToken with
  | none => failNext .eofInObject
  | some '\x7d' => pure false
  | some c =>
    if c = ',' ∧ !first then do
      eat
      match ← peekToken with
      | some '"' => pure true
      | some '\x7d' => failNext .trailingComma
      | some _ => failNext .keyMustBeString
      | none => failNext .eofInValue
    else if !first then failNext .expectedObjectCommaOrEnd
    else if c = '"' then pure true
    else failNext .keyMustBeString

/-- The next key of an object at `way`, up to its closing quote. -/
def nextKey (way : List Step) (first : Bool) : Reader (Option String) :=
  standing (way ++ [.unknown]) do
    if ← moreFields first then
      eat
      let name ← readString
      pure (some name)
    else pure none

def colon : Reader Unit := do
  match ← peekToken with
  | some ':' => eat
  | some _ => failNext .expectedColon
  | none => failNext .eofInObject

def endList : Reader Unit := do
  match ← peekToken with
  | some ']' => eat
  | some ',' => do
    eat
    if (← peekToken) == some ']' then failNext .trailingComma else failNext .trailingCharacters
  | some _ => failNext .trailingCharacters
  | none => failNext .eofInList

def endObject : Reader Unit := do
  match ← peekToken with
  | some '\x7d' => eat
  | some ',' => failNext .trailingComma
  | some _ => failNext .trailingCharacters
  | none => failNext .eofInObject

/-- Runs a reader and then, whatever it met, the reader of the closing bracket; a fault of the
first reader wins over one of the second, and a fault without a place is placed behind both. -/
def closedBy {α : Type} (body : Reader α) (close : Reader Unit) : Reader α := fun c =>
  match body c with
  | .ok a k =>
    match close k with
    | .ok _ k' => .ok a k'
    | .fault e k' => .fault e k'
  | .fault e k =>
    match close k with
    | .ok _ k' => (Outcome.fault e k').located
    | .fault _ k' => (Outcome.fault e k').located

/-! ## Skipping -/

mutual

/-- Passes over a value without keeping it. -/
def skipValue : Nat → Reader Unit
  | 0 => failNext .nestedTooDeeply
  | fuel + 1 => do
    match ← peekToken with
    | none => failNext .eofInValue
    | some 'n' => do eat; word ['u', 'l', 'l']
    | some 't' => do eat; word ['r', 'u', 'e']
    | some 'f' => do eat; word ['a', 'l', 's', 'e']
    | some '-' => do eat; skipNumber
    | some '"' => do eat; skipString
    | some '[' => do eat; skipItems fuel true
    | some '\x7b' => do eat; skipFields fuel true
    | some c => if c.isDigit then skipNumber else failNext .expectedValue

def skipItems : Nat → Bool → Reader Unit
  | 0, _ => failNext .nestedTooDeeply
  | fuel + 1, first => do
    match ← peekToken with
    | none => failNext .eofInList
    | some ']' => eat
    | some c =>
      if first then do skipValue fuel; skipItems fuel false
      else if c = ',' then do eat; skipValue fuel; skipItems fuel false
      else failNext .expectedListCommaOrEnd

def skipFields : Nat → Bool → Reader Unit
  | 0, _ => failNext .nestedTooDeeply
  | fuel + 1, first => do
    match ← peekToken with
    | none => failNext .eofInObject
    | some '\x7d' => eat
    | some c =>
      if !first ∧ c ≠ ',' then failNext .expectedObjectCommaOrEnd
      else do
        if !first then eat
        match ← peekToken with
        | some '"' => eat
        | some _ => failNext .keyMustBeString
        | none => failNext .eofInObject
        skipString
        colon
        skipValue fuel
        skipFields fuel false

end

/-- Skips one value; its depth and the count of its parts are below the text's length. -/
def skip : Reader Unit := fun c => skipValue (2 * c.rest.length + 2) c

end Reader

/-!
## Whole documents

`Json.parse` reads a text that holds one value and nothing else but blanks. A repeated field name
keeps the first place and the last value. Values nest at most `maxNesting` deep.
-/

def maxNesting : Nat := 127

namespace Reader

mutual

/-- Reads a value that stands at `way` inside the document. `room` is how much deeper lists and
objects may still nest; the items of one list or the fields of one object use up `fuel`. -/
def readValue (way : List Step) : (room fuel : Nat) → Reader Json
  | _, 0 => failNext .eofInValue
  | room, fuel + 1 => standing way do
    match ← peekToken with
    | none => failNext .eofInValue
    | some 'n' => do eat; word ['u', 'l', 'l']; pure .null
    | some 't' => do eat; word ['r', 'u', 'e']; pure (.bool true)
    | some 'f' => do eat; word ['a', 'l', 's', 'e']; pure (.bool false)
    | some '-' => do eat; readNumber false
    | some '"' => do
      eat
      let s ← readString
      pure (.string s)
    | some '[' =>
      match room with
      | 0 => failNext .nestedTooDeeply
      | room + 1 => do
        eat
        closedBy (do let items ← readItems way 0 room fuel; pure (.array items)) endList
    | some '\x7b' =>
      match room with
      | 0 => failNext .nestedTooDeeply
      | room + 1 => do
        eat
        closedBy (do let fields ← readFields way room fuel true []; pure (.object fields)) endObject
    | some c => if c.isDigit then readNumber true else failNext .expectedValue
termination_by structural _ fuel => fuel

/-- Reads items from the one with this index on. -/
def readItems (way : List Step) (index : Nat) : (room fuel : Nat) → Reader (List Json)
  | _, 0 => pure []
  | room, fuel + 1 => do
    let here := way ++ [.index index]
    if ← moreItems (index == 0) then
      let item ← readValue here room fuel
      let items ← readItems way (index + 1) room fuel
      pure (item :: items)
    else pure []
termination_by structural _ fuel => fuel

def readFields (way : List Step) :
    (room fuel : Nat) → Bool → List (String × Json) → Reader (List (String × Json))
  | _, 0, _, done => pure done
  | room, fuel + 1, first, done => do
    match ← nextKey way first with
    | none => pure done
    | some name =>
      let here := way ++ [.key name]
      colon
      let value ← readValue here room fuel
      readFields way room fuel false (Json.setField name value done)
termination_by structural _ fuel => fuel

end

/-- Reads a value with `room` to nest. -/
def valueAt (way : List Step) (room : Nat) : Reader Json :=
  fun c => readValue way room (2 * c.rest.length + 2) c

def value : Reader Json := valueAt [] maxNesting

end Reader

def parse (text : String) : Except Fault Json :=
  match Reader.value (Cursor.start text) with
  | .fault e _ => .error e
  | .ok v c =>
    let c := c.skipBlanks
    if c.rest.isEmpty then .ok v else .error ⟨.trailingCharacters, some c.placeBehind, none⟩

end SchemaCompiler.Json

import SchemaCompiler.Shell.Printf

/-!
# Values

A value is a number or a text, and each of them can be taken for the other. A text that comes from
outside counts as a number where it looks like one.
-/

namespace SchemaCompiler.Shell.Awk

inductive Value where
  | number (x : Float)
  | text (s : String)
  /-- A text that was read. -/
  | input (s : String)
  | unset

/-- The number at the start of a text, or zero. -/
def leadingNumber (s : String) : Float := ((Printf.float? s.toList).map (·.1)).getD 0

/-- Whether a text is a number and nothing else but blanks. -/
def looksNumeric (s : String) : Bool :=
  (Printf.float? s.toList).any fun found => found.2.all Char.isWhitespace

/-- Whether a number is whole and fits into 64 bits. -/
def isWhole (x : Float) : Bool :=
  x == x.floor && x < 18446744073709551616 && -9223372036854775808 ≤ x

/-- The text of a number. Whole numbers are written with all their digits, others with six. -/
def numberText (x : Float) : String :=
  if x.isNaN then "nan"
  else if x.isInf then if x < 0 then "-inf" else "inf"
  else if isWhole x then (if x < 0 then "-" else "") ++ toString x.abs.toUInt64.toNat
  else Printf.Directive.writeFloat { conversion := 'g', precision := some 6 } x

namespace Value

def toNumber : Value → Float
  | number x => x
  | text s => leadingNumber s
  | input s => leadingNumber s
  | unset => 0

def toText : Value → String
  | number x => numberText x
  | text s => s
  | input s => s
  | unset => ""

/-- Whether a value is compared as a number. -/
def isNumeric : Value → Bool
  | number _ => true
  | text _ => false
  | input s => looksNumeric s
  | unset => true

def isTrue : Value → Bool
  | number x => x != 0
  | text s => s != ""
  | input s => if looksNumeric s then leadingNumber s != 0 else s != ""
  | unset => false

def ofBool (b : Bool) : Value := .number (if b then 1 else 0)

end Value

/-- Compares two values, as numbers if both of them are, and otherwise as texts. -/
def compareBy (operator : String) (a b : Value) (x y : String) : Bool :=
  if a.isNumeric && b.isNumeric then
    match operator with
    | "<" => a.toNumber < b.toNumber
    | "<=" => a.toNumber ≤ b.toNumber
    | "==" => a.toNumber == b.toNumber
    | "!=" => a.toNumber != b.toNumber
    | ">" => b.toNumber < a.toNumber
    | _ => b.toNumber ≤ a.toNumber
  else
    match operator with
    | "<" => x < y
    | "<=" => x ≤ y
    | "==" => x == y
    | "!=" => x != y
    | ">" => y < x
    | _ => y ≤ x

/-- The rest of a division, with the sign of the dividend. -/
def remainder (x y : Float) : Float :=
  let q := x / y
  x - y * (if q < 0 then q.ceil else q.floor)

def calculate (operator : String) (x y : Float) : Float :=
  match operator with
  | "+" => x + y
  | "-" => x - y
  | "*" => x * y
  | "/" => x / y
  | "%" => remainder x y
  | _ => x ^ y

/-- A number without its places. -/
def truncated (x : Float) : Float := if x < 0 then x.ceil else x.floor

def integerOf (x : Float) : Int :=
  let n : Int := (truncated x).abs.toUInt64.toNat
  if x < 0 then -n else n

/-! ## Formatted output -/

/-- A value as a directive says. -/
def convert (d : Printf.Directive) (v : Value) : Option String :=
  match d.conversion with
  | 's' => some (d.pad (d.cut (v.toText)))
  | 'c' =>
    some (d.pad (match v with
      | .number x => String.ofList [Char.ofNat (integerOf x).toNat]
      | _ => String.ofList ((v.toText).toList.take 1)))
  | c =>
    if c = 'd' || c = 'i' then some (d.writeSigned (integerOf v.toNumber))
    else if ['o', 'u', 'x', 'X'].contains c then some (d.writeUnsigned (integerOf v.toNumber))
    else if ['e', 'E', 'f', 'F', 'g', 'G'].contains c then some (d.writeFloat v.toNumber)
    else none

/-- A count that is written as digits or taken from the values. -/
def countAt (values : List Value) (cs : List Char) : Option Nat × List Value × List Char :=
  match cs with
  | '*' :: rest => (values.head?.map fun v => (integerOf v.toNumber).toNat, values.tail, rest)
  | _ =>
    let digits := cs.takeWhile Char.isDigit
    ((String.ofList digits).toNat?, values, cs.drop digits.length)

/-- The directive behind a percent sign, with the values and the text that are left. -/
def directiveAt (values : List Value) (cs : List Char) :
    Option (Printf.Directive × List Value × List Char) :=
  let flags := cs.takeWhile fun c => "#-+ 0".toList.contains c
  let (width, values, behind) := countAt values (cs.drop flags.length)
  let (precision, values, behind) := match behind with
    | '.' :: rest =>
      let (n, values, behind) := countAt values rest
      (some (n.getD 0), values, behind)
    | _ => (none, values, behind)
  match behind with
  | [] => none
  | c :: rest =>
    let d : Printf.Directive :=
      { flags := String.ofList flags, width := width.getD 0, precision, conversion := c }
    some (d, values, rest)

/-- A text that a format gives. It is cut off where a value is missing. -/
structure Formatted where
  text : String
  complete : Bool := true

def Formatted.behind (before : String) (f : Formatted) : Formatted :=
  { f with text := before ++ f.text }

/-- Writes values by a format. -/
def formatFrom : Nat → List Value → List Char → Formatted
  | 0, _, _ => ⟨"", true⟩
  | _, _, [] => ⟨"", true⟩
  | fuel + 1, values, '%' :: '%' :: rest => (formatFrom fuel values rest).behind "%"
  | fuel + 1, values, '%' :: rest =>
    match directiveAt values rest with
    | none => ⟨"%", true⟩
    | some (_, [], _) => ⟨"", false⟩
    | some (d, v :: values, behind) =>
      (formatFrom fuel values behind).behind ((convert d v).getD "")
  | fuel + 1, values, c :: rest => (formatFrom fuel values rest).behind (String.ofList [c])

def format (text : String) (values : List Value) : Formatted :=
  formatFrom (text.length + 1) values text.toList

end SchemaCompiler.Shell.Awk

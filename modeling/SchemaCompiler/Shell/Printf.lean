import SchemaCompiler.Decimal.Shortest
import SchemaCompiler.Shell.Arithmetic
import SchemaCompiler.Shell.Quote

/-!
# Formatted output

A format is written once, and again for as long as there are arguments left. Widths and precisions
count bytes.
-/

namespace SchemaCompiler.Shell

namespace Printf

/-- How a value is written. -/
structure Directive where
  flags : String := ""
  width : Nat := 0
  precision : Option Nat := none
  conversion : Char

namespace Directive

def has (d : Directive) (flag : Char) : Bool := d.flags.toList.contains flag

def spaces (n : Nat) : String := String.ofList (List.replicate n ' ')

def zeros (n : Nat) : String := String.ofList (List.replicate n '0')

/-- Fills a text up with blanks. -/
def pad (d : Directive) (text : String) : String :=
  let blanks := spaces (d.width - text.utf8ByteSize)
  if d.has '-' then text ++ blanks else blanks ++ text

/-- Fills digits up to the width, with zeros if the flags say so. -/
def padNumber (d : Directive) (zeroFill : Bool) (sign digits : String) : String :=
  if zeroFill && d.has '0' && !d.has '-' then
    sign ++ zeros (d.width - sign.length - digits.length) ++ digits
  else d.pad (sign ++ digits)

/-- The sign of a number that is not negative. -/
def plusSign (d : Directive) : String :=
  if d.has '+' then "+" else if d.has ' ' then " " else ""

/-- A text cut to the precision. -/
def cut (d : Directive) (text : String) : String :=
  match d.precision with
  | none => text
  | some n => textOf (text.toUTF8.toList.take n)

def writeInteger (d : Directive) (sign : String) (digits : String) : String :=
  let digits := match d.precision with
    | some n => zeros (n - digits.length) ++ digits
    | none => digits
  d.padNumber d.precision.isNone sign digits

def writeSigned (d : Directive) (n : Int) : String :=
  d.writeInteger (if n < 0 then "-" else d.plusSign) (toString n.natAbs)

/-- The digits of a number in the base of a conversion. -/
def writeUnsigned (d : Directive) (n : Int) : String :=
  let bits := (n % Nat.pow 2 64).toNat
  match d.conversion with
  | 'x' => d.writeInteger (mark bits "0x") (inBase 16 bits)
  | 'X' => d.writeInteger (mark bits "0X") (inBase 16 bits).toUpper
  | 'o' => d.writeInteger (mark bits "0") (inBase 8 bits)
  | _ => d.writeInteger "" (toString bits)
where
  inBase (base n : Nat) : String := String.ofList (Nat.toDigits base n)
  mark (n : Nat) (text : String) : String := if d.has '#' && n ≠ 0 then text else ""

end Directive

/-! ## Numbers with a point -/

/-- The magnitude of a number times a power of ten, rounded to a whole number; a half goes to the
even neighbour. -/
def scaled (b : Decimal.Binary) (power : Int) : Nat :=
  let up := b.mantissa * Nat.pow 2 b.exponent.toNat * Nat.pow 10 power.toNat
  let down := Nat.pow 2 (-b.exponent).toNat * Nat.pow 10 (-power).toNat
  let quotient := up / down
  let twice := 2 * (up % down)
  if twice > down || (twice = down && quotient % 2 = 1) then quotient + 1 else quotient

/-- Puts a point in front of the last digits. -/
def withPoint (digits : String) (places : Nat) : String :=
  let digits := Directive.zeros (places + 1 - digits.length) ++ digits
  let whole := digits.length - places
  if places = 0 then digits
  else String.ofList (digits.toList.take whole) ++ "." ++ String.ofList (digits.toList.drop whole)

/-- A number with a fixed count of places. -/
def fixed (b : Option Decimal.Binary) (places : Nat) : String :=
  withPoint (toString ((b.map (scaled · places)).getD 0)) places

/-- Digits and exponent of a number with a fixed count of places behind the first digit. -/
def normalized (b : Option Decimal.Binary) (places : Nat) : Nat × Int :=
  match b with
  | none => (0, 0)
  | some b =>
    let exponent := b.interval.leading
    let digits := scaled b (places - exponent)
    if digits = Nat.pow 10 (places + 1) then (digits / 10, exponent + 1) else (digits, exponent)

def exponentText (exponent : Int) : String :=
  let digits := toString exponent.natAbs
  "e" ++ (if exponent < 0 then "-" else "+") ++ Directive.zeros (2 - digits.length) ++ digits

def scientific (b : Option Decimal.Binary) (places : Nat) : String :=
  let (digits, exponent) := normalized b places
  withPoint (toString digits) places ++ exponentText exponent

/-- Drops zeros at the end of the places. -/
def trimPlaces (text : String) : String :=
  if text.contains '.' then
    let kept := text.toList.reverse.dropWhile (· = '0')
    String.ofList (kept.dropWhile (· = '.')).reverse
  else text

/-- The shorter of the two notations. -/
def general (b : Option Decimal.Binary) (precision : Nat) : String :=
  let digits := max precision 1
  let exponent := (normalized b (digits - 1)).2
  if -4 ≤ exponent && exponent < digits then trimPlaces (fixed b (digits - 1 - exponent).toNat)
  else
    let (ds, exponent) := normalized b (digits - 1)
    trimPlaces (withPoint (toString ds) (digits - 1)) ++ exponentText exponent

def Directive.writeFloat (d : Directive) (x : Float) : String :=
  let b := Decimal.Binary.ofFloat? x
  let places := d.precision.getD 6
  let text := match d.conversion.toLower with
    | 'e' => scientific b places
    | 'g' => general b places
    | _ => fixed b places
  let text := if d.conversion.isUpper then text.toUpper else text
  d.padNumber true (if (Decimal.fields x).1 then "-" else d.plusSign) text

/-! ## Arguments -/

/-- The number at the start of a text with a point, and the rest. -/
def float? (cs : List Char) : Option (Float × List Char) :=
  let cs := cs.dropWhile Char.isWhitespace
  let negative := cs.head? = some '-'
  let cs := if negative || cs.head? = some '+' then cs.tail else cs
  let whole := cs.takeWhile Char.isDigit
  let behind := cs.drop whole.length
  let places := match behind with
    | '.' :: more => more.takeWhile Char.isDigit
    | _ => []
  let digits := whole ++ places
  if digits.isEmpty then none
  else
    let behind := if behind.head? = some '.' then behind.drop (places.length + 1) else behind
    let (exponent, behind) := exponentAt behind
    let shift := exponent - places.length
    let n := (String.ofList digits).toNat?.getD 0
    let x := Float.ofScientific n (shift < 0) shift.natAbs
    some (if negative then -x else x, behind)
where
  /-- The exponent at the start of a text. -/
  exponentAt (cs : List Char) : Int × List Char :=
    match cs with
    | 'e' :: rest =>
      match Arithmetic.integer? rest with
      | some (n, behind) => (n, behind)
      | none => (0, cs)
    | _ => (0, cs)

/-- What is printed, and what goes wrong. -/
structure Result where
  text : String := ""
  errors : List String := []
  arguments : List String
  /-- Nothing more is printed. -/
  ended : Bool := false
  /-- The format is faulty. -/
  faulty : Bool := false

namespace Result

def print (r : Result) (text : String) : Result := { r with text := r.text ++ text }

def complain (r : Result) (text : String) : Result := { r with errors := r.errors ++ [text] }

/-- The next argument, if there is one. -/
def take (r : Result) : Option String × Result :=
  (r.arguments.head?, { r with arguments := r.arguments.tail })

/-- Checks that a number was read from all of an argument. -/
def checked {α : Type} (r : Result) (argument : String) (zero : α) :
    Option (α × List Char) → α × Result
  | none => (zero, if argument = "" then r else r.complain (argument ++ ": expected numeric value"))
  | some (n, rest) =>
    (n, if rest.isEmpty then r else r.complain (argument ++ ": not completely converted"))

/-- Checks that a number lies in the range of those that can be written. -/
def bounded (r : Result) (argument : String) (low high n : Int) : Int × Result :=
  if low ≤ n && n ≤ high then (n, r)
  else
    (if n < low then low else high, r.complain (argument ++ ": Numerical result out of range"))

/-- The next argument as a number in a range. Behind a quote the number of the character is
meant. -/
def takeInteger (r : Result) (low high : Int) : Int × Result :=
  match r.take with
  | (none, r) => (0, r)
  | (some text, r) =>
    match text.toList with
    | '\'' :: c :: _ => (((bytesOf c).head?.getD 0).toNat, r)
    | '"' :: c :: _ => (((bytesOf c).head?.getD 0).toNat, r)
    | cs =>
      let (n, checked) := r.checked text 0 (Arithmetic.integer? cs)
      if low ≤ n && n ≤ high then (n, checked) else r.bounded text low high n

def takeSigned (r : Result) : Int × Result := r.takeInteger (-Nat.pow 2 63) (Nat.pow 2 63 - 1)

/-- Negative numbers stand for those that they are equal to in 64 bits. -/
def takeUnsigned (r : Result) : Int × Result :=
  r.takeInteger (-(Nat.pow 2 64 - 1)) (Nat.pow 2 64 - 1)

def takeFloat (r : Result) : Float × Result :=
  match r.take with
  | (none, r) => (0, r)
  | (some text, r) => r.checked text 0 (float? text.toList)

end Result

/-! ## Formats -/

/-- A count that is written as digits or taken from the arguments. -/
def count (r : Result) (cs : List Char) : Option Int × Result × List Char :=
  match cs with
  | '*' :: rest =>
    let (n, r) := r.takeSigned
    (some n, r, rest)
  | _ =>
    let digits := cs.takeWhile Char.isDigit
    ((String.ofList digits).toNat?.map Int.ofNat, r, cs.drop digits.length)

/-- Writes an argument as a directive says. -/
def convert (r : Result) (d : Directive) : Option Result :=
  match d.conversion with
  | 's' =>
    let (text, r) := r.take
    some (r.print (d.pad (d.cut (text.getD ""))))
  | 'c' =>
    let (text, r) := r.take
    let first := ((text.getD "").toUTF8.toList.head?).getD 0
    some (r.print (d.pad (textOf [first])))
  | 'b' =>
    let (text, r) := r.take
    let (text, ended) := unescape (text.getD "")
    some { r.print (d.pad (d.cut text)) with ended }
  | c =>
    if c = 'd' || c = 'i' then
      let (n, r) := r.takeSigned
      some (r.print (d.writeSigned n))
    else if ['o', 'u', 'x', 'X'].contains c then
      let (n, r) := r.takeUnsigned
      some (r.print (d.writeUnsigned n))
    else if ['e', 'E', 'f', 'F', 'g', 'G'].contains c then
      let (x, r) := r.takeFloat
      some (r.print (d.writeFloat x))
    else none

/-- Writes what a percent sign introduces, and gives what stands behind it. -/
def directive (r : Result) (cs : List Char) : Result × List Char :=
  let flags := cs.takeWhile fun c => "#-+ 0".toList.contains c
  let (width, r, behind) := count r (cs.drop flags.length)
  let (precision, r, behind) := match behind with
    | '.' :: rest =>
      let (n, r, behind) := count r rest
      (some (n.getD 0).toNat, r, behind)
    | _ => (none, r, behind)
  match behind with
  | [] => ({ r.complain "missing format character" with faulty := true }, [])
  | c :: rest =>
    let d : Directive :=
      { flags := String.ofList flags ++ (if width.any (· < 0) then "-" else "")
        width := (width.getD 0).natAbs, precision, conversion := c }
    match convert r d with
    | some r => (r, rest)
    | none =>
      let text := "%" ++ String.ofList (cs.take (cs.length - rest.length))
      ({ r.complain (text ++ ": invalid directive") with faulty := true }, [])

/-- Writes a format once. -/
def once : Nat → Result → List Char → Result
  | 0, r, _ => r
  | _, r, [] => r
  | fuel + 1, r, '%' :: '%' :: rest => once fuel (r.print "%") rest
  | fuel + 1, r, '%' :: rest =>
    let (r, behind) := directive r rest
    if r.ended || r.faulty then r else once fuel r behind
  | fuel + 1, r, '\\' :: rest =>
    let (bytes, behind) := escaped rest
    once fuel (r.print (textOf bytes)) behind
  | fuel + 1, r, c :: rest => once fuel (r.print (String.ofList [c])) rest

/-- Writes a format for as long as it takes arguments. -/
def repeated (format : List Char) : Nat → Result → Result
  | 0, r => r
  | fuel + 1, r =>
    let next := once (format.length + 1) r format
    if next.ended || next.faulty || next.arguments.isEmpty ||
        next.arguments.length = r.arguments.length then next
    else repeated format fuel next

end Printf

/-- Writes arguments by a format. -/
def printf (format : String) (arguments : List String) : Printf.Result :=
  Printf.repeated format.toList (arguments.length + 1) { arguments }

end SchemaCompiler.Shell

/-!
# Shortest decimals

A binary floating-point number is written with the fewest decimal digits that read back as the same
number; of several such decimals the nearest is taken, and of two equally near the even one.

The search works on whole numbers. A double is `mantissa · 2 ^ exponent`; four times that, in units
of `2 ^ (exponent - 2)`, makes the two borders of its rounding interval whole as well.
-/

namespace SchemaCompiler

/-- The number `digits · 10 ^ exponent`. -/
structure Decimal where
  digits : Nat
  exponent : Int
deriving DecidableEq, Repr

namespace Decimal

/-- A finite positive double: its value is `mantissa · 2 ^ exponent`. -/
structure Binary where
  mantissa : Nat
  exponent : Int
  /-- The next smaller double is only half as far away as the next larger one. -/
  closerBelow : Bool

/-- Sign, biased exponent and fraction field of a double. -/
def fields (x : Float) : Bool × Nat × Nat :=
  let bits := x.toBits.toNat
  (bits / Nat.pow 2 63 == 1, bits / Nat.pow 2 52 % Nat.pow 2 11, bits % Nat.pow 2 52)

/-- Magnitude of a finite double; `none` for zero, infinities and NaN. -/
def Binary.ofFloat? (x : Float) : Option Binary :=
  match fields x with
  | (_, 0, 0) => none
  | (_, 0, fraction) => some ⟨fraction, -1074, false⟩
  | (_, biased, fraction) =>
    if biased = 2047 then none
    else some ⟨Nat.pow 2 52 + fraction, biased - 1075, fraction == 0 && biased > 1⟩

/-- A rounding interval over one denominator, with the value inside it. -/
structure Interval where
  value : Nat
  low : Nat
  high : Nat
  denominator : Nat
  closed : Bool

def Binary.interval (b : Binary) : Interval :=
  let shift := b.exponent - 2
  let unit := Nat.pow 2 shift.toNat
  { value := 4 * b.mantissa * unit
    low := (4 * b.mantissa - if b.closerBelow then 1 else 2) * unit
    high := (4 * b.mantissa + 2) * unit
    denominator := Nat.pow 2 (-shift).toNat
    closed := b.mantissa % 2 == 0 }

/-- Whether `digits · scale / shrink` lies in the interval. -/
def Interval.holds (i : Interval) (scale shrink digits : Nat) : Bool :=
  let point := digits * scale * i.denominator
  if i.closed then i.low * shrink ≤ point && point ≤ i.high * shrink
  else i.low * shrink < point && point < i.high * shrink

/-- The decimal exponent of the value's leading digit. -/
def Interval.leading (i : Interval) : Int :=
  if i.value ≥ i.denominator then (Nat.toDigits 10 (i.value / i.denominator)).length - 1
  else
    let guess := (Nat.toDigits 10 (i.denominator / i.value)).length
    if i.value * Nat.pow 10 (guess - 1) ≥ i.denominator then -((guess : Int) - 1) else -(guess : Int)

/-- The point of the grid `10 ^ exponent` in the interval that is nearest to the value. -/
def Interval.onGrid? (i : Interval) (exponent : Int) : Option Decimal :=
  let scale := Nat.pow 10 exponent.toNat
  let shrink := Nat.pow 10 (-exponent).toNat
  let below := i.value * shrink / (i.denominator * scale)
  let above := below + 1
  let center := i.value * shrink
  let downward := center - below * scale * i.denominator
  let upward := above * scale * i.denominator - center
  match i.holds scale shrink below, i.holds scale shrink above with
  | true, true =>
    if downward < upward || (downward == upward && below % 2 == 0) then some ⟨below, exponent⟩
    else some ⟨above, exponent⟩
  | true, false => some ⟨below, exponent⟩
  | false, true => some ⟨above, exponent⟩
  | false, false => none

/-- Moves trailing zeros of the digits into the exponent, at most `fuel` of them. -/
def trimZeros : Nat → Decimal → Decimal
  | 0, d => d
  | fuel + 1, d =>
    if d.digits ≠ 0 ∧ d.digits % 10 = 0 then trimZeros fuel ⟨d.digits / 10, d.exponent + 1⟩ else d

/-- The shortest decimal of a double's magnitude. Seventeen digits always suffice. -/
def shortest (b : Binary) : Decimal :=
  let i := b.interval
  let found := (List.range 17).findSome? fun (n : Nat) => i.onGrid? (i.leading - n)
  trimZeros 20 (found.getD ⟨0, 0⟩)

end Decimal

/-- Where a decimal is written positionally and where with an exponent. -/
structure FloatFormat where
  /-- Least count of digits before the point (zero or less: zeros after the point). -/
  fewest : Int
  most : Int
  /-- What is written behind a whole number. -/
  wholeEnd : String
  infinity : String

namespace FloatFormat

/-- The form of numbers in JSON text: `0.00001`, `1.5`, `1000000.0`, `1e16`, `1e-6`. -/
def json : FloatFormat := ⟨-4, 16, ".0", "null"⟩

/-- No exponents, and no point behind a whole number. -/
def positional : FloatFormat := ⟨-400, 400, "", "inf"⟩

def zeros (n : Nat) : String := String.ofList (List.replicate n '0')

def writeDecimal (f : FloatFormat) (d : Decimal) : String :=
  let text := toString d.digits
  let count : Int := text.length
  let point := count + d.exponent
  if 0 ≤ d.exponent ∧ point ≤ f.most then text ++ zeros d.exponent.toNat ++ f.wholeEnd
  else if 0 < point ∧ point ≤ f.most then
    String.ofList (text.toList.take point.toNat) ++ "." ++
      String.ofList (text.toList.drop point.toNat)
  else if f.fewest ≤ point ∧ point ≤ 0 then "0." ++ zeros (-point).toNat ++ text
  else
    let head := String.ofList (text.toList.take 1)
    let tail := String.ofList (text.toList.drop 1)
    head ++ (if tail.isEmpty then "" else "." ++ tail) ++ "e" ++ toString (point - 1)

/-- The text of a double that is a number. -/
def write (f : FloatFormat) (x : Float) : String :=
  let sign := if (Decimal.fields x).1 then "-" else ""
  match Decimal.Binary.ofFloat? x with
  | some b => sign ++ f.writeDecimal (Decimal.shortest b)
  | none => if (Decimal.fields x).2.1 = 0 then sign ++ "0" ++ f.wholeEnd else f.infinity

end FloatFormat

end SchemaCompiler

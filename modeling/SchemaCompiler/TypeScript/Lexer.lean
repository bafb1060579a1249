import SchemaCompiler.Text.Blank
import SchemaCompiler.Text.Name
import SchemaCompiler.TypeScript.Token

/-!
# Reading tokens

Every reader here takes the characters that are left and gives a token with how many of them it
used. Some faults leave a token that can be told all the same: a number in an old notation, a
separator beside a missing digit, a string that its line ends. Such a lexeme is marked as faulty, and
who reads it decides whether that matters. Other faults leave no token, and the lexeme is broken.

* `Lexer.token` reads any token outside templates and tags;
* `Lexer.piece` reads on in a template, and `Lexer.tagToken?` in and between tags;
* `Lexer.regex` reads a regular expression, which begins like a division.
-/

namespace SchemaCompiler.TypeScript

/-- What a reader found and how many characters it took. -/
structure Lexeme where
  token : Token
  length : Nat
  faulty : Bool := false

/-- Text that makes no token, up to where this shows. -/
def Lexeme.broken (length : Nat) : Lexeme := { token := .broken, length := length }

/-- How the surroundings of a token want it read. -/
structure Mode where
  /-- Elements in angle brackets instead of assertions. -/
  jsx : Bool := false
  /-- At the key of a property. -/
  inKey : Bool := false
  inType : Bool := false
  /-- Operators with angle brackets are read whole in types too. -/
  wholeAngles : Bool := false

namespace Mode

/-- Whether there can be tags. -/
def hasTags (m : Mode) : Bool := m.jsx && !m.inKey && !m.inType

/-- Whether every angle bracket is a token of its own. -/
def singleAngles (m : Mode) : Bool := m.inType && !m.wholeAngles

end Mode

namespace Lexer

/-! ## Characters -/

def backtick : Char := Char.ofNat 0x60

def isLineEnd (c : Char) : Bool :=
  c == '\n' || c == '\r' || c.toNat == 0x2028 || c.toNat == 0x2029

/-- White space and the byte-order mark, as far as they end no line. -/
def isSpace (c : Char) : Bool := (Text.isBlank c && !isLineEnd c) || c.toNat == 0xFEFF

def hexValue? (c : Char) : Option Nat :=
  if c.isDigit then some (c.toNat - '0'.toNat)
  else if 'a' ≤ c ∧ c ≤ 'f' then some (c.toNat - 'a'.toNat + 10)
  else if 'A' ≤ c ∧ c ≤ 'F' then some (c.toNat - 'A'.toNat + 10)
  else none

def digit? (base : Nat) (c : Char) : Option Nat := (hexValue? c).filter (· < base)

/-! ## Runs of digits -/

/-- Digits with separators between them. -/
structure Digits where
  value : Nat := 0
  /-- How many digits there are, without the separators. -/
  count : Nat := 0
  length : Nat := 0
  /-- A separator stands beside something other than a digit. -/
  misplaced : Bool := false
  /-- There is an 8 or a 9. -/
  beyondOctal : Bool := false

/-- Reads on with a run of digits, up to `limit` digits when there is a limit. -/
def digitsFrom (base : Nat) (limit : Option Nat) : List Char → Digits → Digits
  | [], run => run
  | c :: cs, run =>
    if c = '_' then
      let beside := run.count > 0 && cs.head?.any fun d => (digit? base d).isSome
      digitsFrom base limit cs
        { run with length := run.length + 1, misplaced := run.misplaced || !beside }
    else
      match digit? base c with
      | none => run
      | some d =>
        let next : Digits :=
          { run with
            value := run.value * base + d, count := run.count + 1, length := run.length + 1,
            beyondOctal := run.beyondOctal || d == 8 || d == 9 }
        if limit == some next.count then next else digitsFrom base limit cs next

def digits (base : Nat) (cs : List Char) : Digits := digitsFrom base none cs {}

/-! ## Escapes -/

/-- The characters that an escape stands for. -/
structure Escape where
  chars : List Char
  /-- How many characters behind the backslash spell it, or were looked at before it failed. -/
  length : Nat
  faulty : Bool := false
  /-- Spelt with octal digits, which no template may hold. -/
  octal : Bool := false
  /-- It stands for nothing. -/
  failed : Bool := false

namespace Escape

def failure (length : Nat) (faulty : Bool) : Escape :=
  { chars := [], length := length, faulty := faulty, failed := true }

/-- The same escape with so many characters in front. -/
def behind (e : Escape) (length : Nat) : Escape := { e with length := e.length + length }

end Escape

/-- Up to so many hexadecimal digits. -/
def hexDigits (count : Nat) (cs : List Char) : Digits := digitsFrom 16 (some count) cs {}

def isSurrogate (code : Nat) : Bool := 0xD800 ≤ code && code ≤ 0xDFFF

/-- What follows `\u` and an opening brace. Half of a surrogate pair is no character, so its escape
stays as written, whatever stands before the closing brace. -/
def bracedEscape (cs : List Char) : Escape :=
  let run := digits 16 cs
  if run.count = 0 ∨ run.value > 0x10FFFF then .failure run.length run.misplaced
  else
    let kept := if isSurrogate run.value then (cs.take 6).takeWhile (· ≠ '\x7d') else []
    let length := if isSurrogate run.value then kept.length else run.length
    if (cs.drop length).head? ≠ some '\x7d' then .failure length run.misplaced
    else
      let chars :=
        if isSurrogate run.value then '\\' :: 'u' :: '\x7b' :: kept ++ ['\x7d']
        else [Char.ofNat run.value]
      { chars := chars, length := length + 1, faulty := run.misplaced }

/-- What follows `\u`. -/
def unicodeEscape (cs : List Char) : Escape :=
  match cs with
  | '\x7b' :: more => (bracedEscape more).behind 1
  | _ =>
    let run := hexDigits 4 cs
    if run.count ≠ 4 then .failure run.length run.misplaced
    else if isSurrogate run.value then
      { chars := '\\' :: 'u' :: cs.take 4, length := 4, faulty := run.misplaced }
    else { chars := [Char.ofNat run.value], length := run.length, faulty := run.misplaced }

/-- What follows `\x`. -/
def byteEscape (cs : List Char) : Escape :=
  let run := hexDigits 2 cs
  if run.count ≠ 2 then .failure run.length run.misplaced
  else { chars := [Char.ofNat run.value], length := run.length, faulty := run.misplaced }

/-- Up to three octal digits of a code below 256. -/
def octalEscape (cs : List Char) : Escape :=
  let three := digitsFrom 8 (some 3) (cs.take 3) {}
  let two := digitsFrom 8 (some 2) (cs.take 2) {}
  let run := if three.value < 256 then three else two
  { chars := [Char.ofNat run.value], length := run.length, faulty := true, octal := true }

/-- What follows a backslash in a string. -/
def escape (cs : List Char) : Escape :=
  match cs with
  | [] => .failure 0 false
  | 'n' :: _ => { chars := ['\n'], length := 1 }
  | 't' :: _ => { chars := ['\t'], length := 1 }
  | 'r' :: _ => { chars := ['\r'], length := 1 }
  | 'b' :: _ => { chars := [Char.ofNat 8], length := 1 }
  | 'v' :: _ => { chars := [Char.ofNat 11], length := 1 }
  | 'f' :: _ => { chars := [Char.ofNat 12], length := 1 }
  | '\r' :: '\n' :: _ => { chars := [], length := 2 }
  | 'x' :: more => (byteEscape more).behind 1
  | 'u' :: more => (unicodeEscape more).behind 1
  | c :: more =>
    if isLineEnd c then { chars := [], length := 1 }
    else if c = '0' ∧ !(more.head?.any fun d => (digit? 8 d).isSome) then
      { chars := [Char.ofNat 0], length := 1 }
    else if (digit? 8 c).isSome then octalEscape cs
    else { chars := [c], length := 1 }

/-! ## Words -/

/-- The characters of a word and how many of the text spell them. -/
structure Spelling where
  /-- The characters, last first. -/
  chars : List Char := []
  length : Nat := 0
  /-- An escape stands for a character that no name may hold. -/
  faulty : Bool := false
  escaped : Bool := false
  /-- A backslash starts no escape. -/
  failed : Bool := false

namespace Spelling

def text (s : Spelling) : String := String.ofList s.chars.reverse

/-- One more character that stands for itself. -/
def push (s : Spelling) (c : Char) : Spelling :=
  { s with chars := c :: s.chars, length := s.length + 1 }

/-- One more escape, from its backslash on. -/
def pushEscape (s : Spelling) (e : Escape) : Spelling :=
  { s with
    chars := e.chars.reverse ++ s.chars
    length := s.length + 2 + e.length
    faulty := s.faulty || e.faulty || !e.chars.head?.any Text.isNameTail
    escaped := true
    failed := e.failed }

end Spelling

/-- Goes on with a word; each round takes a character. -/
def spellingFrom : Nat → List Char → Spelling → Spelling
  | 0, _, s => s
  | fuel + 1, cs, s =>
    match cs with
    | '\\' :: 'u' :: more =>
      let e := unicodeEscape more
      if e.failed then s.pushEscape e
      else spellingFrom fuel (more.drop e.length) (s.pushEscape e)
    | '\\' :: _ => { s with length := s.length + 1, failed := true }
    | c :: more =>
      if if s.length = 0 then Text.isNameHead c else Text.isNameTail c then
        spellingFrom fuel more (s.push c)
      else s
    | [] => s

def spelling (cs : List Char) : Spelling := spellingFrom (cs.length + 1) cs {}

def startsWithEscape (cs : List Char) : Bool := cs.head? == some '\\'

/-- Whether a word starts here. -/
def startsWord (cs : List Char) : Bool := cs.head?.any Text.isNameHead || startsWithEscape cs

/-- A word. A reserved one must not be spelt with escapes, unless its first character is one. -/
def word (cs : List Char) : Lexeme :=
  let s := spelling cs
  if s.failed then .broken s.length
  else if startsWithEscape cs then { token := .name s.text, length := s.length, faulty := s.faulty }
  else if s.escaped && Token.isReserved s.text then .broken s.length
  else { token := .word s.text, length := s.length, faulty := s.faulty }

/-! ## Numbers -/

/-- The number `digits · 10 ^ exponent`. -/
def decimal (digits : Nat) (exponent : Int) : Float :=
  if digits = 0 ∨ exponent + digits.log2 < -400 then 0.0
  else if exponent > 400 then Float.ofScientific 1 false 400
  else Float.ofScientific digits (exponent < 0) exponent.natAbs

/-- An exponent part with its length, which is zero when there is none. It must have digits. -/
def exponentAt? (cs : List Char) : Option (Int × Nat × Bool) :=
  match cs with
  | e :: more =>
    if e = 'e' ∨ e = 'E' then
      let (negative, signLength, rest) :=
        match more with
        | '-' :: ds => (true, 1, ds)
        | '+' :: ds => (false, 1, ds)
        | ds => (false, 0, ds)
      let run := digits 10 rest
      if run.count = 0 then none
      else some (if negative then -run.value else run.value, 1 + signLength + run.length,
        run.misplaced)
    else some (0, 0, false)
  | [] => some (0, 0, false)

/-- No name may follow a number directly. -/
def endsNumber (cs : List Char) (lexeme : Lexeme) : Lexeme :=
  if (cs.drop lexeme.length).head?.any Text.isNameHead then .broken lexeme.length else lexeme

/-- A number in another base than ten, with its two-character mark. -/
def based (base : Nat) (cs : List Char) : Lexeme :=
  let digitChars := cs.drop 2
  let run := digits base digitChars
  if run.count = 0 then .broken (run.length + 2)
  else if (digitChars.drop run.length).head? == some 'n' then
    ⟨.bigint, run.length + 3, run.misplaced⟩
  else endsNumber cs ⟨.number (Float.ofNat run.value), run.length + 2, run.misplaced⟩

/-- What may follow the whole part of a number: a fraction and an exponent. -/
def fraction (cs : List Char) (whole : Digits) (faulty : Bool) : Lexeme :=
  let rest := cs.drop whole.length
  let (run, pointLength) :=
    match rest with
    | '.' :: more => (digitsFrom 10 none more { value := whole.value }, 1)
    | _ => ({ value := whole.value }, 0)
  let length := whole.length + pointLength + run.length
  match exponentAt? (rest.drop (pointLength + run.length)) with
  | none => .broken length
  | some (exponent, width, misplaced) =>
    endsNumber cs
      ⟨.number (decimal run.value (exponent - run.count)), length + width,
        faulty || whole.misplaced || run.misplaced || misplaced⟩

/-- A number in base ten. With a leading zero it is in base eight when it can be. -/
def decimalNumber (cs : List Char) : Lexeme :=
  let whole := digits 10 cs
  if whole.count > 0 ∧ (cs.drop whole.length).head? = some 'n' then
    ⟨.bigint, whole.length + 1, whole.misplaced⟩
  else if cs.head? = some '0' ∧ whole.length > 1 then
    if whole.beyondOctal then fraction cs whole true
    else endsNumber cs ⟨.number (Float.ofNat (digits 8 cs).value), whole.length, true⟩
  else fraction cs whole false

def number (cs : List Char) : Lexeme :=
  match cs with
  | '0' :: c :: _ =>
    if c = 'x' ∨ c = 'X' then based 16 cs
    else if c = 'o' ∨ c = 'O' then based 8 cs
    else if c = 'b' ∨ c = 'B' then based 2 cs
    else decimalNumber cs
  | _ => decimalNumber cs

/-! ## Strings and templates -/

/-- The rest of a string. The end of a line or of the text ends it too, and is a fault. -/
def stringFrom (quote : Char) : Nat → List Char → List Char → Nat → Bool → Lexeme
  | 0, _, _, length, _ => .broken length
  | fuel + 1, cs, done, length, faulty =>
    match cs with
    | [] => ⟨.string (String.ofList done.reverse), length, true⟩
    | '\\' :: more =>
      let e := escape more
      if e.failed then .broken (length + 1 + e.length)
      else
        stringFrom quote fuel (more.drop e.length) (e.chars.reverse ++ done)
          (length + 1 + e.length) (faulty || e.faulty)
    | c :: more =>
      if c = quote then ⟨.string (String.ofList done.reverse), length + 1, faulty⟩
      else if c = '\n' ∨ c = '\r' then ⟨.string (String.ofList done.reverse), length, true⟩
      else stringFrom quote fuel more (c :: done) (length + 1) faulty

def string (quote : Char) (cs : List Char) : Lexeme := stringFrom quote (cs.length + 1) cs [] 1 false

/-- A piece of a template, read so far. -/
structure Piece where
  /-- The characters as written, last first. -/
  chars : List Char := []
  length : Nat := 0
  sound : Bool := true
  faulty : Bool := false

/-- Goes on with an escape, from its backslash on. No octal digits may spell it; the text goes on
where it fails. -/
def Piece.pushEscape (p : Piece) (more : List Char) : Piece :=
  let e := escape more
  let width := if e.octal then 1 else e.length
  { chars := (more.take width).reverse ++ '\\' :: p.chars
    length := p.length + 1 + width
    sound := p.sound && !e.failed && !e.octal
    faulty := p.faulty || (e.faulty && !e.octal) }

/-- The rest of a piece of a template, which must not end with the text. -/
def pieceFrom : Nat → List Char → Piece → Lexeme
  | 0, _, p => .broken p.length
  | fuel + 1, cs, p =>
    match cs with
    | [] => .broken p.length
    | '\\' :: more =>
      let next := p.pushEscape more
      pieceFrom fuel (cs.drop (next.length - p.length)) next
    | '$' :: '\x7b' :: _ => found p
    | c :: more =>
      if c = backtick then found p
      else pieceFrom fuel more { p with chars := c :: p.chars, length := p.length + 1 }
where
  found (p : Piece) : Lexeme :=
    ⟨.piece (String.ofList p.chars.reverse) p.sound, p.length, p.faulty⟩

/-- What follows in a template: a piece of it, and behind this what ends it or what opens a
substitution. -/
def piece (behindPiece : Bool) (cs : List Char) : Lexeme :=
  match behindPiece, cs with
  | true, '$' :: '\x7b' :: _ => { token := .punct "$\x7b", length := 2 }
  | true, c :: _ =>
    if c = backtick then { token := .backtick, length := 1 } else pieceFrom (cs.length + 1) cs {}
  | _, _ => pieceFrom (cs.length + 1) cs {}

/-! ## Regular expressions -/

/-- Length of a regular expression up to its closing slash. -/
def regexBody : Bool → List Char → Nat → Option Nat
  | _, [], _ => none
  | inClass, '\\' :: c :: more, length =>
    if isLineEnd c then none else regexBody inClass more (length + 2)
  | inClass, c :: more, length =>
    if isLineEnd c then none
    else if inClass then regexBody (c != ']') more (length + 1)
    else if c = '/' then some (length + 1)
    else regexBody (c == '[') more (length + 1)

/-- Flags are known letters, each at most once. -/
def soundFlags (flags : List Char) : Bool :=
  flags.all (['d', 'g', 'i', 'm', 's', 'u', 'v', 'y'].contains ·) &&
    flags.eraseDups.length == flags.length

/-- A regular expression, from its opening slash. Its flags are a word, also one with escapes. -/
def regex (cs : List Char) : Lexeme :=
  match regexBody false (cs.drop 1) 1 with
  | none => .broken 1
  | some length =>
    let behind := cs.drop length
    if behind.head?.any Text.isNameHead then
      let flags := spelling behind
      if flags.failed then .broken (length + flags.length)
      else ⟨.regex, length + flags.length, flags.faulty || !soundFlags flags.chars⟩
    else { token := .regex, length := length }

/-! ## Operators -/

/-- Operators and brackets without angles, longer ones before their beginnings. -/
def operators : List String :=
  ["...", "**=", "===", "!==", "&&=", "||=", "??=",
   "=>", "**", "++", "--", "==", "!=", "+=", "-=", "*=", "/=", "%=", "&=", "|=", "^=",
   "&&", "||", "??",
   "\x7b", "\x7d", "(", ")", "[", "]", ";", ",", "+", "-", "*", "/", "%", "&", "|", "^",
   "!", "~", "?", ":", "=", ".", "@", "#"]

/-- Operators with angle brackets, longer ones before their beginnings. -/
def angleOperators : List String :=
  [">>>=", "<<=", ">>=", ">>>", "<<", ">>", "<=", ">=", "<", ">"]

/-- The first operator of a list that a text starts with. -/
def operatorOf (ops : List String) (cs : List Char) : Lexeme :=
  match ops.find? fun op => op.toList.isPrefixOf cs with
  | some op => { token := .punct op, length := op.length }
  | none => .broken 1

/-- A mark that starts with an angle bracket. -/
def angle (single : Bool) (cs : List Char) : Lexeme :=
  operatorOf (if single then ["<", ">"] else angleOperators) cs

/-! ## Any token -/

/-- The token that a text starts with, outside templates and tags. -/
def token (m : Mode) (cs : List Char) : Lexeme :=
  match cs with
  | [] => { token := .eof, length := 0 }
  | c :: more =>
    if c = '"' ∨ c = '\'' then string c more
    else if c = backtick then { token := .backtick, length := 1 }
    else if c.isDigit then number cs
    else if c = '.' ∧ more.head?.any Char.isDigit then number cs
    else if c = '<' ∨ c = '>' then angle m.singleAngles cs
    else if startsWord cs then word cs
    else operatorOf operators cs

/-! ## Lines that are faults -/

/-- A line that is passed over as a whole; a `grave` one is reported also where nobody listens. -/
structure StrayLine where
  grave : Bool

/-- Marks that a merge has left at the start of a line. -/
def mergeMarks (m : Mode) : List String :=
  if m.singleAngles then ["======="] else ["=======", "<<<<<<< ", ">>>>>>> "]

/-- The stray line that a text starts with; `lineBreak` tells whether a line starts there. Comments
of mark-up are such lines. -/
def strayLine? (m : Mode) (lineBreak : Bool) (cs : List Char) : Option StrayLine :=
  if !m.singleAngles && "<!--".toList.isPrefixOf cs then some ⟨true⟩
  else if lineBreak && "-->".toList.isPrefixOf cs then some ⟨true⟩
  else if lineBreak && (mergeMarks m).any fun mark => mark.toList.isPrefixOf cs then some ⟨false⟩
  else none

/-- Whether a text starts with the mark of a merge that leaves no token. -/
def breaksLine (lineBreak : Bool) (cs : List Char) : Bool :=
  lineBreak && "||||||| ".toList.isPrefixOf cs

/-! ## Tags -/

/-- The text between tags, up to the next one or an expression in braces. -/
def tagText (cs : List Char) : Lexeme :=
  let text := cs.takeWhile fun c => c != '<' && c != '\x7b'
  if text.length = cs.length then .broken text.length
  else ⟨.tagText, text.length, text.any fun c => c == '>' || c == '\x7d'⟩

/-- A name in a tag. -/
def tagName (cs : List Char) : Lexeme :=
  let chars := cs.takeWhile fun c => Text.isNameTail c || c == '-'
  { token := .tagName (String.ofList chars), length := chars.length }

/-- The value of an attribute in quotes, where a backslash means itself. The last two characters of a
text close no quotes. -/
def attributeText (quote : Char) (cs : List Char) : Lexeme :=
  let inner := cs.takeWhile (· ≠ quote)
  let left := cs.length - inner.length
  ⟨.string "", inner.length + (if left > 2 then 2 else 1), left = 0⟩

/-- The tokens that are read in and between tags only. -/
def tagToken? (around : Surroundings) (cs : List Char) : Option Lexeme :=
  match around.inside, cs with
  | _, [] => none
  | some .element, c :: _ =>
    if c = '<' then opened c else if c = '\x7b' then none else some (tagText cs)
  | some .openingTag, c :: more =>
    if c = '"' ∨ c = '\'' then some (attributeText c more) else named c more
  | some .closingTag, c :: more => named c more
  | _, c :: more => if more.head? = some '!' then none else opened c
where
  /-- An angle bracket that opens a tag. -/
  opened (c : Char) : Option Lexeme :=
    if c = '<' ∧ around.expectsValue then some { token := .tagStart, length := 1 } else none
  named (c : Char) (more : List Char) : Option Lexeme :=
    if Text.isNameHead c then some (tagName (c :: more))
    else if c = '>' then some { token := .tagEnd, length := 1 }
    else if more.head? = some '!' then none
    else opened c

end Lexer

end SchemaCompiler.TypeScript

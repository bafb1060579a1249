/-!
# Quoting and escapes
-/

namespace SchemaCompiler.Shell

/-!
## Quoting

`quote` writes a text so that a command line takes it for one word. Lists of what a shell knows have
quotes around every value; `listed` writes those.
-/

/-- A character that needs no quotes. -/
def isPlain (c : Char) : Bool :=
  c.isAlphanum || c == '/' || c == '.' || c == '_' || c == '-'

/-- Closes the quotes around a quoted quote. -/
def quoteChar (c : Char) : List Char :=
  if c = '\'' then ['\'', '\\', '\'', '\''] else [c]

/-- A text as one word; a text of plain characters stands for itself. -/
def quote (s : String) : String :=
  if s.toList.all isPlain then s
  else String.ofList ('\'' :: s.toList.flatMap quoteChar ++ ['\''])

/-- Parts of a text with single quotes around them; the quotes of the text have double ones. The
first list is what has been read of a part, last character first. -/
def listedFrom : List Char → List Char → List Char
  | part, [] => '\'' :: part.reverse ++ ['\'']
  | part, '\'' :: rest => ('\'' :: part.reverse ++ ['\'', '"']) ++ behindQuote rest
  | part, c :: rest => listedFrom (c :: part) rest
where
  /-- The rest of a text behind one of its quotes. -/
  behindQuote : List Char → List Char
    | [] => ['\'', '"']
    | '\'' :: rest => '\'' :: behindQuote rest
    | c :: rest => ['\'', '"'] ++ listedFrom [c] rest

/-- A text as it stands in a list. -/
def listed (s : String) : String := String.ofList (listedFrom [] s.toList)

/-!
## Escapes

What letters and numbers behind a backslash stand for in the texts that are printed.
-/

def escapeLetter? : Char → Option Char
  | 'a' => some '\x07'
  | 'b' => some '\x08'
  | 'e' => some '\x1b'
  | 'f' => some '\x0c'
  | 'n' => some '\n'
  | 'r' => some '\r'
  | 't' => some '\t'
  | 'v' => some '\x0b'
  | '\\' => some '\\'
  | _ => none

def isOctal (c : Char) : Bool := '0' ≤ c && c ≤ '7'

/-- The byte that up to three octal digits stand for, and the rest. -/
def octalByte (cs : List Char) : UInt8 × List Char :=
  let digits := (cs.take 3).takeWhile isOctal
  ((digits.foldl (fun n c => n * 8 + (c.toNat - '0'.toNat)) 0).toUInt8, cs.drop digits.length)

def bytesOf (c : Char) : List UInt8 := (String.ofList [c]).toUTF8.toList

/-- The bytes that stand for an escape, behind its backslash, and the rest. -/
def escaped (cs : List Char) : List UInt8 × List Char :=
  match cs with
  | [] => (bytesOf '\\', [])
  | c :: rest =>
    if isOctal c then
      let (byte, rest) := octalByte cs
      ([byte], rest)
    else
      match escapeLetter? c with
      | some meant => (bytesOf meant, rest)
      | none => (bytesOf '\\', cs)

/-- Bytes as text; bytes that are no text stand for the characters of their numbers. -/
def textOf (bytes : List UInt8) : String :=
  match String.fromUTF8? ⟨bytes.toArray⟩ with
  | some text => text
  | none => String.ofList (bytes.map fun b => Char.ofNat b.toNat)

/-- Replaces the escapes of a text that is printed; `\c` ends it, which the flag tells. A zero in
front of octal digits does not count. -/
def unescapeFrom : Nat → List Char → List UInt8 × Bool
  | 0, _ => ([], false)
  | _, [] => ([], false)
  | fuel + 1, '\\' :: cs =>
    if cs.head? = some 'c' then ([], true)
    else
      let digits := match cs with
        | '0' :: d :: _ => if isOctal d then cs.tail else cs
        | _ => cs
      let (bytes, rest) := escaped digits
      let (more, ended) := unescapeFrom fuel rest
      (bytes ++ more, ended)
  | fuel + 1, c :: cs =>
    let (more, ended) := unescapeFrom fuel cs
    (bytesOf c ++ more, ended)

def unescape (text : String) : String × Bool :=
  let (bytes, ended) := unescapeFrom (text.length + 1) text.toList
  (textOf bytes, ended)

/-- The words of `echo` with blanks between them; `-n` leaves the line open. -/
def echoText (words : List String) : String :=
  let (words, newline) := match words with
    | "-n" :: words => (words, false)
    | words => (words, true)
  let (text, ended) := unescape (" ".intercalate words)
  text ++ if newline && !ended then "\n" else ""

end SchemaCompiler.Shell

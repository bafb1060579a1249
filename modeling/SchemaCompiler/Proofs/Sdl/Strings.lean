import Mathlib.Data.List.DropRight
import Mathlib.Tactic.SplitIfs
import SchemaCompiler.GraphQL.Document.Printer
import SchemaCompiler.Proofs.Lists

/-!
# Strings in documents

How the schema language reads a string. In a quoted string an escape with `u` has four hexadecimal
digits. A block loses the margin that its lines share and the blank lines at its ends, and every line
end in it counts as a line feed.

A document writes the code of an unprintable character in decimal, with four digits or more. A reader
takes the first four of these for hexadecimal digits and the others for text, so it takes most
unprintable characters for something else.
-/

namespace SchemaCompiler.GraphQL

/-! ## Reading strings -/

/-- What an escape stands for. -/
def escaped? (c : Char) : Option Char :=
  if c = '"' ∨ c = '\\' ∨ c = '/' then some c
  else if c = 'b' then some '\x08'
  else if c = 'f' then some '\x0c'
  else if c = 'n' then some '\n'
  else if c = 'r' then some '\r'
  else if c = 't' then some '\t'
  else none

def hexDigit? (c : Char) : Option Nat :=
  if c.isDigit then some (c.toNat - '0'.toNat)
  else if 'a' ≤ c ∧ c ≤ 'f' then some (c.toNat - 'a'.toNat + 10)
  else if 'A' ≤ c ∧ c ≤ 'F' then some (c.toNat - 'A'.toNat + 10)
  else none

/-- The character with a code of four hexadecimal digits. -/
def coded? (a b c d : Char) : Option Char := do
  let a ← hexDigit? a
  let b ← hexDigit? b
  let c ← hexDigit? c
  let d ← hexDigit? d
  let code := ((a * 16 + b) * 16 + c) * 16 + d
  if code.isValidChar then some (.ofNat code) else none

/-- Puts characters in front of a text that was read; what is left stays. -/
def ahead (cs : List Char) (read : List Char × List Char) : List Char × List Char :=
  (cs ++ read.1, read.2)

/-- The text up to the next quote, and what stands behind it. -/
def quotedText? : List Char → Option (List Char × List Char)
  | '"' :: rest => some ([], rest)
  | '\\' :: 'u' :: a :: b :: c :: d :: rest => do
    let code ← coded? a b c d
    (quotedText? rest).map (ahead [code])
  | '\\' :: c :: rest => do
    let c ← escaped? c
    (quotedText? rest).map (ahead [c])
  | c :: rest => if c = '\t' ∨ isPlainChar c then (quotedText? rest).map (ahead [c]) else none
  | [] => none

def isBlockChar (c : Char) : Bool := c == '\n' || c == '\r' || c == '\t' || isPlainChar c

/-- The text up to the next three quotes, and what stands behind them. -/
def blockText? : List Char → Option (List Char × List Char)
  | '"' :: '"' :: '"' :: rest => some ([], rest)
  | '\\' :: '"' :: '"' :: '"' :: rest => (blockText? rest).map (ahead tripleQuote)
  | c :: rest => if isBlockChar c then (blockText? rest).map (ahead [c]) else none
  | [] => none

/-- Every line end as a line feed. -/
def lineFeeds : List Char → List Char
  | '\r' :: '\n' :: rest => '\n' :: lineFeeds rest
  | c :: rest => (if c = '\r' then '\n' else c) :: lineFeeds rest
  | [] => []

def isIndent (c : Char) : Bool := c = ' ' || c = '\t'

def isIndentOnly (line : List Char) : Bool := line.all isIndent

/-- How far a line is indented. -/
def indentOf (line : List Char) : Nat := (line.takeWhile isIndent).length

/-- The margin that all lines share that have more than blanks. -/
def margin (lines : List (List Char)) : Nat :=
  ((lines.filter (!isIndentOnly ·)).map indentOf).min?.getD 0

/-- The lines without their margin, which the first one does not have. -/
def withoutMargin : List (List Char) → List (List Char)
  | first :: rest => first :: rest.map (·.drop (margin rest))
  | [] => []

/-- The lines without the blank ones at both ends. -/
def withoutEnds (lines : List (List Char)) : List (List Char) :=
  (lines.dropWhile isIndentOnly).rdropWhile isIndentOnly

/-- What a block string stands for. -/
def blockValue (cs : List Char) : List Char :=
  ['\n'].intercalate (withoutEnds (withoutMargin ((lineFeeds cs).splitOn '\n')))

/-- The string that a text starts with, and what stands behind it. -/
def string? : List Char → Option (List Char × List Char)
  | '"' :: '"' :: '"' :: rest => (blockText? rest).map fun (text, rest) => (blockValue text, rest)
  | '"' :: rest => quotedText? rest
  | _ => none

example : string? "\"\\u00e9t\\u00E9\" rest".toList = some ("été".toList, " rest".toList) := by
  decide +kernel

example : string? "\"\"\"\n    a\n\n      b\n  \"\"\"".toList = some ("a\n\n  b".toList, []) := by
  decide +kernel

/-! ## What is read of a quoted string -/

/-- What is read of a character. -/
def rereadChar (c : Char) : List Char :=
  if c = '\r' ∨ c = '\n' ∨ c = '\t' ∨ isPlainChar c then [c]
  else
    match fourDigits c.toNat with
    | a :: b :: c :: d :: rest => (coded? a b c d).toList ++ rest
    | _ => []

/-- Whether a character is read as it was written. -/
def isLegibleChar (c : Char) : Bool := c = '\r' || c = '\n' || c.toNat ≤ 9 || isPlainChar c

@[simp]
theorem ahead_nil : ahead [] = id := rfl

@[simp]
theorem ahead_comp (cs ds : List Char) : ahead cs ∘ ahead ds = ahead (cs ++ ds) := by
  funext read
  simp [ahead]

theorem isDigit_of_mem_fourDigits {n : Nat} {c : Char} (h : c ∈ fourDigits n) :
    c.isDigit = true := by
  rw [fourDigits, Nat.toString_eq_repr, Nat.toList_repr] at h
  rcases List.mem_append.mp h with h | h
  · rw [List.eq_of_mem_replicate h]
    rfl
  · exact Nat.isDigit_of_mem_toDigits (by decide) (by decide) h

theorem hexDigit?_of_isDigit {c : Char} (h : c.isDigit = true) : ∃ n ≤ 9, hexDigit? c = some n := by
  refine ⟨c.toNat - '0'.toNat, ?_, if_pos h⟩
  have hcode : 48 ≤ c.toNat ∧ c.toNat ≤ 57 := Char.isDigit_iff_toNat.mp h
  show c.toNat - 48 ≤ 9
  omega

/-- Four decimal digits, taken for hexadecimal ones, are the code of a character. -/
theorem coded?_of_isDigit {a b c d : Char} (ha : a.isDigit = true) (hb : b.isDigit = true)
    (hc : c.isDigit = true) (hd : d.isDigit = true) :
    ∃ e : Char, coded? a b c d = some e ∧ e.toNat ≤ 0x9999 := by
  obtain ⟨m, hm, ha⟩ := hexDigit?_of_isDigit ha
  obtain ⟨n, hn, hb⟩ := hexDigit?_of_isDigit hb
  obtain ⟨k, hk, hc⟩ := hexDigit?_of_isDigit hc
  obtain ⟨l, hl, hd⟩ := hexDigit?_of_isDigit hd
  have hvalid : (((m * 16 + n) * 16 + k) * 16 + l).isValidChar := Or.inl (by omega)
  refine ⟨.ofNat (((m * 16 + n) * 16 + k) * 16 + l), ?_, ?_⟩
  · simp [coded?, ha, hb, hc, hd, hvalid]
  · have hcode : (Char.ofNat (((m * 16 + n) * 16 + k) * 16 + l)).toNat =
        ((m * 16 + n) * 16 + k) * 16 + l := by
      rw [Char.ofNat, dif_pos hvalid]
      rfl
    omega

/-- A character that a quoted string takes as it stands. -/
theorem quotedText?_cons {c : Char} (hquote : c ≠ '"') (hslash : c ≠ '\\')
    (hplain : isPlainChar c = true) (rest : List Char) :
    quotedText? (c :: rest) = (quotedText? rest).map (ahead [c]) := by
  rw [quotedText?]
  · exact if_pos (Or.inr hplain)
  · exact hquote
  · exact fun _ _ _ _ _ h _ => hslash h
  · exact fun _ _ h _ => hslash h

theorem quotedText?_digits {digits : List Char} (h : ∀ c ∈ digits, c.isDigit = true)
    (rest : List Char) :
    quotedText? (digits ++ rest) = (quotedText? rest).map (ahead digits) := by
  induction digits with
  | nil => simp
  | cons c digits ih =>
    obtain ⟨hc, hdigits⟩ := List.forall_mem_cons.mp h
    have hcode : 48 ≤ c.toNat ∧ c.toNat ≤ 57 := Char.isDigit_iff_toNat.mp hc
    have hplain : isPlainChar c = true := by
      rw [isPlainChar, Bool.and_eq_true, decide_eq_true_iff, decide_eq_true_iff]
      omega
    rw [List.cons_append, quotedText?_cons (by rintro rfl; cases hc) (by rintro rfl; cases hc)
      hplain, ih hdigits, Option.map_map, ahead_comp, List.singleton_append]

/-- The code of an unprintable character is read as another one in its first four digits, and as
itself in the others. -/
theorem exists_digits {c : Char} (h : ¬ (c = '\r' ∨ c = '\n' ∨ c = '\t' ∨ isPlainChar c)) :
    ∃ (d₁ d₂ d₃ d₄ e : Char) (digits : List Char),
      fourDigits c.toNat = d₁ :: d₂ :: d₃ :: d₄ :: digits ∧ coded? d₁ d₂ d₃ d₄ = some e ∧
        e.toNat ≤ 0x9999 ∧ (∀ d ∈ digits, d.isDigit = true) ∧ rereadChar c = e :: digits := by
  have hlength : 4 ≤ (fourDigits c.toNat).length := by
    simp only [fourDigits, List.length_append, List.length_replicate]
    omega
  have hall : ∀ d ∈ fourDigits c.toNat, d.isDigit = true := fun d => isDigit_of_mem_fourDigits
  match hdigits : fourDigits c.toNat, hlength with
  | d₁ :: d₂ :: d₃ :: d₄ :: digits, _ =>
    simp only [hdigits, List.forall_mem_cons] at hall
    obtain ⟨h₁, h₂, h₃, h₄, hrest⟩ := hall
    obtain ⟨e, he, hcode⟩ := coded?_of_isDigit h₁ h₂ h₃ h₄
    exact ⟨d₁, d₂, d₃, d₄, e, digits, rfl, he, hcode, hrest, by simp [rereadChar, h, hdigits, he]⟩

theorem quotedText?_quotedChar (c : Char) (rest : List Char) :
    quotedText? (quotedChar c ++ rest) = (quotedText? rest).map (ahead (rereadChar c)) := by
  unfold quotedChar
  split_ifs with hreturn hfeed htab hquote hslash hplain
  · subst hreturn
    rfl
  · subst hfeed
    rfl
  · subst htab
    rfl
  · subst hquote
    rfl
  · subst hslash
    rfl
  · rw [List.singleton_append, quotedText?_cons hquote hslash hplain, rereadChar,
      if_pos (Or.inr (Or.inr (Or.inr hplain)))]
  · have hprinted : ¬ (c = '\r' ∨ c = '\n' ∨ c = '\t' ∨ isPlainChar c) := by
      simp [hreturn, hfeed, htab, hplain]
    obtain ⟨d₁, d₂, d₃, d₄, e, digits, hdigits, he, -, hrest, hreread⟩ := exists_digits hprinted
    simp only [hreread, hdigits, List.cons_append]
    rw [quotedText?, he, Option.bind_eq_bind, Option.bind_some, quotedText?_digits hrest,
      Option.map_map, ahead_comp, List.singleton_append]

theorem quotedText?_quoted (cs rest : List Char) :
    quotedText? (cs.flatMap quotedChar ++ '"' :: rest) = some (cs.flatMap rereadChar, rest) := by
  induction cs with
  | nil => rfl
  | cons c cs ih =>
    rw [List.flatMap_cons, List.append_assoc, quotedText?_quotedChar, ih]
    simp [ahead]

theorem rereadChar_ne_nil (c : Char) : rereadChar c ≠ [] := by
  by_cases h : c = '\r' ∨ c = '\n' ∨ c = '\t' ∨ isPlainChar c
  · simp [rereadChar, h]
  · obtain ⟨_, _, _, _, e, digits, -, -, -, -, hreread⟩ := exists_digits h
    simp [hreread]

theorem rereadChar_eq_self_iff (c : Char) : rereadChar c = [c] ↔ isLegibleChar c = true := by
  rcases Nat.lt_or_ge c.toNat 0x20 with hlow | hlow
  · have hall : ∀ n < 0x20,
        rereadChar (.ofNat n) = [.ofNat n] ↔ isLegibleChar (.ofNat n) = true := by
      decide +kernel
    simpa [Char.ofNat_toNat] using hall c.toNat hlow
  · by_cases hplain : isPlainChar c = true
    · simp [rereadChar, isLegibleChar, hplain]
    · have hhigh : 0xFFFF < c.toNat := by
        simp only [isPlainChar, Bool.and_eq_true, decide_eq_true_iff, not_and, not_le] at hplain
        exact hplain hlow
      have hne (d : Char) (hd : d.toNat < 0x20) : c ≠ d := by
        rintro rfl
        omega
      have hreturn := hne '\r' (by decide)
      have hfeed := hne '\n' (by decide)
      have hprinted : ¬ (c = '\r' ∨ c = '\n' ∨ c = '\t' ∨ isPlainChar c) := by
        simp [hreturn, hfeed, hne '\t' (by decide), hplain]
      obtain ⟨_, _, _, _, e, digits, -, -, hcode, -, hreread⟩ := exists_digits hprinted
      refine iff_of_false ?_ ?_
      · rw [hreread, List.cons.injEq]
        rintro ⟨rfl, -⟩
        omega
      · simp only [isLegibleChar, hreturn, hfeed, hplain, decide_false, Bool.false_or, Bool.or_false,
          decide_eq_true_iff]
        omega

theorem reread_quoted_iff (cs : List Char) :
    cs.flatMap rereadChar = cs ↔ ∀ c ∈ cs, isLegibleChar c = true := by
  simp only [flatMap_eq_self_iff rereadChar_ne_nil, rereadChar_eq_self_iff]

end SchemaCompiler.GraphQL

import Mathlib.Data.List.DropRight
import Mathlib.Data.Prod.Lex
import Mathlib.Data.String.Basic
import SchemaCompiler.Program.Basic

/-!
# Lines and columns

A position is looked up by a binary search in the table of line starts and by counting characters
behind the start that is found. Reading the text from its start, one character after another, comes
to the same line and column, and every character takes it to a later place.
-/

namespace SchemaCompiler.TypeScript

/-! ## Bytes -/

@[simp]
theorem byteLength_nil : byteLength [] = 0 := rfl

@[simp]
theorem byteLength_cons (c : Char) (chars : List Char) :
    byteLength (c :: chars) = c.utf8Size + byteLength chars := rfl

@[simp]
theorem byteLength_append (front back : List Char) :
    byteLength (front ++ back) = byteLength front + byteLength back := by
  induction front with
  | nil => rw [List.nil_append, byteLength_nil, Nat.zero_add]
  | cons c front ih => rw [List.cons_append, byteLength_cons, byteLength_cons, ih, Nat.add_assoc]

theorem byteLength_toList (s : String) : byteLength s.toList = s.utf8ByteSize := by
  have hlength : ∀ chars, byteLength chars = String.utf8Len chars := by
    intro chars
    induction chars with
    | nil => rfl
    | cons c chars ih => rw [byteLength_cons, String.utf8Len_cons, ih, Nat.add_comm]
  rw [hlength, String.utf8Len_toList]

theorem length_le_byteLength (chars : List Char) : chars.length ≤ byteLength chars := by
  induction chars with
  | nil => exact Nat.le_refl _
  | cons c chars ih =>
    have hpos := c.utf8Size_pos
    rw [List.length_cons, byteLength_cons]
    omega

/-- The bytes of a text are those of its first character and of the rest, and there are some. -/
theorem exists_byteLength_cons (c : Char) (front : List Char) :
    ∃ n, byteLength (c :: front) = n + 1 ∧ c.utf8Size ≤ n + 1 ∧
      n + 1 - c.utf8Size = byteLength front := by
  have hpos := c.utf8Size_pos
  refine ⟨c.utf8Size + byteLength front - 1, ?_, ?_, ?_⟩
  · rw [byteLength_cons]
    omega
  · omega
  · omega

theorem dropBytes?_append (front back : List Char) :
    dropBytes? (byteLength front) (front ++ back) = some back := by
  induction front with
  | nil => rw [byteLength_nil, List.nil_append, dropBytes?]
  | cons c front ih =>
    obtain ⟨n, hlength, hfits, hrest⟩ := exists_byteLength_cons c front
    rw [hlength, List.cons_append, dropBytes?, if_pos hfits, hrest, ih]

theorem takeBytes?_append (front back : List Char) :
    takeBytes? (byteLength front) (front ++ back) = some front := by
  induction front with
  | nil => rw [byteLength_nil, List.nil_append, takeBytes?]
  | cons c front ih =>
    obtain ⟨n, hlength, hfits, hrest⟩ := exists_byteLength_cons c front
    rw [hlength, List.cons_append, takeBytes?, if_pos hfits, hrest, ih, Option.map_some]

theorem bytesBetween?_append (front between back : List Char) :
    bytesBetween? (front ++ (between ++ back)) (byteLength front)
      (byteLength front + byteLength between) = some between := by
  rw [bytesBetween?, if_pos (Nat.le_add_right _ _), dropBytes?_append, Option.bind_some,
    Nat.add_sub_cancel_left, takeBytes?_append]

/-! ## Binary search -/

section PartitionPoint

variable {α : Type} {p : α → Bool} {front back : List α}

theorem any_getElem?_iff (hfront : ∀ a ∈ front, p a = true) (hback : ∀ a ∈ back, p a = false)
    (i : Nat) : (front ++ back)[i]?.any p = true ↔ i < front.length := by
  by_cases hi : i < front.length
  · rw [List.getElem?_append_left hi, List.getElem?_eq_getElem hi, Option.any_some]
    simp [hi, hfront _ (List.getElem_mem hi)]
  · rw [List.getElem?_append_right (by omega)]
    cases hget : back[i - front.length]? with
    | none => simp [hi]
    | some a => simp [hi, hback a (List.mem_of_getElem? hget)]

/-- The part that is searched starts at an item that `p` holds of, or with the list, and reaches up
to the first item that it does not hold of. -/
theorem narrow_append (hfront : ∀ a ∈ front, p a = true) (hback : ∀ a ∈ back, p a = false)
    {base size : Nat} (hbase : base = 0 ∨ base < front.length)
    (hsize : front.length ≤ base + size) :
    narrow p (front ++ back) base size = front.length - 1 := by
  fun_induction narrow p (front ++ back) base size with
  | case1 base size hsmall => omega
  | case2 base size hlarge middle ih =>
    have hmiddle := any_getElem?_iff hfront hback middle
    apply ih
    · split
      · rename_i hany
        exact Or.inr (hmiddle.mp hany)
      · exact hbase
    · split
      · omega
      · rename_i hany
        have hstop : front.length ≤ middle := Nat.le_of_not_lt fun hlt => hany (hmiddle.mpr hlt)
        omega

theorem partitionPoint_append (hfront : ∀ a ∈ front, p a = true)
    (hback : ∀ a ∈ back, p a = false) : partitionPoint p (front ++ back) = front.length := by
  have hlast : narrow p (front ++ back) 0 (front ++ back).length = front.length - 1 :=
    narrow_append hfront hback (Or.inl rfl) (by simp)
  rw [partitionPoint, hlast]
  have hany := any_getElem?_iff hfront hback (front.length - 1)
  split
  · rename_i hheld
    have := hany.mp hheld
    omega
  · rename_i hheld
    have : ¬ front.length - 1 < front.length := fun hlt => hheld (hany.mpr hlt)
    omega

end PartitionPoint

/-! ## The table of line starts -/

theorem lineStartsFrom_append (offset : Nat) (front back : List Char) :
    lineStartsFrom offset (front ++ back) =
      lineStartsFrom offset front ++ lineStartsFrom (offset + byteLength front) back := by
  induction front generalizing offset with
  | nil => rfl
  | cons c front ih =>
    simp only [List.cons_append, lineStartsFrom, ih, byteLength_cons, Nat.add_assoc]
    split <;> rfl

theorem length_lineStartsFrom (offset : Nat) (chars : List Char) :
    (lineStartsFrom offset chars).length = chars.count '\n' := by
  induction chars generalizing offset with
  | nil => rfl
  | cons c chars ih =>
    rw [lineStartsFrom, List.count_cons]
    by_cases hc : c = '\n'
    · simp [hc, ih]
    · simp [hc, ih]

theorem bounds_of_mem_lineStartsFrom {offset start : Nat} {chars : List Char}
    (h : start ∈ lineStartsFrom offset chars) :
    offset < start ∧ start ≤ offset + byteLength chars := by
  induction chars generalizing offset with
  | nil => cases h
  | cons c chars ih =>
    have hpos := c.utf8Size_pos
    have hmem : start = offset + c.utf8Size ∨
        start ∈ lineStartsFrom (offset + c.utf8Size) chars := by
      rw [lineStartsFrom] at h
      split at h
      · exact List.mem_cons.mp h
      · exact Or.inr h
    rw [byteLength_cons]
    rcases hmem with rfl | hmem
    · omega
    · have := ih hmem
      omega

/-- Of the line starts those in front of a cut, and the start of the text, are up to it. -/
theorem partitionPoint_lineStartsOf (before after : List Char) :
    partitionPoint (fun start => decide (start ≤ byteLength before))
      (lineStartsOf (before ++ after)) = before.count '\n' + 1 := by
  rw [lineStartsOf, lineStartsFrom_append, ← List.cons_append, partitionPoint_append,
    List.length_cons, length_lineStartsFrom]
  · intro start hstart
    rcases List.mem_cons.mp hstart with rfl | hstart
    · simp
    · have := bounds_of_mem_lineStartsFrom hstart
      exact decide_eq_true (by omega)
  · intro start hstart
    have := bounds_of_mem_lineStartsFrom hstart
    exact decide_eq_false (by omega)

/-! ## The last line -/

/-- What stands behind the last line feed of a text. -/
def lastLine (chars : List Char) : List Char := chars.rtakeWhile (· != '\n')

/-- A text up to its last line feed. -/
def earlierLines (chars : List Char) : List Char := chars.rdropWhile (· != '\n')

theorem earlierLines_append_lastLine (chars : List Char) :
    earlierLines chars ++ lastLine chars = chars :=
  List.rdropWhile_append_rtakeWhile

theorem lastLine_concat (chars : List Char) (c : Char) :
    lastLine (chars ++ [c]) = if c = '\n' then [] else lastLine chars ++ [c] := by
  rw [lastLine, List.rtakeWhile_concat]
  by_cases hc : c = '\n'
  · simp [hc]
  · simp [hc, lastLine]

theorem earlierLines_concat (chars : List Char) (c : Char) :
    earlierLines (chars ++ [c]) = if c = '\n' then chars ++ [c] else earlierLines chars := by
  rw [earlierLines, List.rdropWhile_concat]
  by_cases hc : c = '\n'
  · simp [hc]
  · simp [hc, earlierLines]

/-- The start of the line that a cut is in. It stands in the table behind as many entries as there
are line feeds in front of the cut. -/
theorem getElem?_lineStartsOf (before after : List Char) :
    (lineStartsOf (before ++ after))[before.count '\n']? =
      some (byteLength (earlierLines before)) := by
  induction before using List.reverseRecOn generalizing after with
  | nil => rfl
  | append_singleton before c ih =>
    rw [earlierLines_concat, List.append_assoc, List.count_append]
    by_cases hc : c = '\n'
    · -- The line feed makes the entry behind those of the line feeds in front of it.
      subst hc
      rw [if_pos rfl, lineStartsOf, lineStartsFrom_append, List.count_singleton_self,
        List.getElem?_cons_succ, ← length_lineStartsFrom 0 before,
        List.getElem?_append_right (Nat.le_refl _), Nat.sub_self]
      simp [lineStartsFrom]
    · rw [if_neg hc, List.count_singleton, if_neg (by simpa using hc), Nat.add_zero]
      exact ih ([c] ++ after)

/-! ## Reading on -/

/-- One place stands before another, on an earlier line or further left. -/
def Precedes : Nat × Nat → Nat × Nat → Prop := Prod.Lex (· < ·) (· < ·)

theorem stepPlace_precedes (place : Nat × Nat) (c : Char) : Precedes place (stepPlace place c) := by
  rw [Precedes, Prod.lex_def, stepPlace]
  split
  · exact Or.inl (Nat.lt_succ_self _)
  · exact Or.inr ⟨rfl, Nat.lt_succ_self _⟩

theorem foldl_stepPlace_precedes (place : Nat × Nat) {chars : List Char} (h : chars ≠ []) :
    Precedes place (chars.foldl stepPlace place) := by
  induction chars generalizing place with
  | nil => exact absurd rfl h
  | cons c chars ih =>
    rw [List.foldl_cons]
    have hfirst := stepPlace_precedes place c
    cases chars with
    | nil => exact hfirst
    | cons d more => exact Prod.Lex.trans hfirst (ih _ (List.cons_ne_nil d more))

theorem foldl_stepPlace_eq (chars : List Char) :
    chars.foldl stepPlace (1, 1) = (1 + chars.count '\n', 1 + (lastLine chars).length) := by
  induction chars using List.reverseRecOn with
  | nil => rfl
  | append_singleton chars c ih =>
    rw [List.foldl_append, ih, List.foldl_cons, List.foldl_nil, stepPlace, lastLine_concat,
      List.count_append]
    by_cases hc : c = '\n'
    · simp [hc, Nat.add_assoc]
    · simp [hc, Nat.add_assoc]

/-! ## Looking up -/

theorem BytePos.succ_offset_lt (pos : BytePos) : pos.offset + 1 < UInt32.size := by
  have hlt := pos.toNat_lt_size
  have hsize : 1 < UInt32.size := by decide
  rw [BytePos.offset]
  omega

theorem toNat_ofNat_add_one {n : Nat} (h : n + 1 < UInt32.size) :
    (UInt32.ofNat n + 1).toNat = 1 + n := by
  have hsucc : UInt32.ofNat n + 1 = UInt32.ofNat (n + 1) := (UInt32.ofNat_add n 1).symm
  rw [hsucc, UInt32.toNat_ofNat_of_lt' h, Nat.add_comm]

/-- Looking up a position comes to the place that reading the text up to it comes to. The numbers
stay within 32 bits, as every position does. -/
theorem locate_append (before after : List Char) {pos : BytePos}
    (h : pos.offset = byteLength before) :
    (SourceText.ofChars (before ++ after)).locate pos = before.foldl stepPlace (1, 1) := by
  have hoffset : min pos.offset (byteLength (before ++ after)) = byteLength before := by
    rw [byteLength_append]
    omega
  have hcolumn : bytesBetween? (before ++ after) (byteLength (earlierLines before))
      (byteLength before) = some (lastLine before) := by
    have hbetween := bytesBetween?_append (earlierLines before) (lastLine before) after
    rwa [← List.append_assoc, ← byteLength_append, earlierLines_append_lastLine] at hbetween
  -- A character takes at least one byte, so neither number is larger than the position.
  have hbound := pos.succ_offset_lt
  have hlength := length_le_byteLength before
  have hcount : before.count '\n' ≤ before.length := List.count_le_length
  have hlast : (lastLine before).length ≤ before.length := (List.rtakeWhile_suffix _ _).length_le
  simp only [SourceText.locate, SourceText.ofChars, hoffset, partitionPoint_lineStartsOf,
    Nat.add_sub_cancel, getElem?_lineStartsOf, Option.getD_some, hcolumn, Option.map_some]
  rw [toNat_ofNat_add_one (by omega), toNat_ofNat_add_one (by omega), foldl_stepPlace_eq]

/-- The characters in front of a place between two characters. -/
def charsBefore {source : String} (p : source.Pos) : List Char := (source.sliceTo p).copy.toList

theorem locate_ofString {source : String} (p : source.Pos) {pos : BytePos}
    (h : pos.offset = p.offset.byteIdx) :
    (SourceText.ofString source).locate pos = (charsBefore p).foldl stepPlace (1, 1) := by
  have hsplit := p.splits
  have hpos : pos.offset = byteLength (charsBefore p) := by
    rw [charsBefore, byteLength_toList, h, hsplit.offset_eq_rawEndPos, String.byteIdx_rawEndPos]
  have hsource : source.toList = charsBefore p ++ (source.sliceFrom p).copy.toList := by
    rw [charsBefore, ← String.toList_append, ← hsplit.eq_append]
  rw [SourceText.ofString, hsource, locate_append _ _ hpos]

theorem charsBefore_of_lt {source : String} {p q : source.Pos} (h : p < q) :
    ∃ between, between ≠ [] ∧ charsBefore q = charsBefore p ++ between := by
  obtain ⟨between, hne, heq, -⟩ := (p.splits.lt_iff_exists_eq_append q.splits).mp h
  refine ⟨between.toList, fun hnil => hne (String.toList_eq_nil_iff.mp hnil), ?_⟩
  rw [charsBefore, heq, String.toList_append, charsBefore]

/-- A position between two characters of a text, or at an end of it, is on the line behind as many
line feeds as stand in front of it, and in the column behind as many characters as stand between the
last of them and it. Of two positions the later one has the later place. -/
theorem locate_counts (source : String) (p : source.Pos) (pos : BytePos)
    (h : pos.offset = p.offset.byteIdx) :
    (SourceText.ofString source).locate pos =
        (1 + (charsBefore p).count '\n', 1 + (lastLine (charsBefore p)).length) ∧
      ∀ (q : source.Pos) (later : BytePos), later.offset = q.offset.byteIdx → p < q →
        Precedes ((SourceText.ofString source).locate pos)
          ((SourceText.ofString source).locate later) := by
  refine ⟨by rw [locate_ofString p h, foldl_stepPlace_eq], fun q later hlater hlt => ?_⟩
  obtain ⟨between, hne, hq⟩ := charsBefore_of_lt hlt
  rw [locate_ofString p h, locate_ofString q hlater, hq, List.foldl_append]
  exact foldl_stepPlace_precedes _ hne

/-- The two ends of a text with characters of two bytes. -/
theorem locate_counts_accented :
    (6 : BytePos).offset = "é\nы".endPos.offset.byteIdx ∧
      (SourceText.ofString "é\nы").locate 6 = (2, 2) ∧
      Precedes ((SourceText.ofString "é\nы").locate 1) ((SourceText.ofString "é\nы").locate 6) := by
  have hfirst : (1 : BytePos).offset = "é\nы".startPos.offset.byteIdx := by decide
  have hlast : (6 : BytePos).offset = "é\nы".endPos.offset.byteIdx := by decide
  have hlt : "é\nы".startPos < "é\nы".endPos := by decide
  have hbefore : charsBefore "é\nы".endPos = ['é', '\n', 'ы'] := by
    rw [charsBefore, String.sliceTo_endPos, String.copy_toSlice]
    rfl
  obtain ⟨hplace, -⟩ := locate_counts "é\nы" "é\nы".endPos 6 hlast
  obtain ⟨-, hprecedes⟩ := locate_counts "é\nы" "é\nы".startPos 1 hfirst
  refine ⟨hlast, ?_, hprecedes "é\nы".endPos 6 hlast hlt⟩
  rw [hplace, hbefore]
  decide

end SchemaCompiler.TypeScript

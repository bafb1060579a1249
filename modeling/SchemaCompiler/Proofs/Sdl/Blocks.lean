import SchemaCompiler.Proofs.DocComment
import SchemaCompiler.Proofs.Sdl.Strings

/-!
# Blocks in documents

A text of several lines is written as a block, if nothing in it is unprintable: each line at an
indentation, lines of blanks empty, and three quotes in a row guarded. A reader takes the indentation
off again, and the lines of blanks at the ends, and it takes a carriage return for a line end. So it
reads the text as it was only when no line is indented that all others are indented with, no line is
blank at the ends, and none in between consists of blanks.
-/

namespace SchemaCompiler.GraphQL

open Text

variable {indent : Nat} {cs line : List Char} {parts : List (List Char)}

/-! ## Reading a block that was written -/

/-- A line as a block shows it. -/
def shownLine (indent : Nat) (line : List Char) : List Char :=
  if line.all isBlank then [] else blanks indent ++ line

/-- What stands between the quotes of a block, without guards. -/
def rawBlock (indent : Nat) (cs : List Char) : List Char :=
  ([] :: (lines cs).map (shownLine (indent + 2))).flatMap (· ++ ['\n']) ++ blanks indent

theorem blockText?_cons {c : Char} (hquote : c ≠ '"') (hslash : c ≠ '\\')
    (hchar : isBlockChar c = true) (rest : List Char) :
    blockText? (c :: rest) = (blockText? rest).map (ahead [c]) := by
  rw [blockText?]
  · exact if_pos hchar
  · exact fun _ h _ => hquote h
  · exact fun _ h _ => hslash h

theorem blockText?_blanks (n : Nat) (rest : List Char) :
    blockText? (blanks n ++ rest) = (blockText? rest).map (ahead (blanks n)) := by
  induction n with
  | zero => simp [blanks]
  | succ n ih =>
    rw [blanks, List.replicate_succ, List.cons_append,
      blockText?_cons (by decide) (by decide) (by decide), ← blanks, ih, Option.map_map, ahead_comp,
      List.singleton_append]

/-- A quote in a guarded text was one in the text. -/
theorem exists_of_guardQuotes_append {rest more : List Char} (hrest : rest.head? ≠ some '"')
    (h : guardQuotes line ++ rest = '"' :: more) :
    ∃ line', line = '"' :: line' ∧ guardQuotes line' ++ rest = more := by
  fun_cases guardQuotes line with
  | case1 line' => simp [guardQuotes] at h
  | case2 c line' hguard =>
    rw [guardQuotes, List.cons_append, List.cons.injEq] at h
    · exact ⟨line', by rw [h.1], h.2⟩
    · exact hguard
  | case3 =>
    rw [guardQuotes, List.nil_append] at h
    simp [h] at hrest

/-- Guards are read as what they guard. -/
theorem blockText?_guardQuotes (hline : ∀ c ∈ line, isBlockChar c = true)
    {rest : List Char} (hrest : rest.head? ≠ some '"') :
    blockText? (guardQuotes line ++ rest) = (blockText? rest).map (ahead line) := by
  fun_induction guardQuotes line with
  | case1 line ih =>
    have hall := fun c hc => hline c (List.mem_cons_of_mem _ (List.mem_cons_of_mem _
      (List.mem_cons_of_mem _ hc)))
    simp only [List.cons_append]
    rw [blockText?, ih hall, Option.map_map, ahead_comp]
    rfl
  | case2 c line hguard ih =>
    obtain ⟨hc, hline⟩ := List.forall_mem_cons.mp hline
    have hquotes (more : List Char) :
        c = '"' → guardQuotes line ++ rest = '"' :: '"' :: more → False := by
      intro hc h
      obtain ⟨line₁, h₁, h⟩ := exists_of_guardQuotes_append hrest h
      obtain ⟨line₂, h₂, -⟩ := exists_of_guardQuotes_append hrest h
      exact hguard line₂ hc (by rw [h₁, h₂])
    have hguarded (more : List Char) :
        c = '\\' → guardQuotes line ++ rest = '"' :: '"' :: '"' :: more → False := by
      intro _ h
      obtain ⟨line₁, h₁, h'⟩ := exists_of_guardQuotes_append hrest h
      obtain ⟨line₂, h₂, h'⟩ := exists_of_guardQuotes_append hrest h'
      obtain ⟨line₃, h₃, -⟩ := exists_of_guardQuotes_append hrest h'
      simp [h₁, h₂, h₃, guardQuotes] at h
    rw [List.cons_append, blockText?]
    · rw [if_pos hc, ih hline, Option.map_map, ahead_comp, List.singleton_append]
    · exact hquotes
    · exact hguarded
  | case3 => simp

theorem blockText?_blockLine (hline : ∀ c ∈ line, isBlockChar c = true) (rest : List Char) :
    blockText? (blockLine indent line ++ rest) =
      (blockText? rest).map (ahead (shownLine indent line ++ ['\n'])) := by
  have hfeed : blockText? ('\n' :: rest) = (blockText? rest).map (ahead ['\n']) :=
    blockText?_cons (by decide) (by decide) (by decide) rest
  unfold blockLine shownLine
  split
  · exact hfeed
  · rw [List.append_assoc, List.append_assoc, blockText?_blanks,
      blockText?_guardQuotes hline (by simp), List.singleton_append, hfeed]
    simp only [Option.map_map, ahead_comp, List.append_assoc]

theorem dropHead_subset (mark : Char) (cs : List Char) : dropHead mark cs ⊆ cs := by
  cases cs with
  | nil => exact List.Subset.refl _
  | cons c cs =>
    rw [dropHead]
    split
    · exact List.subset_cons_self _ _
    · exact List.Subset.refl _

theorem mem_of_mem_linesFrom {current : List Char} (hline : line ∈ linesFrom current cs)
    {c : Char} (hc : c ∈ line) : c ∈ current ∨ (c ∈ cs ∧ c ≠ '\n') := by
  fun_induction linesFrom current cs generalizing line with
  | case1 current hempty => cases hline
  | case2 current hempty =>
    rw [List.mem_singleton.mp hline, List.mem_reverse] at hc
    exact Or.inl hc
  | case3 current cs ih =>
    rcases List.mem_cons.mp hline with rfl | hline
    · exact Or.inl (dropHead_subset _ _ (List.mem_reverse.mp hc))
    · have h := (ih hline hc).resolve_left List.not_mem_nil
      exact Or.inr ⟨List.mem_cons_of_mem _ h.1, h.2⟩
  | case4 current c' cs hne ih =>
    rcases ih hline hc with h | h
    · rcases List.mem_cons.mp h with rfl | h
      · exact Or.inr ⟨List.mem_cons_self, hne⟩
      · exact Or.inl h
    · exact Or.inr ⟨List.mem_cons_of_mem _ h.1, h.2⟩

theorem mem_of_mem_lines (hline : line ∈ lines cs) {c : Char}
    (hc : c ∈ line) : c ∈ cs ∧ c ≠ '\n' :=
  (mem_of_mem_linesFrom hline hc).resolve_left List.not_mem_nil

theorem isBlockText_iff :
    isBlockText cs = true ↔ '\n' ∈ cs ∧ ∀ c ∈ cs, isBlockChar c = true := by
  rw [isBlockText, Bool.and_eq_true, List.contains_iff_mem, List.all_eq_true]
  rfl

/-- A block is read up to its closing quotes. -/
theorem blockText?_lines (hparts : ∀ line ∈ parts, ∀ c ∈ line, isBlockChar c = true)
    (rest : List Char) :
    blockText? (parts.flatMap (blockLine indent) ++ rest) =
      (blockText? rest).map (ahead ((parts.map (shownLine indent)).flatMap (· ++ ['\n']))) := by
  induction parts with
  | nil => simp
  | cons line parts ih =>
    obtain ⟨hline, hparts⟩ := List.forall_mem_cons.mp hparts
    rw [List.flatMap_cons, List.append_assoc, blockText?_blockLine hline, ih hparts, Option.map_map,
      ahead_comp, List.map_cons, List.flatMap_cons]

theorem blockText?_block (hblock : isBlockText cs = true) (rest : List Char) :
    blockText? ('\n' :: (lines cs).flatMap (blockLine (indent + 2)) ++ blanks indent ++
      '"' :: '"' :: '"' :: rest) = some (rawBlock indent cs, rest) := by
  have hlines : ∀ line ∈ lines cs, ∀ c ∈ line, isBlockChar c = true := fun line hline c hc =>
    (isBlockText_iff.mp hblock).2 c (mem_of_mem_lines hline hc).1
  rw [List.append_assoc, List.cons_append, blockText?_cons (by decide) (by decide) (by decide),
    blockText?_lines hlines, blockText?_blanks, blockText?]
  simp [ahead, rawBlock]

/-! ## Strings -/

/-- What is read of a string that is written at an indentation. -/
def reread (indent : Nat) (cs : List Char) : List Char :=
  if isBlockText cs then blockValue (rawBlock indent cs) else cs.flatMap rereadChar

/-- No written character starts with a quote. -/
theorem exists_quotedChar (c : Char) : ∃ d ds, quotedChar c = d :: ds ∧ d ≠ '"' := by
  unfold quotedChar
  split_ifs with _ _ _ hquote
  all_goals first
    | exact ⟨_, _, rfl, hquote⟩
    | exact ⟨_, _, rfl, by decide⟩

theorem string?_stringChars (indent : Nat) (cs : List Char) {rest : List Char}
    (hrest : rest.head? ≠ some '"') :
    string? (stringChars indent cs ++ rest) = some (reread indent cs, rest) := by
  unfold stringChars reread
  split
  · rename_i hblock
    have hread := @blockText?_block indent _ hblock rest
    rw [List.append_assoc, List.cons_append] at hread
    simp only [tripleQuote, List.cons_append, List.nil_append, List.append_assoc, string?, hread]
    rfl
  · have hopen : ∀ more, cs.flatMap quotedChar ++ '"' :: rest ≠ '"' :: '"' :: more := by
      intro more h
      cases cs with
      | nil =>
        rw [(List.cons.inj h).2] at hrest
        exact hrest rfl
      | cons c cs =>
        obtain ⟨d, ds, hc, hd⟩ := exists_quotedChar c
        rw [List.flatMap_cons, hc] at h
        exact hd (List.cons.inj h).1
    rw [List.append_assoc, List.cons_append, string?]
    · exact quotedText?_quoted cs rest
    · exact hopen

/-! ## Blocks that are read as they were written -/

/-- Lines that a block keeps. The first one and the last one have more than blanks, so that none is
taken off; a line in between that is blank is empty, since it is written so; and some line starts at
the margin. -/
structure LegibleLines (parts : List (List Char)) : Prop where
  first : ∀ line ∈ parts.head?, line.all isBlank = false
  last : ∀ line ∈ parts.getLast?, line.all isBlank = false
  blank : ∀ line ∈ parts, line.all isBlank = true → line = []
  margin : ∃ line ∈ parts, ∃ c ∈ line.head?, isIndent c = false

/-- A text of several lines that a block keeps. -/
def LegibleBlock (cs : List Char) : Prop := '\r' ∉ cs ∧ LegibleLines (cs.splitOn '\n')

theorem lineFeeds_eq_self (h : '\r' ∉ cs) : lineFeeds cs = cs := by
  fun_induction lineFeeds cs with
  | case1 rest ih => simp at h
  | case2 c rest hreturn ih =>
    rw [List.mem_cons, not_or] at h
    rw [if_neg (Ne.symm h.1), ih h.2]
  | case3 => rfl

theorem return_not_mem_lineFeeds (cs : List Char) : '\r' ∉ lineFeeds cs := by
  fun_induction lineFeeds cs with
  | case1 rest ih => simpa using ih
  | case2 c rest hreturn ih =>
    rw [List.mem_cons, not_or]
    refine ⟨?_, ih⟩
    split
    · decide
    · exact Ne.symm ‹_›
  | case3 => exact List.not_mem_nil

/-- Lines that end with a line feed, in front of a last one. -/
theorem intercalate_concat (parts : List (List Char)) (last : List Char) :
    ['\n'].intercalate (parts ++ [last]) = parts.flatMap (· ++ ['\n']) ++ last := by
  induction parts with
  | nil => rw [List.nil_append, List.intercalate_singleton, List.flatMap_nil, List.nil_append]
  | cons line parts ih =>
    rw [List.cons_append, List.intercalate_cons_of_ne_nil (by simp), ih, List.flatMap_cons]
    simp only [List.append_assoc]

theorem linesFrom_eq_singleton {current : List Char} (h : '\n' ∉ cs) (hne : current ++ cs ≠ []) :
    linesFrom current cs = [current.reverse ++ cs] := by
  induction cs generalizing current with
  | nil => simpa [linesFrom] using hne
  | cons c cs ih =>
    rw [List.mem_cons, not_or] at h
    rw [linesFrom, if_neg (Ne.symm h.1), ih h.2 (by simp), List.reverse_cons, List.append_assoc,
      List.singleton_append]

/-- The lines of a text without carriage returns are its parts, but for an empty one at its end. -/
theorem lines_of_splitOn {last : List Char} (hreturn : '\r' ∉ cs)
    (hparts : cs.splitOn '\n' = parts ++ [last]) (hlast : last ≠ []) :
    lines cs = cs.splitOn '\n' := by
  have hcs : cs = parts.flatMap (· ++ ['\n']) ++ last := by
    rw [← intercalate_concat, ← hparts, List.intercalate_splitOn]
  have hfeed : ∀ line ∈ parts ++ [last], '\n' ∉ line := fun line hline =>
    not_mem_of_mem_splitOn (hparts ▸ hline)
  rw [List.forall_mem_append, List.forall_mem_singleton] at hfeed
  have hreturns : ∀ line ∈ parts, line.getLast? ≠ some '\r' := fun line hline hr => by
    refine hreturn (hcs ▸ List.mem_append_left _ (List.mem_flatMap.mpr ⟨line, hline, ?_⟩))
    exact List.mem_append_left _ (List.mem_of_getLast? hr)
  have hrest : lines last = [last] := linesFrom_eq_singleton hfeed.2 hlast
  calc lines cs = lines (parts.flatMap (· ++ ['\n']) ++ last) := by rw [← hcs]
    _ = parts ++ lines last := lines_terminated hfeed.1 hreturns last
    _ = cs.splitOn '\n' := by rw [hrest, hparts]

/-! ### Margins and ends -/

theorem isBlank_of_isIndent {c : Char} (h : isIndent c = true) : isBlank c = true := by
  rw [isIndent, Bool.or_eq_true, decide_eq_true_iff, decide_eq_true_iff] at h
  rcases h with rfl | rfl <;> rfl

theorem isIndentOnly_blanks (n : Nat) : isIndentOnly (blanks n) = true :=
  List.all_eq_true.mpr fun _ hc => List.eq_of_mem_replicate hc ▸ rfl

theorem drop_blanks (n m : Nat) : (blanks n).drop m = blanks (n - m) := List.drop_replicate

/-- A shown line is blank exactly when the line is. -/
theorem isIndentOnly_shownLine (indent : Nat) (line : List Char) :
    isIndentOnly (shownLine indent line) = line.all isBlank := by
  unfold shownLine
  split
  · rename_i h
    exact h.symm
  · rename_i h
    rw [isIndentOnly, List.all_append, ← isIndentOnly, isIndentOnly_blanks, Bool.true_and,
      Bool.eq_false_iff.mpr h, Bool.eq_false_iff]
    exact fun hall => h (List.all_eq_true.mpr fun c hc =>
      isBlank_of_isIndent (List.all_eq_true.mp hall c hc))

theorem indentOf_blanks_append (n : Nat) (line : List Char) :
    indentOf (blanks n ++ line) = n + indentOf line := by
  rw [indentOf, List.takeWhile_append_of_pos (List.all_eq_true.mp (isIndentOnly_blanks n)),
    List.length_append, blanks, List.length_replicate, indentOf]

theorem indentOf_eq_zero_iff :
    indentOf line = 0 ↔ ∀ c ∈ line.head?, isIndent c = false := by
  cases line with
  | nil => simp [indentOf]
  | cons c line => cases hc : isIndent c <;> simp [indentOf, hc]

theorem isInfix_withoutEnds (parts : List (List Char)) : withoutEnds parts <:+: parts :=
  (List.rdropWhile_prefix _ _).isInfix.trans (List.dropWhile_suffix _).isInfix

theorem head?_withoutEnds (h : line ∈ (withoutEnds parts).head?) : isIndentOnly line = false := by
  have hdropped : (parts.dropWhile isIndentOnly).head? = some line := by
    obtain ⟨behind, hbehind⟩ := List.rdropWhile_prefix isIndentOnly (parts.dropWhile isIndentOnly)
    rw [← hbehind, List.head?_append, ← withoutEnds, Option.mem_def.mp h, Option.some_or]
  have hnot := List.head?_dropWhile_not isIndentOnly parts
  rw [hdropped] at hnot
  exact hnot

theorem getLast?_withoutEnds (h : line ∈ (withoutEnds parts).getLast?) :
    isIndentOnly line = false := by
  obtain ⟨hne, rfl⟩ := List.mem_getLast?_eq_getLast h
  exact Bool.eq_false_iff.mpr (List.rdropWhile_last_not _ _ hne)

/-- Blank lines around others are taken off. -/
theorem withoutEnds_padded (hne : parts ≠ [])
    (hfirst : ∀ line ∈ parts.head?, isIndentOnly line = false)
    (hlast : ∀ line ∈ parts.getLast?, isIndentOnly line = false) :
    withoutEnds ([] :: parts ++ [[]]) = parts := by
  obtain ⟨first, more, rfl⟩ := List.exists_cons_of_ne_nil hne
  rw [withoutEnds, List.cons_append, List.dropWhile_cons_of_pos rfl, List.cons_append,
    List.dropWhile_cons_of_neg (by simp [hfirst first rfl]), ← List.cons_append,
    List.rdropWhile_concat_pos _ _ _ rfl, List.rdropWhile_eq_self_iff]
  intro _
  rw [Bool.not_eq_true]
  exact hlast _ (List.getLast_mem_getLast? _)

/-! ### The lines of a block -/

theorem mem_of_mem_shownLine {c : Char} (h : c ∈ shownLine indent line) :
    c = ' ' ∨ c ∈ line := by
  unfold shownLine at h
  split at h
  · cases h
  · exact (List.mem_append.mp h).imp_left List.eq_of_mem_replicate

theorem return_not_mem_intercalate (h : ∀ line ∈ parts, '\r' ∉ line) :
    '\r' ∉ ['\n'].intercalate parts := by
  rw [← joinWith_eq_intercalate]
  intro hmem
  rcases mem_joinWith hmem with hmem | ⟨line, hline, hmem⟩
  · simp at hmem
  · exact h line hline hmem

/-- The lines of a block that was written. -/
theorem splitOn_rawBlock (hreturn : '\r' ∉ cs) :
    (lineFeeds (rawBlock indent cs)).splitOn '\n' =
      [] :: ((lines cs).map (shownLine (indent + 2)) ++ [blanks indent]) := by
  have hraw : rawBlock indent cs = ['\n'].intercalate
      ([] :: (lines cs).map (shownLine (indent + 2)) ++ [blanks indent]) :=
    (intercalate_concat _ _).symm
  have hlines : ∀ line ∈ [] :: (lines cs).map (shownLine (indent + 2)) ++ [blanks indent],
      ∀ c ∈ line, c ≠ '\r' ∧ c ≠ '\n' := by
    have hblank : ∀ c ∈ blanks indent, c ≠ '\r' ∧ c ≠ '\n' := fun c hc => by
      rw [List.eq_of_mem_replicate hc]
      decide
    simp only [List.cons_append, List.forall_mem_cons, List.forall_mem_append, List.forall_mem_map,
      List.not_mem_nil, false_implies, implies_true, true_and, and_true]
    refine ⟨fun line hline c hc => ?_, hblank⟩
    rcases mem_of_mem_shownLine hc with rfl | hc
    · decide
    · obtain ⟨hcs, hfeed⟩ := mem_of_mem_lines hline hc
      exact ⟨ne_of_mem_of_not_mem hcs hreturn, hfeed⟩
  have hnone : '\r' ∉ rawBlock indent cs :=
    hraw ▸ return_not_mem_intercalate fun line hline h => (hlines line hline _ h).1 rfl
  rw [lineFeeds_eq_self hnone, hraw, List.splitOn_intercalate]
  · rfl
  · exact fun line hline h => (hlines line hline _ h).2 rfl
  · simp

theorem subset_of_mem_withoutMargin (hline : line ∈ withoutMargin parts) :
    ∃ part ∈ parts, line ⊆ part := by
  cases parts with
  | nil => cases hline
  | cons first rest =>
    rcases List.mem_cons.mp hline with rfl | hline
    · exact ⟨_, List.mem_cons_self, List.Subset.refl _⟩
    · obtain ⟨part, hpart, rfl⟩ := List.mem_map.mp hline
      exact ⟨part, List.mem_cons_of_mem _ hpart, List.drop_subset _ _⟩

theorem subset_intercalate (mark : List Char) (hline : line ∈ parts) :
    line ⊆ mark.intercalate parts := by
  cases parts with
  | nil => cases hline
  | cons first more =>
    rw [intercalate_cons]
    rcases List.mem_cons.mp hline with rfl | hline
    · exact List.subset_append_left _ _
    · exact fun c hc => List.mem_append_right _
        (List.mem_flatMap.mpr ⟨line, hline, List.mem_append_right _ hc⟩)

/-- No line of what is read has a carriage return or a line feed. -/
theorem not_mem_of_mem_blockLines (cs : List Char)
    (hline : line ∈ withoutEnds (withoutMargin ((lineFeeds cs).splitOn '\n'))) :
    '\r' ∉ line ∧ '\n' ∉ line := by
  obtain ⟨part, hpart, hsubset⟩ := subset_of_mem_withoutMargin ((isInfix_withoutEnds _).subset hline)
  refine ⟨fun h => return_not_mem_lineFeeds cs ?_,
    fun h => not_mem_of_mem_splitOn hpart (hsubset h)⟩
  have hread := subset_intercalate ['\n'] hpart (hsubset h)
  rwa [List.intercalate_splitOn] at hread

/-- Between an empty line and a blank one, lines stay when none of them is taken off. -/
theorem withoutEnds_eq_of_length {last : List Char}
    (hlast : isIndentOnly last = true) (hne : withoutEnds ([] :: parts ++ [last]) ≠ [])
    (hlength : (withoutEnds ([] :: parts ++ [last])).length = parts.length) :
    withoutEnds ([] :: parts ++ [last]) = parts := by
  obtain ⟨front, behind, hsplit⟩ := isInfix_withoutEnds ([] :: parts ++ [last])
  have hhead := fun line => @head?_withoutEnds line ([] :: parts ++ [last])
  have hend := fun line => @getLast?_withoutEnds line ([] :: parts ++ [last])
  set kept := withoutEnds ([] :: parts ++ [last])
  rw [eq_comm] at hsplit
  have hlengths := congrArg List.length hsplit
  simp only [List.length_append, List.length_cons, List.length_nil] at hlengths
  cases front with
  | nil =>
    obtain ⟨first, more, hkept⟩ := List.exists_cons_of_ne_nil hne
    rw [hkept, List.nil_append, List.cons_append, List.cons_append, List.cons.injEq] at hsplit
    have hfirst := hhead first (by rw [hkept]; rfl)
    rw [← hsplit.1] at hfirst
    cases hfirst
  | cons first front =>
    rcases List.eq_nil_or_concat' behind with rfl | ⟨behind, final, rfl⟩
    · rw [List.append_nil] at hsplit
      have hfinal : kept.getLast? = some last := by
        rw [← List.getLast?_append_of_ne_nil (first :: front) hne, ← hsplit, List.getLast?_concat]
      rw [hend last hfinal] at hlast
      cases hlast
    · simp only [List.length_append, List.length_cons, List.length_nil] at hlengths
      obtain rfl : front = [] := List.length_eq_zero_iff.mp (by omega)
      obtain rfl : behind = [] := List.length_eq_zero_iff.mp (by omega)
      have htail : parts ++ [last] = kept ++ [final] := by simpa using (List.cons.inj hsplit).2
      exact (List.append_inj_left' htail rfl).symm

/-! ### What a block keeps -/

/-- How far the lines are indented that are shown and have more than blanks. -/
theorem mem_indents_iff {n k : Nat} (hblank : ∀ line ∈ parts, line.all isBlank = true → line = []) :
    k ∈ ((parts.map (shownLine n) ++ [blanks indent]).filter (!isIndentOnly ·)).map indentOf ↔
      ∃ line ∈ parts, line ≠ [] ∧ n + indentOf line = k := by
  have hshown : ∀ line ∈ parts, (!isIndentOnly (shownLine n line)) = true ∧
      indentOf (shownLine n line) = k ↔ line ≠ [] ∧ n + indentOf line = k := fun line hline => by
    rw [isIndentOnly_shownLine]
    by_cases h : line.all isBlank = true
    · simp [hblank line hline h]
    · have hne : line ≠ [] := by
        rintro rfl
        exact h rfl
      simp [shownLine, h, hne, indentOf_blanks_append]
  simp only [List.mem_map, List.mem_filter, List.mem_append, List.mem_singleton]
  constructor
  · rintro ⟨_, ⟨⟨line, hline, rfl⟩ | rfl, hkept⟩, hk⟩
    · exact ⟨line, hline, (hshown line hline).mp ⟨hkept, hk⟩⟩
    · simp [isIndentOnly_blanks] at hkept
  · rintro ⟨line, hline, h⟩
    obtain ⟨hkept, hk⟩ := (hshown line hline).mpr h
    exact ⟨_, ⟨Or.inl ⟨line, hline, rfl⟩, hkept⟩, hk⟩

/-- The margin of the shown lines is the indentation that they were given, unless all of them have
one of their own. -/
theorem margin_eq_iff {n : Nat} (hn : n ≠ 0)
    (hblank : ∀ line ∈ parts, line.all isBlank = true → line = []) :
    margin (parts.map (shownLine n) ++ [blanks indent]) = n ↔
      ∃ line ∈ parts, ∃ c ∈ line.head?, isIndent c = false := by
  have hmem (k : Nat) := @mem_indents_iff indent parts n k hblank
  have hhead (line : List Char) :
      (line ≠ [] ∧ indentOf line = 0) ↔ ∃ c ∈ line.head?, isIndent c = false := by
    rw [indentOf_eq_zero_iff]
    cases line <;> simp
  simp only [← hhead, margin]
  cases hmin : (((parts.map (shownLine n) ++ [blanks indent]).filter
      (!isIndentOnly ·)).map indentOf).min? with
  | none =>
    rw [List.min?_eq_none_iff] at hmin
    refine iff_of_false (Ne.symm hn) ?_
    rintro ⟨line, hline, hne, -⟩
    have h := (hmem _).mpr ⟨line, hline, hne, rfl⟩
    rw [hmin] at h
    cases h
  | some k =>
    obtain ⟨hk, hleast⟩ := List.min?_eq_some_iff.mp hmin
    rw [Option.getD_some]
    obtain ⟨line, hline, hne, hk⟩ := (hmem k).mp hk
    constructor
    · rintro rfl
      exact ⟨line, hline, hne, by omega⟩
    · rintro ⟨line', hline', hne', hzero⟩
      have hle := hleast _ ((hmem _).mpr ⟨line', hline', hne', rfl⟩)
      omega

/-- What is read of lines that a block shows. -/
def reshown (indent : Nat) (parts : List (List Char)) : List (List Char) :=
  let shown := parts.map (shownLine (indent + 2)) ++ [blanks indent]
  withoutEnds ([] :: shown.map (·.drop (margin shown)))

theorem lines_rawBlock (hreturn : '\r' ∉ cs) :
    withoutEnds (withoutMargin ((lineFeeds (rawBlock indent cs)).splitOn '\n')) =
      reshown indent (lines cs) := by
  rw [splitOn_rawBlock hreturn]
  rfl

section Kept

variable (hblank : line.all isBlank = true → line = [])
include hblank

theorem drop_shownLine (n : Nat) : (shownLine n line).drop n = line := by
  unfold shownLine
  split
  · rw [hblank ‹_›, List.drop_nil]
  · rw [List.drop_append_of_le_length (by simp [blanks]), drop_blanks, Nat.sub_self]
    rfl

theorem isIndentOnly_eq : isIndentOnly line = line.all isBlank := by
  have hshown : shownLine 0 line = line := drop_shownLine hblank 0
  rw [← isIndentOnly_shownLine 0, hshown]

end Kept

theorem reshown_of_legible (h : LegibleLines parts) : reshown indent parts = parts := by
  have hmargin : margin (parts.map (shownLine (indent + 2)) ++ [blanks indent]) = indent + 2 :=
    (margin_eq_iff (by omega) h.blank).mpr h.margin
  have hne : parts ≠ [] := by
    obtain ⟨line, hline, -⟩ := h.margin
    exact List.ne_nil_of_mem hline
  have hdropped : (parts.map (shownLine (indent + 2))).map (·.drop (indent + 2)) = parts := by
    rw [List.map_map, map_eq_self_iff]
    exact fun line hline => drop_shownLine (h.blank line hline) _
  have hlast : (blanks indent).drop (indent + 2) = [] := by
    rw [drop_blanks, Nat.sub_eq_zero_of_le (Nat.le_add_right indent 2)]
    rfl
  simp only [reshown, hmargin, List.map_append, hdropped, List.map_singleton, hlast,
    ← List.cons_append]
  refine withoutEnds_padded hne (fun line hline => ?_) fun line hline => ?_
  · rw [isIndentOnly_eq (h.blank line (List.mem_of_head? hline)), h.first line hline]
  · rw [isIndentOnly_eq (h.blank line (List.mem_of_getLast? hline)), h.last line hline]

/-- Lines that are read as they were have lost the margin of the shown lines, and nothing else. -/
theorem drop_margin_of_reshown (hne : parts ≠ []) (h : reshown indent parts = parts) :
    ∀ line ∈ parts, (shownLine (indent + 2) line).drop
      (margin (parts.map (shownLine (indent + 2)) ++ [blanks indent])) = line := by
  simp only [reshown] at h
  generalize margin (parts.map (shownLine (indent + 2)) ++ [blanks indent]) = m at h ⊢
  rw [List.map_append, List.map_singleton, drop_blanks, ← List.cons_append] at h
  have hkept := withoutEnds_eq_of_length (isIndentOnly_blanks (indent - m)) (h ▸ hne)
    (by rw [h]; simp)
  have hdropped := hkept.symm.trans h
  rwa [List.map_map, map_eq_self_iff] at hdropped

theorem legible_of_reshown (hne : parts ≠ []) (h : reshown indent parts = parts) :
    LegibleLines parts := by
  have hline := drop_margin_of_reshown hne h
  have hblank : ∀ line ∈ parts, line.all isBlank = true → line = [] := fun line hmem hall => by
    rw [← hline line hmem, shownLine, if_pos hall, List.drop_nil]
  have hfirst : ∀ line ∈ parts.head?, line.all isBlank = false := fun line hhead => by
    rw [← isIndentOnly_eq (hblank line (List.mem_of_head? hhead))]
    exact head?_withoutEnds (h.symm ▸ hhead)
  have hlast : ∀ line ∈ parts.getLast?, line.all isBlank = false := fun line hend => by
    rw [← isIndentOnly_eq (hblank line (List.mem_of_getLast? hend))]
    exact getLast?_withoutEnds (h.symm ▸ hend)
  obtain ⟨first, more, rfl⟩ := List.exists_cons_of_ne_nil hne
  have hmargin : margin ((first :: more).map (shownLine (indent + 2)) ++ [blanks indent]) =
      indent + 2 := by
    have hlength := congrArg List.length (hline first List.mem_cons_self)
    have hfilled := hfirst first rfl
    have hpos : first.length ≠ 0 := by
      rw [Ne, List.length_eq_zero_iff]
      rintro rfl
      cases hfilled
    rw [shownLine, if_neg (by simp [hfilled]), List.length_drop, List.length_append, blanks,
      List.length_replicate] at hlength
    omega
  exact ⟨hfirst, hlast, hblank, (margin_eq_iff (by omega) hblank).mp hmargin⟩

/-- A block is read as it was written exactly when its lines are legible. -/
theorem blockValue_eq_self_iff (hfeed : '\n' ∈ cs) :
    blockValue (rawBlock indent cs) = cs ↔ LegibleBlock cs := by
  constructor
  · intro h
    have hlines := fun line => @not_mem_of_mem_blockLines line (rawBlock indent cs)
    rw [blockValue] at h
    have hreturn : '\r' ∉ cs :=
      h ▸ return_not_mem_intercalate fun line hline => (hlines line hline).1
    rw [lines_rawBlock hreturn] at h hlines
    have hne : reshown indent (lines cs) ≠ [] := by
      intro hnil
      rw [hnil, List.intercalate_nil] at h
      rw [← h] at hfeed
      cases hfeed
    have hparts : cs.splitOn '\n' = reshown indent (lines cs) := by
      conv_lhs => rw [← h]
      exact List.splitOn_intercalate _ (fun line hline => (hlines line hline).2) hne
    obtain ⟨init, last, hconcat⟩ := (List.eq_nil_or_concat' _).resolve_left hne
    have hlast : last ≠ [] := by
      rintro rfl
      have hend : [] ∈ (reshown indent (lines cs)).getLast? := by simp [hconcat]
      cases getLast?_withoutEnds hend
    have hwhole := lines_of_splitOn hreturn (hparts.trans hconcat) hlast
    rw [hwhole] at hparts
    exact ⟨hreturn, legible_of_reshown (List.splitOn_ne_nil _ _) hparts.symm⟩
  · rintro ⟨hreturn, hlegible⟩
    obtain ⟨init, last, hconcat⟩ := (List.eq_nil_or_concat' _).resolve_left
      (List.splitOn_ne_nil '\n' cs)
    have hlast : last ≠ [] := by
      rintro rfl
      have hfilled := hlegible.last [] (by simp [hconcat])
      cases hfilled
    rw [blockValue, lines_rawBlock hreturn, lines_of_splitOn hreturn hconcat hlast,
      reshown_of_legible hlegible, List.intercalate_splitOn]

/-- A text that is read as it was written. -/
def Legible (cs : List Char) : Prop :=
  if isBlockText cs then LegibleBlock cs else ∀ c ∈ cs, isLegibleChar c = true

theorem reread_eq_self_iff (indent : Nat) (cs : List Char) :
    reread indent cs = cs ↔ Legible cs := by
  unfold reread Legible
  split
  · rename_i hblock
    exact blockValue_eq_self_iff (isBlockText_iff.mp hblock).1
  · exact reread_quoted_iff cs

end SchemaCompiler.GraphQL

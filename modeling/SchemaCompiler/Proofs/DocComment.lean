import SchemaCompiler.DocComment
import SchemaCompiler.Proofs.Text.Parts

/-!
# Reading back a documentation comment

A comment is usually written with a star in front of each line of its description and with the
deprecation on a line of its own at the end. Reading a comment that is written like this gives what
was written: the frame of a line comes off and nothing else, so indented lines, empty lines and lines
that start with a star stay as they are.
-/

namespace SchemaCompiler

/-! ## Blanks around a text -/

namespace Text

def StartsFilled (cs : List Char) : Prop := ∀ c ∈ cs.head?, isBlank c = false

def EndsFilled (cs : List Char) : Prop := ∀ c ∈ cs.getLast?, isBlank c = false

theorem all_filled_iff (o : Option Char) :
    o.all (!isBlank ·) = true ↔ ∀ c ∈ o, isBlank c = false := by
  cases o <;> simp

instance (cs : List Char) : Decidable (StartsFilled cs) := decidable_of_iff _ (all_filled_iff _)

instance (cs : List Char) : Decidable (EndsFilled cs) := decidable_of_iff _ (all_filled_iff _)

theorem isBlank_space : ∀ c ∈ [' '], isBlank c = true := List.forall_mem_singleton.mpr rfl

theorem isBlank_feed : ∀ c ∈ ['\n'], isBlank c = true := List.forall_mem_singleton.mpr rfl

theorem trimStart_eq_self {cs : List Char} (h : StartsFilled cs) : trimStart cs = cs := by
  cases cs with
  | nil => rfl
  | cons c cs => exact List.dropWhile_cons_of_neg (by simp [h c rfl])

theorem trimEnd_eq_self {cs : List Char} (h : EndsFilled cs) : trimEnd cs = cs := by
  have hreversed : StartsFilled cs.reverse := by
    rw [StartsFilled, List.head?_reverse]
    exact h
  rw [trimEnd, ← trimStart, trimStart_eq_self hreversed, List.reverse_reverse]

theorem trimStart_append {blanks : List Char} (h : ∀ c ∈ blanks, isBlank c = true)
    (cs : List Char) : trimStart (blanks ++ cs) = trimStart cs :=
  List.dropWhile_append_of_pos h

theorem trimEnd_append {blanks : List Char} (h : ∀ c ∈ blanks, isBlank c = true)
    (cs : List Char) : trimEnd (cs ++ blanks) = trimEnd cs := by
  rw [trimEnd, List.reverse_append,
    List.dropWhile_append_of_pos fun c hc => h c (List.mem_reverse.mp hc)]
  rfl

/-- Trimming takes off the blanks around a text and stops there. -/
theorem trim_padded (before behind : List Char) {cs : List Char} (hstart : StartsFilled cs)
    (hend : EndsFilled cs) (hbefore : ∀ c ∈ before, isBlank c = true)
    (hbehind : ∀ c ∈ behind, isBlank c = true) : trim (before ++ cs ++ behind) = cs := by
  rw [trim, List.append_assoc, trimStart_append hbefore]
  cases cs with
  | nil =>
    rw [List.nil_append, ← List.append_nil behind, trimStart_append hbehind]
    rfl
  | cons c cs =>
    rw [trimStart_eq_self (show StartsFilled (c :: cs ++ behind) from hstart),
      trimEnd_append hbehind, trimEnd_eq_self hend]

theorem trim_eq_self {cs : List Char} (hstart : StartsFilled cs) (hend : EndsFilled cs) :
    trim cs = cs := by
  simpa using trim_padded [] [] hstart hend (by simp) (by simp)

/-! ## Lines -/

theorem linesFrom_append (current line rest : List Char) (h : '\n' ∉ line) :
    linesFrom current (line ++ '\n' :: rest) =
      dropLast '\r' (current.reverse ++ line) :: linesFrom [] rest := by
  induction line generalizing current with
  | nil =>
    rw [List.nil_append, linesFrom, if_pos rfl, dropLast, List.append_nil, List.reverse_reverse]
  | cons c line ih =>
    rw [List.mem_cons, not_or] at h
    rw [List.cons_append, linesFrom, if_neg (Ne.symm h.1), ih _ h.2, List.reverse_cons,
      List.append_assoc]
    rfl

theorem dropLast_eq_self {mark : Char} {cs : List Char} (h : cs.getLast? ≠ some mark) :
    dropLast mark cs = cs := by
  rw [dropLast]
  rw [← List.head?_reverse] at h
  cases hcs : cs.reverse with
  | nil => rw [dropHead, ← hcs, List.reverse_reverse]
  | cons c more =>
    rw [hcs] at h
    rw [dropHead, if_neg (by simpa using h), ← hcs, List.reverse_reverse]

/-- Lines that end with a line feed, and what follows them. -/
theorem lines_terminated {parts : List (List Char)} (hfeed : ∀ line ∈ parts, '\n' ∉ line)
    (hreturn : ∀ line ∈ parts, line.getLast? ≠ some '\r') (rest : List Char) :
    lines (parts.flatMap (· ++ ['\n']) ++ rest) = parts ++ lines rest := by
  induction parts with
  | nil => rfl
  | cons line parts ih =>
    obtain ⟨hline, hparts⟩ := List.forall_mem_cons.mp hfeed
    obtain ⟨hlast, hlasts⟩ := List.forall_mem_cons.mp hreturn
    rw [List.flatMap_cons, List.append_assoc, List.append_assoc, lines, List.singleton_append,
      linesFrom_append _ _ _ hline, List.reverse_nil, List.nil_append, dropLast_eq_self hlast,
      ← lines, ih hparts hlasts]
    rfl

end Text

namespace Doc

open Text

/-! ## Written comments -/

/-- A line in its frame. -/
def framed (line : List Char) : List Char := ' ' :: '*' :: ' ' :: line

def descriptionLines (description : Option String) : List (List Char) :=
  match description with
  | none => []
  | some text => text.toList.splitOn '\n'

def writtenTag : List Char := "@deprecated".toList

/-- The line of a deprecation. -/
def tagLine (d : Deprecation) : List Char :=
  writtenTag ++
    match d.reason with
    | none => []
    | some reason => ' ' :: reason.toList

/-- The lines of a comment that says what it is given, without their frames. -/
def writtenLines (d : Doc) : List (List Char) :=
  descriptionLines d.description ++ d.deprecated.toList.map tagLine

/-- The characters between `/*` and `*/` of that comment. -/
def renderChars (d : Doc) : List Char :=
  '*' :: '\n' :: ((writtenLines d).map framed).flatMap (· ++ ['\n']) ++ [' ']

def render (d : Doc) : String := String.ofList (renderChars d)

/-- A line that can be told from its frame and from a tag. -/
structure PlainLine (line : List Char) : Prop where
  ends : EndsFilled line
  untagged : line.head? ≠ some '@'

/-- A text without blanks around it. -/
structure Tidy (cs : List Char) : Prop where
  nonempty : cs ≠ []
  starts : StartsFilled cs
  ends : EndsFilled cs

instance (line : List Char) : Decidable (PlainLine line) :=
  decidable_of_iff (EndsFilled line ∧ line.head? ≠ some '@')
    ⟨fun h => ⟨h.1, h.2⟩, fun h => ⟨h.ends, h.untagged⟩⟩

instance (cs : List Char) : Decidable (Tidy cs) :=
  decidable_of_iff (cs ≠ [] ∧ StartsFilled cs ∧ EndsFilled cs)
    ⟨fun h => ⟨h.1, h.2.1, h.2.2⟩, fun h => ⟨h.nonempty, h.starts, h.ends⟩⟩

/-- What can be written without loss. -/
structure Writable (d : Doc) : Prop where
  description : ∀ text ∈ d.description, Tidy text.toList ∧
    ∀ line ∈ text.toList.splitOn '\n', PlainLine line
  reason : ∀ dep ∈ d.deprecated, ∀ reason ∈ dep.reason,
    Tidy reason.toList ∧ '\n' ∉ reason.toList

/-! ## Lines in their frames -/

theorem endsFilled_append (before : List Char) {cs : List Char} (hne : cs ≠ [])
    (h : EndsFilled cs) : EndsFilled (before ++ cs) := by
  rwa [EndsFilled, List.getLast?_append, List.getLast?_eq_some_getLast hne, Option.some_or,
    ← List.getLast?_eq_some_getLast hne]

/-- The frame comes off a line, and nothing else. -/
theorem bareLine_framed {line : List Char} (h : EndsFilled line) : bareLine (framed line) = line := by
  by_cases hne : line = []
  · rw [hne]
    decide
  · have htrim : trim (framed line) = '*' :: ' ' :: line := by
      have hends : EndsFilled ('*' :: ' ' :: line) := endsFilled_append ['*', ' '] hne h
      have hstarts : StartsFilled ('*' :: ' ' :: line) := fun c hc => by cases hc; rfl
      simpa [framed] using trim_padded [' '] [] hstarts hends isBlank_space (by simp)
    rw [bareLine, htrim, dropHead, if_pos rfl, dropHead, if_pos rfl, trimEnd_eq_self h]

theorem addLine_framed {line : List Char} (h : PlainLine line) (d : Draft) :
    addLine d (framed line) = addText d line := by
  rw [addLine, bareLine_framed h.ends]
  split
  · exact absurd rfl h.untagged
  · rfl

/-- Lines in front of any tag are gathered in their order. -/
theorem foldl_addLine_framed {parts : List (List Char)} (h : ∀ line ∈ parts, PlainLine line)
    (before : List (List Char)) :
    (parts.map framed).foldl addLine { description := before } =
      { description := before ++ parts } := by
  induction parts generalizing before with
  | nil => rw [List.append_nil]; rfl
  | cons line parts ih =>
    obtain ⟨hline, hparts⟩ := List.forall_mem_cons.mp h
    rw [List.map_cons, List.foldl_cons, addLine_framed hline, List.append_cons, ← ih hparts]
    rfl

/-! ## The line of a deprecation -/

/-- The reason as gathered from its line. -/
def reasonLines (dep : Deprecation) : List (List Char) := dep.reason.toList.map String.toList

theorem endsFilled_tagLine {dep : Deprecation}
    (h : ∀ reason ∈ dep.reason, Tidy reason.toList) : EndsFilled (tagLine dep) := by
  obtain ⟨reason | reason⟩ := dep
  · decide
  · have htidy := h reason rfl
    exact endsFilled_append _ (List.cons_ne_nil _ _)
      (endsFilled_append [' '] htidy.nonempty htidy.ends)

theorem isBlank_deprecatedTag : ∀ c ∈ deprecatedTag, isBlank c = false := by
  have hall : deprecatedTag.all (!isBlank ·) = true := by decide
  simpa using hall

theorem splitTag_append {tag rest : List Char} (h : ∀ c ∈ tag, isBlank c = false) :
    splitTag (tag ++ ' ' :: rest) = (tag, trim (' ' :: rest)) := by
  have hfilled : ∀ c ∈ tag, (!isBlank c) = true := fun c hc => by rw [h c hc]; rfl
  rw [splitTag, List.takeWhile_append_of_pos hfilled, List.dropWhile_append_of_pos hfilled,
    List.takeWhile_cons_of_neg (by decide), List.dropWhile_cons_of_neg (by decide), List.append_nil]

/-- The line of a deprecation opens its tag, with the reason when there is one. -/
theorem addLine_tagLine {dep : Deprecation} (h : ∀ reason ∈ dep.reason, Tidy reason.toList)
    (d : Draft) :
    addLine d (framed (tagLine dep)) =
      { d with current := .deprecated, deprecated := some (reasonLines dep) } := by
  obtain ⟨reason | reason⟩ := dep
  · rfl
  · have htidy := h reason rfl
    have htrim : trim (' ' :: reason.toList) = reason.toList := by
      simpa using trim_padded [' '] [] htidy.starts htidy.ends isBlank_space (by simp)
    rw [addLine, bareLine_framed (endsFilled_tagLine h)]
    show openTag d (deprecatedTag ++ ' ' :: reason.toList) = _
    rw [openTag, splitTag_append isBlank_deprecatedTag, htrim]
    simp [reasonLines, htidy.nonempty]

/-! ## Reading back -/

theorem joinWith_cons_of_ne_nil (mark part : List Char) {parts : List (List Char)}
    (h : parts ≠ []) : joinWith mark (part :: parts) = part ++ mark ++ joinWith mark parts := by
  obtain ⟨next, more, rfl⟩ := List.exists_cons_of_ne_nil h
  rfl

theorem joinWith_concat_nil (mark : List Char) {parts : List (List Char)} (h : parts ≠ []) :
    joinWith mark (parts ++ [[]]) = joinWith mark parts ++ mark := by
  fun_induction joinWith mark parts with
  | case1 => exact absurd rfl h
  | case2 part => exact List.append_nil _
  | case3 part parts hmore ih =>
    rw [List.cons_append, joinWith_cons_of_ne_nil _ _ (by simp), ih hmore]
    simp only [List.append_assoc]

theorem present?_toList {text : String} (h : text.toList ≠ []) : present? text.toList = some text := by
  rw [present?, if_neg (by simpa using h), String.ofList_toList]

/-- The empty lines at both ends of a comment are no part of its description. -/
theorem present?_description {description : Option String}
    (h : ∀ text ∈ description, Tidy text.toList) (behind : List (List Char))
    (hbehind : behind = [] ∨ behind = [[]]) :
    present? (trim (joinWith ['\n'] ([] :: descriptionLines description ++ behind))) =
      description := by
  cases description with
  | none => rcases hbehind with rfl | rfl <;> rfl
  | some text =>
    have htidy := h text rfl
    have hne : descriptionLines (some text) ≠ [] := by
      rw [descriptionLines]
      exact List.splitOn_ne_nil _ _
    have hjoin : joinWith ['\n'] (descriptionLines (some text)) = text.toList := by
      rw [descriptionLines, joinWith_eq_intercalate, List.intercalate_splitOn]
    have htrim : ∀ feeds, (∀ c ∈ feeds, isBlank c = true) →
        trim ('\n' :: text.toList ++ feeds) = text.toList := fun feeds hfeeds => by
      simpa using trim_padded ['\n'] feeds htidy.starts htidy.ends isBlank_feed hfeeds
    rcases hbehind with rfl | rfl
    · rw [List.append_nil, joinWith_cons_of_ne_nil _ _ hne, hjoin]
      simpa [present?_toList htidy.nonempty] using congrArg present? (htrim [] (by simp))
    · rw [joinWith_concat_nil _ (List.cons_ne_nil _ _), joinWith_cons_of_ne_nil _ _ hne, hjoin]
      simpa [present?_toList htidy.nonempty] using congrArg present? (htrim ['\n'] isBlank_feed)

theorem present?_reason {dep : Deprecation} (h : ∀ reason ∈ dep.reason, Tidy reason.toList) :
    (⟨present? (trim (joinWith [' '] (reasonLines dep)))⟩ : Deprecation) = dep := by
  obtain ⟨reason | reason⟩ := dep
  · rfl
  · have htidy := h reason rfl
    rw [reasonLines, Option.toList_some, List.map_singleton, joinWith,
      trim_eq_self htidy.starts htidy.ends, present?_toList htidy.nonempty]

theorem Writable.plainLine {d : Doc} (h : Writable d) {line : List Char}
    (hline : line ∈ descriptionLines d.description) : PlainLine line ∧ '\n' ∉ line := by
  cases hdescription : d.description with
  | none =>
    rw [hdescription] at hline
    cases hline
  | some text =>
    rw [hdescription] at hline
    refine ⟨(h.description text hdescription).2 line hline, ?_⟩
    rw [descriptionLines] at hline
    exact not_mem_of_mem_splitOn hline

/-- No line of a comment breaks or ends in a blank. -/
theorem Writable.unbroken {d : Doc} (h : Writable d) :
    ∀ line ∈ writtenLines d, '\n' ∉ line ∧ EndsFilled line := by
  intro line hline
  rcases List.mem_append.mp hline with hline | hline
  · obtain ⟨hplain, hfeed⟩ := h.plainLine hline
    exact ⟨hfeed, hplain.ends⟩
  · obtain ⟨dep, hdep, rfl⟩ := List.mem_map.mp hline
    have hreason := h.reason dep (Option.mem_toList.mp hdep)
    refine ⟨?_, endsFilled_tagLine fun reason hmem => (hreason reason hmem).1⟩
    obtain ⟨reason | reason⟩ := dep
    · decide
    · rw [tagLine, List.mem_append, not_or]
      exact ⟨by decide, by simpa using (hreason reason rfl).2⟩

/-- A comment is read in the lines that it was written in, between two empty ones. -/
theorem Writable.lines_renderChars {d : Doc} (h : Writable d) :
    lines (renderChars d).tail = [] :: (writtenLines d).map framed ++ [[' ']] := by
  have hbody : (renderChars d).tail =
      ([] :: (writtenLines d).map framed).flatMap (· ++ ['\n']) ++ [' '] := rfl
  rw [hbody, lines_terminated]
  · rfl
  · refine List.forall_mem_cons.mpr ⟨List.not_mem_nil, fun line hline => ?_⟩
    obtain ⟨bare, hbare, rfl⟩ := List.mem_map.mp hline
    simpa [framed] using (h.unbroken bare hbare).1
  · refine List.forall_mem_cons.mpr ⟨by simp, fun line hline hlast => ?_⟩
    obtain ⟨bare, hbare, rfl⟩ := List.mem_map.mp hline
    by_cases hne : bare = []
    · rw [hne] at hlast
      cases hlast
    · have hends := endsFilled_append [' ', '*', ' '] hne (h.unbroken bare hbare).2
      cases hends '\r' hlast

/-- Reading a comment gives what was written. -/
theorem parse_render (d : Doc) (h : Writable d) : parse (render d) = d := by
  have hread : parse (render d) = ((lines (renderChars d).tail).foldl addLine {}).finish := by
    rw [parse, render, String.toList_ofList]
    rfl
  have hlines : (lines (renderChars d).tail).foldl addLine {} =
      addLine (((d.deprecated.toList.map tagLine).map framed).foldl addLine
        { description := [] :: descriptionLines d.description }) [' '] := by
    rw [h.lines_renderChars, writtenLines, List.foldl_append, List.foldl_cons, List.foldl_cons,
      List.map_append, List.foldl_append, show addLine {} [] = { description := [[]] } from rfl,
      foldl_addLine_framed fun line hline => (h.plainLine hline).1]
    rfl
  have hdescription := present?_description fun text hmem => (h.description text hmem).1
  obtain ⟨description, deprecated⟩ := d
  rw [hread, hlines]
  cases deprecated with
  | none => exact congrArg (Doc.mk · none) (hdescription [[]] (Or.inr rfl))
  | some dep =>
    have hreason : ∀ reason ∈ dep.reason, Tidy reason.toList := fun reason hmem =>
      (h.reason dep rfl reason hmem).1
    rw [Option.toList_some, List.map_singleton, List.map_singleton, List.foldl_cons, List.foldl_nil,
      addLine_tagLine hreason]
    -- the closing line adds nothing to the reason
    have hdescribed := hdescription [] (Or.inl rfl)
    rw [List.append_nil] at hdescribed
    show Doc.mk (present? (trim (joinWith ['\n'] ([] :: descriptionLines description))))
      (some ⟨present? (trim (joinWith [' '] (reasonLines dep)))⟩) = _
    rw [hdescribed, present?_reason hreason]

/-- A description with an indented line, an empty one and one that starts with a star. -/
def users : Doc :=
  ⟨some "All users:\n  new ones\n\n* and old ones", some ⟨some "Use @people"⟩⟩

theorem writable_users : Writable users where
  description text htext := by
    obtain rfl := Option.mem_some.mp htext
    decide
  reason dep hdep reason hreason := by
    obtain rfl := Option.mem_some.mp hdep
    obtain rfl := Option.mem_some.mp hreason
    decide

theorem parse_render_users : Writable users ∧ parse (render users) = users :=
  ⟨writable_users, parse_render users writable_users⟩

end Doc

end SchemaCompiler

import SchemaCompiler.CommandLine.Run

/-!
# Quoted words

The rules by which a shell cuts a line into words, and what quoting makes of a word under them. A
quoted text is one word that stands for the text. What it leaves unquoted are letters, digits and a
few marks, which stand for themselves in every shell. So words that are quoted and put side by side
are the words that the shell sees, whatever they are made of.
-/

namespace SchemaCompiler.Shell

/-! ## Words of a line -/

/-- A character of a word, and whether it was quoted. -/
structure Letter where
  char : Char
  quoted : Bool
deriving DecidableEq, Repr

/-- What the next character of a line is taken for. -/
inductive Mode where
  | bare
  /-- Behind a single quote. -/
  | quotes
  /-- Behind a backslash. -/
  | escape
deriving DecidableEq, Repr

/-- The words of a line as far as it was read. There is no word at hand behind a blank. -/
structure Cut where
  done : List (List Letter) := []
  word : Option (List Letter) := none
  mode : Mode := .bare
deriving DecidableEq, Repr

namespace Cut

/-- Goes on with the word at hand, or starts one. -/
def extend (k : Cut) (letters : List Letter) (mode : Mode) : Cut :=
  { k with word := some (k.word.getD [] ++ letters), mode }

def close (k : Cut) : Cut := { k with done := k.done ++ k.word.toList, word := none }

def step (k : Cut) (c : Char) : Cut :=
  match k.mode with
  | .bare =>
    if c = ' ' then k.close
    else if c = '\'' then k.extend [] .quotes
    else if c = '\\' then k.extend [] .escape
    else k.extend [⟨c, false⟩] .bare
  | .quotes => if c = '\'' then k.extend [] .bare else k.extend [⟨c, true⟩] .quotes
  | .escape => k.extend [⟨c, true⟩] .bare

/-- The words of a line that does not end within quotes. -/
def finish (k : Cut) : Option (List (List Letter)) :=
  if k.mode = .bare then some k.close.done else none

end Cut

def cutWords (line : String) : Option (List (List Letter)) :=
  (line.toList.foldl Cut.step {}).finish

/-- What a word stands for. -/
def wordText (word : List Letter) : String := String.ofList (word.map (·.char))

/-- A character that means nothing but itself where it is not quoted. -/
def StandsForItself (c : Char) : Prop :=
  c.isAlphanum = true ∨ c = '/' ∨ c = '.' ∨ c = '_' ∨ c = '-'

/-! ## One quoted word -/

/-- The letters of a quoted text: all or none of them are quoted. -/
def quotedLetters (s : String) : List Letter :=
  s.toList.map fun c => ⟨c, !s.toList.all isPlain⟩

theorem wordText_quotedLetters (s : String) : wordText (quotedLetters s) = s := by
  rw [wordText, quotedLetters, List.map_map, Function.comp_def, List.map_id', String.ofList_toList]

theorem map_wordText_quotedLetters (args : List String) :
    (args.map quotedLetters).map wordText = args := by
  rw [List.map_map]
  exact (List.map_congr_left fun a _ => wordText_quotedLetters a).trans (List.map_id _)

theorem isPlain_iff (c : Char) : isPlain c = true ↔ StandsForItself c := by
  simp only [isPlain, StandsForItself, Bool.or_eq_true, beq_iff_eq, or_assoc]

theorem standsForItself_of_mem_quotedLetters {s : String} {l : Letter} (h : l ∈ quotedLetters s)
    (hbare : l.quoted = false) : StandsForItself l.char := by
  obtain ⟨c, hc, rfl⟩ := List.mem_map.mp h
  have hall : s.toList.all isPlain = true := by simpa using hbare
  exact (isPlain_iff c).mp (List.all_eq_true.mp hall c hc)

theorem plain_ne {c : Char} (h : isPlain c = true) : c ≠ ' ' ∧ c ≠ '\'' ∧ c ≠ '\\' := by
  refine ⟨?_, ?_, ?_⟩ <;> rintro rfl <;> revert h <;> decide

theorem step_plain {c : Char} (h : isPlain c = true) (done : List (List Letter))
    (word : Option (List Letter)) :
    Cut.step ⟨done, word, .bare⟩ c = ⟨done, some (word.getD [] ++ [⟨c, false⟩]), .bare⟩ := by
  obtain ⟨hblank, hquote, hescape⟩ := plain_ne h
  simp only [Cut.step, if_neg hblank, if_neg hquote, if_neg hescape]
  rfl

theorem foldl_step_plain {cs : List Char} (h : ∀ c ∈ cs, isPlain c = true)
    (done : List (List Letter)) (word : List Letter) :
    cs.foldl Cut.step ⟨done, some word, .bare⟩ =
      ⟨done, some (word ++ cs.map (⟨·, false⟩)), .bare⟩ := by
  induction cs generalizing word with
  | nil => rw [List.map_nil, List.append_nil]; rfl
  | cons c cs ih =>
    obtain ⟨hc, hcs⟩ := List.forall_mem_cons.mp h
    rw [List.foldl_cons, step_plain hc, ih hcs, Option.getD_some, List.append_assoc]
    rfl

/-- A character between quotes stays between quotes, where a quote is written behind a backslash
outside of them. -/
theorem foldl_step_quoteChar (c : Char) (done : List (List Letter)) (word : List Letter) :
    (quoteChar c).foldl Cut.step ⟨done, some word, .quotes⟩ =
      ⟨done, some (word ++ [⟨c, true⟩]), .quotes⟩ := by
  by_cases hc : c = '\''
  · subst hc
    simp [quoteChar, Cut.step, Cut.extend]
  · simp [quoteChar, Cut.step, Cut.extend, hc]

theorem foldl_step_quoteChars (cs : List Char) (done : List (List Letter)) (word : List Letter) :
    (cs.flatMap quoteChar).foldl Cut.step ⟨done, some word, .quotes⟩ =
      ⟨done, some (word ++ cs.map (⟨·, true⟩)), .quotes⟩ := by
  induction cs generalizing word with
  | nil => rw [List.map_nil, List.append_nil]; rfl
  | cons c cs ih =>
    rw [List.flatMap_cons, List.foldl_append, foldl_step_quoteChar, ih, List.append_assoc]
    rfl

/-- Reading a quoted text between blanks makes one word of it. -/
theorem foldl_step_quote {s : String} (hne : s ≠ "") (done : List (List Letter)) :
    (quote s).toList.foldl Cut.step ⟨done, none, .bare⟩ =
      ⟨done, some (quotedLetters s), .bare⟩ := by
  rw [quote]
  split
  · rename_i hall
    have hplain := List.all_eq_true.mp hall
    obtain ⟨c, cs, hcs⟩ := List.exists_cons_of_ne_nil fun hnil => hne (String.toList_eq_nil_iff.mp hnil)
    rw [quotedLetters, hall]
    rw [hcs] at hplain ⊢
    obtain ⟨hc, hrest⟩ := List.forall_mem_cons.mp hplain
    rw [List.foldl_cons, step_plain hc, foldl_step_plain hrest]
    rfl
  · rename_i hall
    rw [String.toList_ofList, List.cons_append, List.foldl_cons, List.foldl_append,
      show Cut.step ⟨done, none, .bare⟩ '\'' = ⟨done, some [], .quotes⟩ from rfl,
      foldl_step_quoteChars, quotedLetters, Bool.eq_false_iff.mpr hall]
    simp [Cut.step, Cut.extend]

/-! ## Quoted words side by side -/

theorem foldl_step_quoted {args : List String} (h : ∀ a ∈ args, a ≠ "")
    (done : List (List Letter)) :
    ((" ".intercalate (args.map quote)).toList.foldl Cut.step ⟨done, none, .bare⟩).finish =
      some (done ++ args.map quotedLetters) := by
  induction args generalizing done with
  | nil => rfl
  | cons a rest ih =>
    obtain ⟨ha, hrest⟩ := List.forall_mem_cons.mp h
    by_cases hnil : rest = []
    · subst hnil
      rw [List.map_singleton, String.intercalate_singleton, foldl_step_quote ha]
      rfl
    · have hstep : Cut.step ⟨done, some (quotedLetters a), .bare⟩ ' ' =
          ⟨done ++ [quotedLetters a], none, .bare⟩ := rfl
      rw [List.map_cons, String.intercalate_cons_of_ne_nil (by simpa using hnil),
        String.toList_append, String.toList_append, List.foldl_append, List.foldl_append,
        foldl_step_quote ha, show " ".toList = [' '] from rfl, List.foldl_cons, List.foldl_nil,
        hstep, ih hrest, List.map_cons, List.append_assoc]
      rfl

/-- Quoted words with single blanks between them are cut into the words they stand for, and what is
not quoted in them has no meaning of its own. -/
theorem cutWords_quoted (args : List String) (h : ∀ a ∈ args, a ≠ "") :
    ∃ words, cutWords (" ".intercalate (args.map quote)) = some words ∧
      words.map wordText = args ∧
      ∀ word ∈ words, ∀ l ∈ word, l.quoted = false → StandsForItself l.char := by
  refine ⟨args.map quotedLetters, foldl_step_quoted h [], map_wordText_quotedLetters args,
    fun word hword l hl => ?_⟩
  obtain ⟨a, -, rfl⟩ := List.mem_map.mp hword
  exact standsForItself_of_mem_quotedLetters hl

theorem cutWords_quoted_paths :
    (∀ a ∈ ["it's here.ts", "\\'", "src/schema.graphql"], a ≠ "") ∧
      ∃ words, cutWords (" ".intercalate
          (["it's here.ts", "\\'", "src/schema.graphql"].map quote)) = some words ∧
        words.map wordText = ["it's here.ts", "\\'", "src/schema.graphql"] ∧
        ∀ word ∈ words, ∀ l ∈ word, l.quoted = false → StandsForItself l.char :=
  ⟨by simp, cutWords_quoted _ (by simp)⟩

/-- The line of a hook is cut into the words of its command and the paths that were written. -/
theorem cutWords_hookLine {command : String} {commandWords : List (List Letter)}
    (hcommand : cutWords command = some commandWords) {written : List Path}
    (h : ∀ p ∈ written, p.text ≠ "") :
    ∃ words, cutWords (CommandLine.hookLine command written) = some (commandWords ++ words) ∧
      words.map wordText = written.map (·.text) := by
  have hargs : ∀ a ∈ written.map (·.text), a ≠ "" := by simpa using h
  refine ⟨(written.map (·.text)).map quotedLetters, ?_, map_wordText_quotedLetters _⟩
  -- behind the command and a blank, its words are done
  have hdone : Cut.step (command.toList.foldl Cut.step {}) ' ' = ⟨commandWords, none, .bare⟩ := by
    generalize hcut : command.toList.foldl Cut.step {} = k
    obtain ⟨done, word, mode⟩ := k
    rw [cutWords, hcut, Cut.finish] at hcommand
    split at hcommand
    · rename_i hbare
      obtain rfl : mode = .bare := hbare
      rw [← Option.some_inj.mp hcommand]
      rfl
    · cases hcommand
  have hquoted : (written.map fun p => quote p.text) = (written.map (·.text)).map quote := by
    rw [List.map_map]
    rfl
  rw [cutWords, CommandLine.hookLine, hquoted, String.toList_append, String.toList_append,
    List.foldl_append, List.foldl_append, show " ".toList = [' '] from rfl, List.foldl_cons,
    List.foldl_nil, hdone, foldl_step_quoted hargs]

end SchemaCompiler.Shell

import Mathlib
import SchemaCompiler.Proofs.Text.Parts
import SchemaCompiler.Text.Casing

/-!
# Names that screaming snake case cannot tell apart

Screaming snake case drops how a name marks where its words start, and which letters are capitals.
What is left is its `Spelling`: the underscores in front, and the words behind them in capitals. No
word has an underscore, so the spelling can be read off the text, and two names become one exactly
when they have one spelling. A name that already is in screaming snake case keeps every underscore,
so empty words count in its spelling.
-/

namespace SchemaCompiler.Text

/-! ## Capitals -/

/-- The underscore and the small letters of ASCII. -/
def IsSmall (n : Nat) : Prop := n = 0x5F ∨ 0x61 ≤ n ∧ n ≤ 0x7A

instance (n : Nat) : Decidable (IsSmall n) := inferInstanceAs (Decidable (_ ∨ _))

theorem ofNat_not_small {n : Nat} (h : ¬ IsSmall n) : ¬ IsSmall (Char.ofNat n).toNat := by
  unfold Char.ofNat
  split
  · exact h
  · decide

theorem toUpper_not_small {c : Char} (hascii : c.toNat < 0x80) (h : c ≠ '_') :
    ¬ IsSmall c.toUpper.toNat := by
  have hall : ∀ n < 0x80, n = 0x5F ∨ ¬ IsSmall (Char.ofNat n).toUpper.toNat := by decide +kernel
  have hc := hall c.toNat hascii
  rw [Char.ofNat_toNat] at hc
  exact hc.resolve_left fun hmark => h (Char.toNat_inj.mp hmark)

theorem expansions_ne_nil : ∀ entry ∈ upperExpansions, entry.2 ≠ [] := by decide

theorem expansions_not_small : ∀ entry ∈ upperExpansions, ∀ n ∈ entry.2, ¬ IsSmall n := by
  decide +kernel

/-- No run moves to where the underscore and the small letters are. -/
theorem shifts_beside_small :
    ∀ s ∈ upperShiftRuns, s.run.last + s.distance < 0x5F ∨ 0x7A < s.run.first + s.distance := by
  decide +kernel

/-- The capital of a character that is not ASCII is looked up, or moved by a distance, or it is the
character. -/
theorem upperBeyondAscii_cases (c : Char) :
    (∃ entry ∈ upperExpansions, upperBeyondAscii c = entry.2.map Char.ofNat) ∨
      (∃ s ∈ upperShiftRuns, s.run.contains c.toNat = true ∧
        upperBeyondAscii c = [Char.ofNat (c.toNat + s.distance).toNat]) ∨
      upperBeyondAscii c = [c] := by
  unfold upperBeyondAscii
  split
  · rename_i codes hcodes
    obtain ⟨before, more, hentries, -⟩ := List.lookup_eq_some_iff.mp hcodes
    exact Or.inl ⟨(c.toNat, codes), hentries ▸ List.mem_append_right _ List.mem_cons_self, rfl⟩
  · split
    · rename_i s hs
      have hcontains := List.find?_some hs
      exact Or.inr (Or.inl ⟨s, List.mem_of_find?_eq_some hs, hcontains, rfl⟩)
    · exact Or.inr (Or.inr rfl)

/-- Only the underscore has the underscore for a capital, and nothing has a small letter of ASCII. -/
theorem upper_not_small {c : Char} (h : c ≠ '_') : ∀ x ∈ upper c, ¬ IsSmall x.toNat := by
  intro x hx
  unfold upper at hx
  split at hx
  · rename_i hascii
    rw [List.mem_singleton.mp hx]
    exact toUpper_not_small hascii h
  · rename_i hbeyond
    obtain ⟨entry, hentry, hupper⟩ | ⟨s, hs, hcontains, hupper⟩ | hupper := upperBeyondAscii_cases c
    · rw [hupper] at hx
      obtain ⟨n, hn, rfl⟩ := List.mem_map.mp hx
      exact ofNat_not_small (expansions_not_small entry hentry n hn)
    · rw [hupper] at hx
      rw [List.mem_singleton.mp hx]
      simp only [CodeRun.contains, Bool.and_eq_true, decide_eq_true_eq] at hcontains
      have hbeside := shifts_beside_small s hs
      refine ofNat_not_small fun hsmall => ?_
      rw [IsSmall] at hsmall
      omega
    · rw [hupper] at hx
      rw [List.mem_singleton.mp hx, IsSmall]
      omega

theorem upper_ne_nil (c : Char) : upper c ≠ [] := by
  unfold upper
  split
  · exact List.cons_ne_nil _ _
  · obtain ⟨entry, hentry, hupper⟩ | ⟨s, -, -, hupper⟩ | hupper := upperBeyondAscii_cases c
    · rw [hupper]
      simpa using expansions_ne_nil entry hentry
    · rw [hupper]
      exact List.cons_ne_nil _ _
    · rw [hupper]
      exact List.cons_ne_nil _ _

/-! ## Words -/

theorem flatten_humps (cs : List Char) : (humps cs).flatten = cs := by
  fun_induction humps cs <;> simp_all

theorem ne_nil_of_mem_humps (cs : List Char) : ∀ w ∈ humps cs, w ≠ [] := by
  fun_induction humps cs <;> simp_all

/-- A word that can be told from its neighbours. -/
structure IsWord (w : List Char) : Prop where
  nonempty : w ≠ []
  unmarked : '_' ∉ w

theorem isWord_of_mem_words {cs w : List Char} (h : w ∈ words cs) : IsWord w := by
  obtain ⟨part, hpart, hw⟩ := List.mem_flatMap.mp h
  refine ⟨ne_nil_of_mem_humps part w hw, fun hmark => ?_⟩
  rw [splitAt_eq_splitOnP] at hpart
  have hmem : '_' ∈ part := by
    rw [← flatten_humps part]
    exact List.mem_flatten_of_mem hw hmark
  cases no_mark_of_mem_splitOnP hpart _ hmem

theorem IsWord.upperAll_ne_nil {w : List Char} (h : IsWord w) : upperAll w ≠ [] := by
  obtain ⟨c, rest, rfl⟩ := List.exists_cons_of_ne_nil h.nonempty
  simp [upperAll, upper_ne_nil]

theorem IsWord.not_small {w : List Char} (h : IsWord w) :
    ∀ x ∈ upperAll w, ¬ IsSmall x.toNat := by
  intro x hx
  obtain ⟨c, hc, hupper⟩ := List.mem_flatMap.mp hx
  exact upper_not_small (fun heq => h.unmarked (heq ▸ hc)) x hupper

/-! ## Spellings -/

/-- What screaming snake case keeps of a name. -/
structure Spelling where
  marks : Nat
  words : List (List Char)
deriving DecidableEq

namespace Spelling

def text (s : Spelling) : List Char := List.replicate s.marks '_' ++ joinWith ['_'] s.words

/-- Reads a text with its underscores as the marks. -/
def ofText (cs : List Char) : Spelling :=
  let body := cs.dropWhile (· == '_')
  ⟨(cs.takeWhile (· == '_')).length, if body.isEmpty then [] else splitAt (· == '_') body⟩

/-- The marks are all in front, and no word has one. -/
structure Proper (s : Spelling) : Prop where
  starts : ∀ w ∈ s.words.head?, w ≠ []
  unmarked : ∀ w ∈ s.words, '_' ∉ w

theorem replicate_takeWhile (cs : List Char) :
    List.replicate (cs.takeWhile (· == '_')).length '_' = cs.takeWhile (· == '_') :=
  (List.eq_replicate_of_mem fun c hc => by simpa using List.mem_takeWhile_imp hc).symm

theorem text_ofText (cs : List Char) : (ofText cs).text = cs := by
  have hwords : joinWith ['_'] (ofText cs).words = cs.dropWhile (· == '_') := by
    rw [joinWith_eq_intercalate, ofText]
    split
    · rename_i hnil
      rw [List.intercalate_nil, List.isEmpty_iff.mp hnil]
    · rw [splitAt_eq_splitOn, List.intercalate_splitOn]
  rw [text, hwords, ofText, replicate_takeWhile, List.takeWhile_append_dropWhile]

theorem Proper.head?_joinWith {s : Spelling} (h : s.Proper) :
    '_' ∉ (joinWith ['_'] s.words).head? := by
  obtain ⟨marks, words⟩ := s
  cases words with
  | nil => exact fun hmark => nomatch hmark
  | cons w more =>
    obtain ⟨c, rest, rfl⟩ := List.exists_cons_of_ne_nil (h.starts w rfl)
    have hc : '_' ≠ c := fun heq => h.unmarked _ List.mem_cons_self (heq ▸ List.mem_cons_self)
    cases more with
    | nil => simpa [joinWith] using hc.symm
    | cons v more => simpa [joinWith] using hc.symm

theorem Proper.splitAt_joinWith {s : Spelling} (h : s.Proper) (hne : s.words ≠ []) :
    splitAt (· == '_') (joinWith ['_'] s.words) = s.words := by
  rw [splitAt_eq_splitOn, joinWith_eq_intercalate, List.splitOn_intercalate _ h.unmarked hne]

theorem Proper.cut_text {s : Spelling} (h : s.Proper) :
    s.text.takeWhile (· == '_') = List.replicate s.marks '_' ∧
      s.text.dropWhile (· == '_') = joinWith ['_'] s.words := by
  rw [text, List.takeWhile_append_of_pos (by simp), List.dropWhile_append_of_pos (by simp)]
  have hhead := h.head?_joinWith
  cases hbody : joinWith ['_'] s.words with
  | nil => exact ⟨List.append_nil _, rfl⟩
  | cons c body =>
    rw [hbody] at hhead
    have hc : (c == '_') = false := by simpa using hhead
    rw [List.takeWhile_cons, List.dropWhile_cons, hc]
    exact ⟨List.append_nil _, rfl⟩

/-- The spelling is read back from the text. -/
theorem Proper.ofText_text {s : Spelling} (h : s.Proper) : ofText s.text = s := by
  obtain ⟨htake, hdrop⟩ := h.cut_text
  have hwords : (if (joinWith ['_'] s.words).isEmpty then []
      else splitAt (· == '_') (joinWith ['_'] s.words)) = s.words := by
    cases hs : s.words with
    | nil => rfl
    | cons w more =>
      have hbody : (joinWith ['_'] (w :: more)).isEmpty = false := by
        have hw := h.starts w (by rw [hs]; rfl)
        cases more <;> simp [joinWith, hw]
      rw [hbody, ← hs]
      exact h.splitAt_joinWith (by simp [hs])
  rw [ofText, htake, hdrop, hwords, List.length_replicate]

theorem proper_ofText (cs : List Char) : (ofText cs).Proper := by
  rw [ofText]
  cases hbody : cs.dropWhile (· == '_') with
  | nil => constructor <;> simp
  | cons c rest =>
    have hc : (c == '_') = false := by
      have hhead := List.head?_dropWhile_not (· == '_') cs
      rwa [hbody] at hhead
    constructor
    · intro w hw
      obtain ⟨part, parts, hparts⟩ :=
        List.exists_cons_of_ne_nil (List.splitOn_ne_nil '_' rest)
      simp only [List.isEmpty_cons, Bool.false_eq_true, if_false, splitAt_eq_splitOn,
        List.splitOn_cons_eq_if_modifyHead, hc, hparts, List.modifyHead_cons, List.head?_cons,
        Option.mem_some_iff] at hw
      rw [← hw]
      exact List.cons_ne_nil _ _
    · intro w hw
      have hsplit : w ∈ (c :: rest).splitOn '_' := by
        rw [← splitAt_eq_splitOn]
        exact hw
      exact not_mem_of_mem_splitOn hsplit

end Spelling

/-- The spelling of a name. -/
def spelling (cs : List Char) : Spelling :=
  if isScreaming cs then .ofText cs
  else ⟨(cs.takeWhile (· == '_')).length, (words (cs.dropWhile (· == '_'))).map upperAll⟩

theorem proper_spelling (cs : List Char) : (spelling cs).Proper := by
  unfold spelling
  split
  · exact Spelling.proper_ofText cs
  · constructor
    · intro w hw
      obtain ⟨v, hv, rfl⟩ := List.mem_map.mp (List.mem_of_mem_head? hw)
      exact (isWord_of_mem_words hv).upperAll_ne_nil
    · intro w hw hmark
      obtain ⟨v, hv, rfl⟩ := List.mem_map.mp hw
      exact (isWord_of_mem_words hv).not_small _ hmark (by decide)

theorem text_spelling (cs : List Char) : (spelling cs).text = screamingSnakeChars cs := by
  unfold spelling screamingSnakeChars
  split
  · exact Spelling.text_ofText cs
  · rw [Spelling.text, Spelling.replicate_takeWhile]

/-- Two names become one exactly when they are spelled alike. -/
theorem screamingSnake_eq_iff (a b : String) :
    screamingSnake a = screamingSnake b ↔ spelling a.toList = spelling b.toList := by
  rw [screamingSnake, screamingSnake, String.ofList_inj, ← text_spelling, ← text_spelling]
  constructor
  · intro h
    rw [← (proper_spelling a.toList).ofText_text, h, (proper_spelling b.toList).ofText_text]
  · exact congrArg Spelling.text

example : spelling "inProgress".toList = spelling "in_progress".toList := by decide

theorem screaming_not_small {c : Char} (h : (c.isUpper || c.isDigit || c == '_') = true) :
    c = '_' ∨ ¬ IsSmall c.toNat := by
  rw [Bool.or_eq_true, beq_iff_eq] at h
  refine h.symm.imp_right fun h => ?_
  simp [Char.isUpper, Char.isDigit, UInt32.le_iff_toNat_le] at h
  rw [IsSmall]
  omega

/-- No letter of ASCII is small in a name that was converted. -/
theorem screamingSnakeChars_not_small (cs : List Char) :
    ∀ c ∈ screamingSnakeChars cs, c = '_' ∨ ¬ IsSmall c.toNat := by
  intro c hc
  unfold screamingSnakeChars at hc
  split at hc
  · rename_i hscreaming
    rw [isScreaming, Bool.and_eq_true] at hscreaming
    exact screaming_not_small (List.all_eq_true.mp hscreaming.2 c hc)
  · rcases List.mem_append.mp hc with hmark | hbody
    · exact Or.inl (by simpa using List.mem_takeWhile_imp hmark)
    · rcases mem_joinWith hbody with hmark | ⟨w, hw, hc⟩
      · exact Or.inl (List.mem_singleton.mp hmark)
      · obtain ⟨v, hv, rfl⟩ := List.mem_map.mp hw
        exact Or.inr ((isWord_of_mem_words hv).not_small c hc)

end SchemaCompiler.Text

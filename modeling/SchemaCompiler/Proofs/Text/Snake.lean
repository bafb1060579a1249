import SchemaCompiler.GraphQL.Types
import SchemaCompiler.Proofs.Text.Spelling

/-!
# What screaming snake case keeps of a name

A converted name has the letters and digits of the name in their order, as capitals, behind the
underscores that the name starts with. Single underscores stand between its words and none behind the
last one. A converted name that a schema takes for the name of an enum value is made of capitals,
digits and underscores, and converting it again changes nothing.
-/

namespace SchemaCompiler.Text

/-! ## Parts without marks -/

/-- A name without the marks between its words. -/
def unmarked (cs : List Char) : List Char := cs.filter (· ∉ ['_', '-', ' '])

theorem unmarked_eq (cs : List Char) : unmarked cs = cs.filter (!isNameMark ·) := by
  refine List.filter_congr fun c _ => ?_
  rw [Bool.eq_iff_iff]
  simp [isNameMark, and_assoc]

theorem flatten_splitAt (p : Char → Bool) (cs : List Char) :
    (splitAt p cs).flatten = cs.filter (!p ·) := by
  induction cs with
  | nil => rfl
  | cons c cs ih =>
    rw [splitAt]
    split
    · rename_i hnil
      rw [splitAt_eq_splitOnP] at hnil
      exact absurd hnil (List.splitOnP_ne_nil _ _)
    · rename_i part parts hparts
      rw [hparts, List.flatten_cons] at ih
      split
      · rename_i hmark
        rw [List.filter_cons_of_neg (by simp [hmark]), ← ih]
        rfl
      · rename_i hmark
        rw [List.filter_cons_of_pos (by simp [hmark]), ← ih]
        rfl

theorem flatten_words (cs : List Char) : (words cs).flatten = unmarked cs := by
  have hparts : (splitAt isNameMark cs).map (List.flatten ∘ humps) = splitAt isNameMark cs :=
    (List.map_congr_left fun part _ => flatten_humps part).trans (List.map_id _)
  rw [unmarked_eq, ← flatten_splitAt, words, List.flatMap_def, List.flatten_flatten, List.map_map,
    hparts]

theorem unmarked_joinWith (parts : List (List Char)) :
    unmarked (joinWith ['_'] parts) = unmarked parts.flatten := by
  fun_induction joinWith ['_'] parts with
  | case1 => rfl
  | case2 part => rw [List.flatten_singleton]
  | case3 part parts hne ih =>
    rw [unmarked] at ih ⊢
    rw [List.filter_append, List.filter_append, ih, List.flatten_cons, unmarked, unmarked,
      List.filter_append, show (['_'].filter (· ∉ ['_', '-', ' '])) = [] from rfl, List.append_nil]

/-! ## Capitals of ASCII -/

theorem upperAll_of_ascii {cs : List Char} (h : ∀ c ∈ cs, c.toNat < 0x80) :
    upperAll cs = cs.map Char.toUpper := by
  induction cs with
  | nil => rfl
  | cons c cs ih =>
    obtain ⟨hc, hcs⟩ := List.forall_mem_cons.mp h
    rw [upperAll, List.flatMap_cons, ← upperAll, ih hcs, upper, if_pos hc]
    rfl

theorem isNameMark_toUpper {c : Char} (h : c.toNat < 0x80) :
    isNameMark c.toUpper = isNameMark c := by
  have hall : ∀ n < 0x80,
      isNameMark (Char.ofNat n).toUpper = isNameMark (Char.ofNat n) := by decide
  have hc := hall c.toNat h
  rwa [Char.ofNat_toNat] at hc

theorem unmarked_map_toUpper {cs : List Char} (h : ∀ c ∈ cs, c.toNat < 0x80) :
    unmarked (cs.map Char.toUpper) = (unmarked cs).map Char.toUpper := by
  rw [unmarked_eq, unmarked_eq, List.filter_map]
  refine congrArg (List.map Char.toUpper) (List.filter_congr fun c hc => ?_)
  rw [Function.comp_apply, isNameMark_toUpper (h c hc)]

/-! ## Words with single underscores between them -/

/-- No underscore stands next to another one or at the end. -/
structure SinglyMarked (cs : List Char) : Prop where
  not_doubled : ¬ ['_', '_'] <:+: cs
  not_trailing : cs.getLast? ≠ some '_'

/-- Whether two neighbours are not both underscores. -/
def Apart (a b : Char) : Prop := ¬ (a = '_' ∧ b = '_')

theorem singlyMarked_of_isChain {cs : List Char} (h : (cs ++ ['_']).IsChain Apart) :
    SinglyMarked cs where
  not_doubled := by
    rintro ⟨before, behind, rfl⟩
    rw [List.append_assoc, List.append_assoc, List.cons_append, List.cons_append,
      List.isChain_append_cons_cons] at h
    exact h.2.1 ⟨rfl, rfl⟩
  not_trailing hlast := (List.isChain_append.mp h).2.2 '_' hlast '_' rfl ⟨rfl, rfl⟩

theorem isChain_of_unmarked {w : List Char} (h : '_' ∉ w) : w.IsChain Apart := by
  refine List.Pairwise.isChain (List.pairwise_of_forall_mem_list fun a ha _ _ hab => ?_)
  exact h (hab.1 ▸ ha)

/-- What has no underscore may stand between two of them. -/
theorem isChain_between {w : List Char} (hne : w ≠ []) (h : '_' ∉ w) {rest : List Char}
    (hrest : ('_' :: rest).IsChain Apart) : ('_' :: (w ++ '_' :: rest)).IsChain Apart := by
  obtain ⟨c, cs, rfl⟩ := List.exists_cons_of_ne_nil hne
  refine List.IsChain.cons_cons (fun hc => h (hc.2 ▸ List.mem_cons_self)) ?_
  refine List.isChain_append.mpr ⟨isChain_of_unmarked h, hrest, fun a ha b _ hab => ?_⟩
  exact h (hab.1 ▸ List.mem_of_getLast? ha)

theorem isChain_joinWith {parts : List (List Char)} (hne : parts ≠ [])
    (hfilled : ∀ w ∈ parts, w ≠ []) (hunmarked : ∀ w ∈ parts, '_' ∉ w) :
    ('_' :: (joinWith ['_'] parts ++ ['_'])).IsChain Apart := by
  fun_induction joinWith ['_'] parts with
  | case1 => exact absurd rfl hne
  | case2 part =>
    exact isChain_between (hfilled part List.mem_cons_self) (hunmarked part List.mem_cons_self)
      (.singleton '_')
  | case3 part parts hmore ih =>
    rw [List.append_assoc, List.append_assoc]
    exact isChain_between (hfilled part List.mem_cons_self) (hunmarked part List.mem_cons_self)
      (ih hmore (fun w hw => hfilled w (List.mem_cons_of_mem _ hw))
        fun w hw => hunmarked w (List.mem_cons_of_mem _ hw))

theorem singlyMarked_joinWith {parts : List (List Char)} (hfilled : ∀ w ∈ parts, w ≠ [])
    (hunmarked : ∀ w ∈ parts, '_' ∉ w) : SinglyMarked (joinWith ['_'] parts) := by
  by_cases hne : parts = []
  · rw [hne]
    exact singlyMarked_of_isChain (.singleton '_')
  · exact singlyMarked_of_isChain (isChain_joinWith hne hfilled hunmarked).tail

/-! ## Converted names -/

/-- A text is made of capitals, digits and underscores. -/
def Shouted (cs : List Char) : Prop := ∀ c ∈ cs, c.isUpper = true ∨ c.isDigit = true ∨ c = '_'

theorem isScreaming_iff (cs : List Char) : isScreaming cs = true ↔ cs ≠ [] ∧ Shouted cs := by
  simp only [isScreaming, Shouted, Bool.and_eq_true, Bool.not_eq_true', List.isEmpty_eq_false_iff,
    List.all_eq_true, Bool.or_eq_true, beq_iff_eq, or_assoc, ne_eq]

/-- One text is another one in screaming snake case. -/
structure Snakes (s t : List Char) : Prop where
  /-- No letter is lost, added or moved. -/
  letters : unmarked t = (unmarked s).map Char.toUpper
  lead : t.takeWhile (· == '_') = s.takeWhile (· == '_')
  rest : ¬ Shouted s → SinglyMarked (t.dropWhile (· == '_'))

theorem cut_screamingSnakeChars (cs : List Char) :
    (screamingSnakeChars cs).takeWhile (· == '_') = cs.takeWhile (· == '_') ∧
      (screamingSnakeChars cs).dropWhile (· == '_') = joinWith ['_'] (spelling cs).words := by
  have hmarks : (spelling cs).marks = (cs.takeWhile (· == '_')).length := by
    unfold spelling
    split <;> rfl
  rw [← text_spelling, ← Spelling.replicate_takeWhile cs, ← hmarks]
  exact (proper_spelling cs).cut_text

theorem unmarked_dropWhile (cs : List Char) : unmarked (cs.dropWhile (· == '_')) = unmarked cs := by
  have hlead : unmarked (cs.takeWhile (· == '_')) = [] := by
    refine List.filter_eq_nil_iff.mpr fun c hc => ?_
    have hmark : c = '_' := by simpa using List.mem_takeWhile_imp hc
    rw [hmark]
    decide
  calc
    unmarked (cs.dropWhile (· == '_'))
      = unmarked (cs.takeWhile (· == '_')) ++ unmarked (cs.dropWhile (· == '_')) := by
        rw [hlead, List.nil_append]
    _ = unmarked (cs.takeWhile (· == '_') ++ cs.dropWhile (· == '_')) :=
        (List.filter_append _ _).symm
    _ = unmarked cs := by rw [List.takeWhile_append_dropWhile]

theorem toUpper_of_shouted {c : Char} (h : c.isUpper = true ∨ c.isDigit = true ∨ c = '_') :
    c.toUpper = c := by
  rcases h with h | h | rfl
  · grind [Char.toUpper, Char.isUpper]
  · grind [Char.toUpper, Char.isDigit]
  · rfl

/-- The letters of the words of a name are capitals afterwards. -/
theorem unmarked_upper_words {cs : List Char} (h : ∀ c ∈ cs, c.toNat < 0x80) :
    unmarked ((words cs).map upperAll).flatten = (unmarked cs).map Char.toUpper := by
  have hwords : (words cs).map upperAll = (words cs).map (List.map Char.toUpper) := by
    refine List.map_congr_left fun w hw => upperAll_of_ascii fun c hc => ?_
    have hmem : c ∈ unmarked cs := flatten_words cs ▸ List.mem_flatten_of_mem hw hc
    exact h c (List.mem_filter.mp hmem).1
  have htwice : unmarked (unmarked cs) = unmarked cs := by
    rw [unmarked, unmarked, List.filter_filter]
    simp only [Bool.and_self]
  have hascii : ∀ c ∈ unmarked cs, c.toNat < 0x80 := fun c hc => h c (List.mem_filter.mp hc).1
  rw [hwords, ← List.map_flatten, flatten_words, unmarked_map_toUpper hascii, htwice]

theorem unmarked_screamingSnakeChars {cs : List Char} (h : ∀ c ∈ cs, c.toNat < 0x80) :
    unmarked (screamingSnakeChars cs) = (unmarked cs).map Char.toUpper := by
  by_cases hscreaming : isScreaming cs = true
  · have hshouted := ((isScreaming_iff cs).mp hscreaming).2
    rw [screamingSnakeChars, if_pos hscreaming]
    refine ((List.map_congr_left fun c hc => ?_).trans (List.map_id _)).symm
    exact toUpper_of_shouted (hshouted c (List.mem_filter.mp hc).1)
  · rw [← unmarked_dropWhile, (cut_screamingSnakeChars cs).2, unmarked_joinWith, spelling,
      if_neg hscreaming, unmarked_upper_words, unmarked_dropWhile]
    exact fun c hc => h c ((List.dropWhile_suffix _).subset hc)

theorem singlyMarked_screamingSnakeChars {cs : List Char} (h : ¬ Shouted cs) :
    SinglyMarked ((screamingSnakeChars cs).dropWhile (· == '_')) := by
  have hscreaming : ¬ isScreaming cs = true := fun hscreaming =>
    h ((isScreaming_iff cs).mp hscreaming).2
  have hproper := (proper_spelling cs).unmarked
  rw [(cut_screamingSnakeChars cs).2]
  rw [spelling, if_neg hscreaming] at hproper ⊢
  refine singlyMarked_joinWith (fun w hw => ?_) hproper
  obtain ⟨v, hv, rfl⟩ := List.mem_map.mp hw
  exact (isWord_of_mem_words hv).upperAll_ne_nil

theorem snakes_screamingSnakeChars {cs : List Char} (h : ∀ c ∈ cs, c.toNat < 0x80) :
    Snakes cs (screamingSnakeChars cs) where
  letters := unmarked_screamingSnakeChars h
  lead := (cut_screamingSnakeChars cs).1
  rest := singlyMarked_screamingSnakeChars

/-! ## Names of enum values -/

/-- A converted name has no small letter, so what a value may be named is capitals, digits and
underscores. -/
theorem shouted_of_isName {s : String} (h : GraphQL.isName (screamingSnake s) = true) :
    Shouted (screamingSnake s).toList := by
  intro c hc
  have hrest : GraphQL.isNameRest c = true := by
    unfold GraphQL.isName at h
    split at h
    · cases h
    · rename_i first more hchars
      rw [hchars] at hc
      rw [Bool.and_eq_true, List.all_eq_true] at h
      rcases List.mem_cons.mp hc with rfl | hc
      · have hstart := h.1
        rw [GraphQL.isNameStart, Bool.or_eq_true] at hstart
        rw [GraphQL.isNameRest, Char.isAlphanum, Bool.or_eq_true, Bool.or_eq_true]
        exact hstart.imp_left Or.inl
      · exact h.2 c hc
  rw [screamingSnake, String.toList_ofList] at hc
  rcases screamingSnakeChars_not_small _ c hc with rfl | hsmall
  · exact Or.inr (Or.inr rfl)
  · have hlower : c.isLower = false := by
      rw [Bool.eq_false_iff]
      intro hlower
      simp [Char.isLower, UInt32.le_iff_toNat_le] at hlower
      exact hsmall (Or.inr hlower)
    simpa [GraphQL.isNameRest, Char.isAlphanum, Char.isAlpha, hlower, or_assoc] using hrest

theorem screamingSnake_of_shouted {s : String} (h : Shouted s.toList) : screamingSnake s = s := by
  by_cases hnil : s.toList = []
  · rw [screamingSnake, hnil, String.toList_eq_nil_iff.mp hnil]
    rfl
  · rw [screamingSnake, screamingSnakeChars, if_pos ((isScreaming_iff _).mpr ⟨hnil, h⟩),
      String.ofList_toList]

/-- Converting an ASCII name keeps its letters and its leading underscores and puts single
underscores between its words. A result that may name an enum value is settled. -/
theorem snakes_screamingSnake (s : String) (hascii : ∀ c ∈ s.toList, c.toNat < 0x80) :
    Snakes s.toList (screamingSnake s).toList ∧
      (GraphQL.isName (screamingSnake s) = true →
        Shouted (screamingSnake s).toList ∧
          screamingSnake (screamingSnake s) = screamingSnake s) := by
  refine ⟨?_, fun hname => ?_⟩
  · rw [screamingSnake, String.toList_ofList]
    exact snakes_screamingSnakeChars hascii
  · have hshouted := shouted_of_isName hname
    exact ⟨hshouted, screamingSnake_of_shouted hshouted⟩

/-- A name with a number, an acronym and marks around its words. -/
theorem snakes_screamingSnake_xmlParser :
    (∀ c ∈ "__v2-XMLParser_ ".toList, c.toNat < 0x80) ∧
      Snakes "__v2-XMLParser_ ".toList "__V2_XML_PARSER".toList ∧
      Shouted "__V2_XML_PARSER".toList ∧
      screamingSnake "__V2_XML_PARSER" = "__V2_XML_PARSER" := by
  have hascii : ∀ c ∈ "__v2-XMLParser_ ".toList, c.toNat < 0x80 := by simp
  have hconverted : screamingSnake "__v2-XMLParser_ " = "__V2_XML_PARSER" := by decide
  obtain ⟨hsnakes, hsettled⟩ := snakes_screamingSnake "__v2-XMLParser_ " hascii
  rw [hconverted] at hsnakes hsettled
  exact ⟨hascii, hsnakes, hsettled (by decide)⟩

end SchemaCompiler.Text

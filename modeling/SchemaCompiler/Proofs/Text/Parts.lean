import SchemaCompiler.Text.Blank

/-!
# Parts of a text

A text is cut at its marks, so no part has a mark, and joining the parts by the mark gives the text
again.
-/

namespace SchemaCompiler.Text

theorem splitAt_eq_splitOnP (p : Char → Bool) (cs : List Char) : splitAt p cs = cs.splitOnP p := by
  induction cs with
  | nil => rw [List.splitOnP_nil, splitAt]
  | cons c cs ih =>
    rw [splitAt, ih, List.splitOnP_cons_eq_if_modifyHead]
    cases hparts : cs.splitOnP p with
    | nil => exact absurd hparts (List.splitOnP_ne_nil _ _)
    | cons part parts => rfl

theorem splitAt_eq_splitOn (mark : Char) (cs : List Char) :
    splitAt (· == mark) cs = cs.splitOn mark := by
  rw [splitAt_eq_splitOnP, List.splitOn_eq_splitOnP]

theorem no_mark_of_mem_splitOnP {p : Char → Bool} {cs part : List Char}
    (h : part ∈ cs.splitOnP p) : ∀ c ∈ part, p c = false := by
  induction cs generalizing part with
  | nil =>
    rw [List.splitOnP_nil] at h
    simp [List.mem_singleton.mp h]
  | cons c cs ih =>
    rw [List.splitOnP_cons_eq_if_modifyHead] at h
    cases hparts : cs.splitOnP p with
    | nil => exact absurd hparts (List.splitOnP_ne_nil _ _)
    | cons first more =>
      rw [hparts] at h ih
      split at h
      · rcases List.mem_cons.mp h with rfl | h
        · simp
        · exact ih h
      · rename_i hc
        rw [List.modifyHead_cons] at h
        rcases List.mem_cons.mp h with rfl | h
        · exact List.forall_mem_cons.mpr ⟨Bool.eq_false_iff.mpr hc, ih List.mem_cons_self⟩
        · exact ih (List.mem_cons_of_mem _ h)

theorem not_mem_of_mem_splitOn {mark : Char} {cs part : List Char}
    (h : part ∈ cs.splitOn mark) : mark ∉ part := by
  rw [List.splitOn_eq_splitOnP] at h
  intro hmark
  simpa using no_mark_of_mem_splitOnP h mark hmark

theorem joinWith_eq_intercalate (mark : List Char) (parts : List (List Char)) :
    joinWith mark parts = mark.intercalate parts := by
  fun_induction joinWith mark parts with
  | case1 => rw [List.intercalate_nil]
  | case2 part => rw [List.intercalate_singleton]
  | case3 part parts hne ih =>
    obtain ⟨next, more, rfl⟩ := List.exists_cons_of_ne_nil hne
    rw [ih, List.intercalate_cons_cons]

theorem mem_joinWith {mark : List Char} {parts : List (List Char)} {c : Char}
    (h : c ∈ joinWith mark parts) : c ∈ mark ∨ ∃ part ∈ parts, c ∈ part := by
  fun_induction joinWith mark parts with
  | case1 => cases h
  | case2 part => exact Or.inr ⟨part, List.mem_cons_self, h⟩
  | case3 part parts hne ih =>
    rcases List.mem_append.mp h with h | h
    · exact (List.mem_append.mp h).elim (fun hpart => Or.inr ⟨part, List.mem_cons_self, hpart⟩) Or.inl
    · exact (ih h).imp_right fun ⟨next, hnext, hc⟩ => ⟨next, List.mem_cons_of_mem _ hnext, hc⟩

end SchemaCompiler.Text

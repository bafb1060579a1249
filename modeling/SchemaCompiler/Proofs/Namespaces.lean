import SchemaCompiler.Artifact
import SchemaCompiler.Proofs.Tables

/-!
# Names of imported modules

Modules are given identifiers one by one. A name that is in use is never given again: among one more
candidates than there are names in use, one is not in use. So the identifiers of different modules
differ, and a module keeps its identifier while further modules are looked up.
-/

namespace SchemaCompiler.Namespaces

/-! ## Candidates -/

theorem toList_toString (n : Nat) : (toString n).toList = Nat.toDigits 10 n :=
  Nat.toList_repr

theorem toString_ne_empty (n : Nat) : (toString n).toList ≠ [] := by
  rw [toList_toString]
  exact Nat.toDigits_ne_nil

theorem toString_injective {m n : Nat} (h : toString m = toString n) : m = n := by
  have hdigits : Nat.toDigits 10 m = Nat.toDigits 10 n := by
    rw [← toList_toString, ← toList_toString, h]
  calc
    m = Nat.ofDigitChars 10 (Nat.toDigits 10 m) 0 := Nat.ofDigitChars_ten_toDigits.symm
    _ = Nat.ofDigitChars 10 (Nat.toDigits 10 n) 0 := by rw [hdigits]
    _ = n := Nat.ofDigitChars_ten_toDigits

theorem candidate_injective (base : String) {m n : Nat} (h : candidate base m = candidate base n) :
    m = n := by
  have hlist : ∀ k, base.toList ≠ base.toList ++ (toString (k + 2)).toList := by
    intro k heq
    exact toString_ne_empty (k + 2) (List.self_eq_append_right.mp heq)
  have h' := congrArg String.toList h
  cases m with
  | zero =>
    cases n with
    | zero => rfl
    | succ n =>
      rw [candidate, candidate, String.toList_append] at h'
      exact absurd h' (hlist n)
  | succ m =>
    cases n with
    | zero =>
      rw [candidate, candidate, String.toList_append] at h'
      exact absurd h'.symm (hlist m)
    | succ n =>
      rw [candidate, candidate, String.toList_append, String.toList_append,
        List.append_cancel_left_eq] at h'
      have heq := toString_injective (String.toList_inj.mp h')
      omega

/-- Some candidate is not in use. -/
theorem exists_unused (used : List String) (base : String) :
    ∃ name, ((List.range (used.length + 1)).map (candidate base)).find?
      (fun n => !used.contains n) = some name := by
  rw [← Option.isSome_iff_exists, ← Option.not_isNone, Bool.not_eq_true', Bool.eq_false_iff]
  intro hnone
  rw [Option.isNone_iff_eq_none, List.find?_eq_none] at hnone
  have hsubset : (List.range (used.length + 1)).map (candidate base) ⊆ used := by
    intro name hname
    simpa using hnone name hname
  have hnodup : ((List.range (used.length + 1)).map (candidate base)).Nodup :=
    List.Pairwise.map _ (fun m n hne heq => hne (candidate_injective base heq)) List.nodup_range
  have hlength := hnodup.length_le_of_subset hsubset
  rw [List.length_map, List.length_range] at hlength
  omega

/-- The first candidate that is not in use, behind at most as many as there are names in use. -/
theorem exists_first_unused (used : List String) (base : String) :
    ∃ rounds ≤ used.length, fresh used base = candidate base rounds ∧
      candidate base rounds ∉ used ∧ ∀ i < rounds, candidate base i ∈ used := by
  obtain ⟨name, hname⟩ := exists_unused used base
  have hfresh : fresh used base = name := by rw [fresh, hname, Option.getD_some]
  rw [List.find?_map, Option.map_eq_some_iff] at hname
  obtain ⟨rounds, hfind, rfl⟩ := hname
  rw [List.find?_range_eq_some] at hfind
  obtain ⟨hunused, hmem, hearlier⟩ := hfind
  refine ⟨rounds, by simpa [Nat.lt_succ_iff] using hmem, hfresh, by simpa using hunused, ?_⟩
  intro i hi
  simpa using hearlier i hi

theorem fresh_spec (used : List String) (base : String) :
    fresh used base ∉ used ∧ ∃ n, fresh used base = candidate base n := by
  obtain ⟨rounds, -, hfresh, hunused, -⟩ := exists_first_unused used base
  exact ⟨hfresh ▸ hunused, rounds, hfresh⟩

theorem fresh_of_unused {used : List String} {base : String} (h : base ∉ used) :
    fresh used base = base := by
  rw [fresh, List.range_succ_eq_map, List.map_cons,
    List.find?_cons_of_pos (by simpa [candidate] using h)]
  rfl

/-- A name that is given and does not end in a digit is the one that was suggested. -/
theorem candidate_eq {base name : String} {n : Nat} (h : candidate base n = name)
    (hname : ∀ c ∈ name.toList.getLast?, c.isDigit = false) : base = name := by
  cases n with
  | zero => exact h
  | succ n =>
    have hlast : name.toList.getLast? =
        some ((toString (n + 2)).toList.getLast (toString_ne_empty (n + 2))) := by
      rw [← h, candidate, String.toList_append, List.getLast?_append,
        List.getLast?_eq_some_getLast (toString_ne_empty (n + 2)), Option.some_or]
    have hdigit : ((toString (n + 2)).toList.getLast (toString_ne_empty (n + 2))).isDigit = true := by
      apply Nat.isDigit_of_mem_toDigits (by decide : 0 < 10) (by decide : 10 ≤ 10)
      rw [← toList_toString]
      exact List.getLast_mem _
    rw [hname _ hlast] at hdigit
    cases hdigit

/-! ## Looking up -/

/-- What holds of every table of identifiers. -/
structure Sound (table : Namespaces) : Prop where
  ascending : table.Ascending
  injective : ∀ a b name, table.get? a = some name → table.get? b = some name → a = b
  based : ∀ specifier name, table.get? specifier = some name →
    ∃ n, name = candidate (ident specifier) n
  taken : ∀ specifier name, table.get? specifier = some name →
    ∃ other, table.get? other = some (ident specifier)

theorem sound_empty : Sound {} where
  ascending := SortedTable.ascending_empty
  injective _ _ _ h := by cases h
  based _ _ h := by cases h
  taken _ _ h := by cases h

/-- One table knows what another knows. -/
def Extends (table more : Namespaces) : Prop :=
  ∀ specifier name, table.get? specifier = some name → more.get? specifier = some name

theorem Extends.refl (table : Namespaces) : table.Extends table := fun _ _ h => h

theorem Extends.trans {a b c : Namespaces} (h : a.Extends b) (h' : b.Extends c) : a.Extends c :=
  fun specifier name hget => h' specifier name (h specifier name hget)

theorem extends_insert {table : Namespaces} {specifier : String}
    (hnew : table.get? specifier = none) (name : String) :
    table.Extends (SortedTable.insert table specifier name) := by
  intro other given hget
  rw [SortedTable.get?_insert, if_neg, hget]
  intro heq
  rw [heq, hnew] at hget
  cases hget

/-- A module that is looked up for the first time gets a name that is not in use. -/
theorem Sound.insert {table : Namespaces} (h : table.Sound) {specifier : String}
    (hnew : table.get? specifier = none) :
    Sound (SortedTable.insert table specifier (fresh table.values (ident specifier))) where
  ascending := h.ascending.insert _ _
  injective a b name ha hb := by
    have hunused : ∀ other, table.get? other ≠ some (fresh table.values (ident specifier)) := by
      intro other hother
      exact (fresh_spec table.values (ident specifier)).1
        (h.ascending.mem_values_iff.mpr ⟨other, hother⟩)
    rw [SortedTable.get?_insert] at ha hb
    split at ha
    · rename_i hsame
      split at hb
      · rename_i hsame'
        rw [hsame, hsame']
      · exact absurd (hb.trans ha.symm) (hunused b)
    · split at hb
      · exact absurd (ha.trans hb.symm) (hunused a)
      · exact h.injective a b name ha hb
  based other name hother := by
    rw [SortedTable.get?_insert] at hother
    split at hother
    · rename_i hsame
      cases hother
      rw [hsame]
      exact (fresh_spec table.values (ident specifier)).2
    · exact h.based other name hother
  taken other name hother := by
    have hkept := extends_insert hnew (fresh table.values (ident specifier))
    rw [SortedTable.get?_insert] at hother
    split at hother
    · rename_i hsame
      subst hsame
      by_cases hused : ident other ∈ table.values
      · obtain ⟨key, hkey⟩ := h.ascending.mem_values_iff.mp hused
        exact ⟨key, hkept key _ hkey⟩
      · exact ⟨other, by rw [SortedTable.get?_insert_self, fresh_of_unused hused]⟩
    · obtain ⟨key, hkey⟩ := h.taken other name hother
      exact ⟨key, hkept key _ hkey⟩

/-- What looking up a file gives and what it does to the table. -/
theorem Sound.lookup {table : Namespaces} (h : table.Sound) (dir file : Path) :
    (table.lookup dir file).2.Sound ∧ table.Extends (table.lookup dir file).2 ∧
      (table.lookup dir file).2.get? (relativeImport dir file) =
        some (table.lookup dir file).1 := by
  rw [Namespaces.lookup]
  split
  · rename_i name hname
    exact ⟨h, Extends.refl table, hname⟩
  · rename_i hnone
    exact ⟨h.insert hnone, extends_insert hnone _, SortedTable.get?_insert_self _ _ _⟩

/-- A name that does not end in a digit is given exactly when a known module suggests it. -/
theorem Sound.given_iff {table : Namespaces} (h : table.Sound) (name : String)
    (hname : ∀ c ∈ name.toList.getLast?, c.isDigit = false) :
    (∃ specifier, table.get? specifier = some name) ↔
      ∃ specifier, (table.get? specifier).isSome = true ∧ ident specifier = name := by
  constructor
  · rintro ⟨specifier, hget⟩
    obtain ⟨n, hn⟩ := h.based specifier name hget
    exact ⟨specifier, by rw [hget]; rfl, candidate_eq hn.symm hname⟩
  · rintro ⟨specifier, hknown, rfl⟩
    obtain ⟨given, hget⟩ := Option.isSome_iff_exists.mp hknown
    exact h.taken specifier given hget

end SchemaCompiler.Namespaces

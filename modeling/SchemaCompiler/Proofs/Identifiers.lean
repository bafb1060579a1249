import SchemaCompiler.Proofs.Namespaces
import SchemaCompiler.Proofs.Text.Parts

/-!
# Identifiers over many lookups

Files are looked up one after another for a module in one directory. The search for an unused name
always comes to an end: it leaves behind one name in use for each number it tries. What a lookup
gives stands in every later table, so the identifiers tell modules apart over the whole run.
-/

namespace SchemaCompiler.Namespaces

/-! ## Spelling -/

/-- ASCII letters, digits and underscores, at least one of them, and no digit in front. -/
def IsIdentifier (name : String) : Prop :=
  name.toList ≠ [] ∧ (∀ c ∈ name.toList, c.isAlphanum = true ∨ c = '_') ∧
    ∀ c ∈ name.toList.head?, c.isDigit = false

theorem isAlphanum_identChar (c : Char) :
    (identChar c).isAlphanum = true ∨ identChar c = '_' := by
  rw [identChar]
  split
  · rename_i hc
    exact Or.inl hc
  · exact Or.inr rfl

theorem isIdentifier_ident (specifier : String) : IsIdentifier (ident specifier) := by
  rw [IsIdentifier, ident, String.toList_ofList, identChars]
  generalize hparts : ((Text.splitAt (· == '/') specifier.toList).filter isPathPart).map
    (·.map identChar) = parts
  have hchars : ∀ c ∈ Text.joinWith ['_'] parts, c.isAlphanum = true ∨ c = '_' := by
    intro c hc
    rcases Text.mem_joinWith hc with hmark | ⟨part, hpart, hc⟩
    · exact Or.inr (List.mem_singleton.mp hmark)
    · rw [← hparts] at hpart
      obtain ⟨source, -, rfl⟩ := List.mem_map.mp hpart
      obtain ⟨d, -, rfl⟩ := List.mem_map.mp hc
      exact isAlphanum_identChar d
  cases hjoined : Text.joinWith ['_'] parts with
  | nil => simp
  | cons first rest =>
    rw [hjoined] at hchars
    by_cases hdigit : first.isDigit = true
    · simpa [hdigit] using hchars
    · simpa [hdigit] using hchars

theorem IsIdentifier.candidate {base : String} (h : IsIdentifier base) (n : Nat) :
    IsIdentifier (candidate base n) := by
  obtain ⟨hne, hchars, hhead⟩ := h
  cases n with
  | zero => exact ⟨hne, hchars, hhead⟩
  | succ n =>
    rw [IsIdentifier, Namespaces.candidate, String.toList_append]
    refine ⟨fun hnil => hne (List.append_eq_nil_iff.mp hnil).1, ?_, ?_⟩
    · intro c hc
      rcases List.mem_append.mp hc with hc | hc
      · exact hchars c hc
      · rw [toList_toString] at hc
        have hdigit := Nat.isDigit_of_mem_toDigits (by decide) (by decide) hc
        exact Or.inl (by rw [Char.isAlphanum, hdigit, Bool.or_true])
    · obtain ⟨first, rest, hbase⟩ := List.exists_cons_of_ne_nil hne
      rw [hbase] at hhead ⊢
      exact hhead

/-! ## The search for an unused name -/

/-- The search as a loop. It gives the name at hand when that is not in use; otherwise it makes a
name with the number at hand and goes on with the next number. -/
inductive Search (used : List String) (base : String) : String → Nat → String → Prop where
  | unused {name : String} {n : Nat} (h : name ∉ used) : Search used base name n name
  | next {name found : String} {n : Nat} (h : name ∈ used)
      (rest : Search used base (base ++ toString n) (n + 1) found) : Search used base name n found

theorem Search.unique {used : List String} {base name first second : String} {n : Nat}
    (h : Search used base name n first) (h' : Search used base name n second) :
    first = second := by
  induction h with
  | unused hunused =>
    cases h' with
    | unused => rfl
    | next hused => exact absurd hused hunused
  | next hused _ ih =>
    cases h' with
    | unused hunused => exact absurd hused hunused
    | next _ rest => exact ih rest

/-- The loop goes through the candidates in order, up to the first that is not in use. -/
theorem search_candidate {used : List String} {base : String} {i left : Nat}
    (hunused : candidate base (i + left) ∉ used)
    (hused : ∀ j < i + left, candidate base j ∈ used) :
    Search used base (candidate base i) (i + 2) (candidate base (i + left)) := by
  induction left generalizing i with
  | zero => exact .unused hunused
  | succ left ih =>
    rw [← Nat.add_assoc, Nat.add_right_comm] at hunused hused ⊢
    exact .next (hused i (by omega)) (ih hunused hused)

/-- The loop ends, and `fresh` is what it ends with. -/
theorem search_iff (used : List String) (base name : String) :
    Search used base base 2 name ↔ name = fresh used base := by
  obtain ⟨rounds, -, hfresh, hunused, hused⟩ := exists_first_unused used base
  have hsearch : Search used base base 2 (fresh used base) := by
    have hfirst : 0 + rounds = rounds := Nat.zero_add rounds
    rw [hfresh, ← hfirst]
    exact search_candidate (by rwa [hfirst]) (by rwa [hfirst])
  constructor
  · intro h
    exact h.unique hsearch
  · rintro rfl
    exact hsearch

/-! ## Calls -/

/-- A call for a file: what it returns and the table that it leaves. -/
inductive Call (dir : Path) (table : Namespaces) (file : Path) : String → Namespaces → Prop where
  | known {name : String} (h : table.get? (relativeImport dir file) = some name) :
      Call dir table file name table
  | added {name : String} (h : table.get? (relativeImport dir file) = none)
      (search : Search table.values (ident (relativeImport dir file))
        (ident (relativeImport dir file)) 2 name) :
      Call dir table file name (SortedTable.insert table (relativeImport dir file) name)

theorem call_iff (dir : Path) (table : Namespaces) (file : Path) (name : String)
    (next : Namespaces) : Call dir table file name next ↔ table.lookup dir file = (name, next) := by
  rw [lookup]
  constructor
  · intro h
    cases h with
    | known h => rw [h]
    | added h search =>
      rw [search_iff] at search
      rw [h, search]
  · intro h
    split at h
    · rename_i given hgiven
      obtain ⟨rfl, rfl⟩ := Prod.mk.inj h
      exact .known hgiven
    · rename_i hnone
      obtain ⟨rfl, rfl⟩ := Prod.mk.inj h
      exact .added hnone ((search_iff _ _ _).mpr rfl)

/-- Calls for files one after another: what each returns and the table that is left. -/
inductive Calls (dir : Path) : Namespaces → List Path → List String → Namespaces → Prop where
  | nil {table : Namespaces} : Calls dir table [] [] table
  | cons {table next last : Namespaces} {file : Path} {files : List Path} {name : String}
      {names : List String} (first : Call dir table file name next)
      (rest : Calls dir next files names last) :
      Calls dir table (file :: files) (name :: names) last

/-- Looks up files one after another. -/
def lookups (dir : Path) (table : Namespaces) : List Path → List String × Namespaces
  | [] => ([], table)
  | file :: files =>
    let (name, next) := table.lookup dir file
    let (names, last) := lookups dir next files
    (name :: names, last)

theorem calls_iff (dir : Path) (table : Namespaces) (files : List Path) (names : List String)
    (last : Namespaces) :
    Calls dir table files names last ↔ lookups dir table files = (names, last) := by
  induction files generalizing table names with
  | nil =>
    constructor
    · rintro ⟨⟩
      rfl
    · intro h
      obtain ⟨rfl, rfl⟩ := Prod.mk.inj h
      exact .nil
  | cons file files ih =>
    constructor
    · intro h
      cases h with
      | cons first rest =>
        rw [lookups, (call_iff ..).mp first]
        simp only [(ih ..).mp rest]
    · intro h
      obtain ⟨rfl, rfl⟩ := Prod.mk.inj h
      exact .cons ((call_iff ..).mpr rfl) ((ih ..).mpr rfl)

theorem lookups_append (dir : Path) (table : Namespaces) (files more : List Path) :
    (lookups dir table (files ++ more)).2 = (lookups dir (lookups dir table files).2 more).2 := by
  induction files generalizing table with
  | nil => rfl
  | cons file files ih => exact ih _

/-- What a run of lookups keeps: a later table knows what an earlier one knows, and what was
returned for every file. -/
theorem Sound.lookups {table : Namespaces} (h : table.Sound) (dir : Path) (files : List Path) :
    (lookups dir table files).2.Sound ∧ table.Extends (lookups dir table files).2 ∧
      ∀ call ∈ files.zip (lookups dir table files).1,
        (lookups dir table files).2.get? (relativeImport dir call.1) = some call.2 := by
  induction files generalizing table with
  | nil => exact ⟨h, Extends.refl table, by simp [Namespaces.lookups]⟩
  | cons file files ih =>
    -- The first call is one step; what it leaves is a sound table to go on from.
    obtain ⟨hsound, hextends, hget⟩ := h.lookup dir file
    obtain ⟨hlast, hmore, hcalls⟩ := ih hsound
    refine ⟨hlast, hextends.trans hmore, ?_⟩
    intro call hcall
    rw [Namespaces.lookups, List.zip_cons_cons] at hcall
    rcases List.mem_cons.mp hcall with rfl | hcall
    · exact hmore _ _ hget
    · exact hcalls call hcall

theorem length_lookups (dir : Path) (table : Namespaces) (files : List Path) :
    (lookups dir table files).1.length = files.length := by
  induction files generalizing table with
  | nil => rfl
  | cons file files ih => rw [lookups, List.length_cons, List.length_cons, ih]

/-- A run of lookups from the empty table. Every call comes to an end, and with what the lookup
gives. Two calls return the same identifier when their files have the same relative import, and only
then; what was returned stays in the table, whatever is looked up later. -/
theorem lookups_identify (dir : Path) (files : List Path) :
    (∀ names last, Calls dir {} files names last ↔ lookups dir {} files = (names, last)) ∧
      (lookups dir {} files).1.length = files.length ∧
      (∀ call ∈ files.zip (lookups dir {} files).1, ∀ other ∈ files.zip (lookups dir {} files).1,
        call.2 = other.2 ↔ relativeImport dir call.1 = relativeImport dir other.1) ∧
      (∀ call ∈ files.zip (lookups dir {} files).1, ∀ more,
        (lookups dir {} (files ++ more)).2.get? (relativeImport dir call.1) = some call.2) ∧
      ∀ call ∈ files.zip (lookups dir {} files).1, IsIdentifier call.2 := by
  obtain ⟨hsound, -, hget⟩ := sound_empty.lookups dir files
  refine ⟨calls_iff dir {} files, length_lookups dir {} files, ?_, ?_, ?_⟩
  · intro call hcall other hother
    constructor
    · intro hname
      exact hsound.injective _ _ _ (hget call hcall) (hname ▸ hget other hother)
    · intro hspecifier
      have hsame := hget call hcall
      rw [hspecifier, hget other hother] at hsame
      exact (Option.some.inj hsame).symm
  · intro call hcall more
    rw [lookups_append]
    exact (hsound.lookups dir more).2.1 _ _ (hget call hcall)
  · intro call hcall
    obtain ⟨n, hn⟩ := hsound.based _ _ (hget call hcall)
    rw [hn]
    exact (isIdentifier_ident _).candidate n

/-- The numbered name of one module is the plain name of another. -/
example : (lookups ⟨"out"⟩ {} [⟨"x2.ts"⟩, ⟨"x.ts"⟩, ⟨"out/x.ts"⟩, ⟨"x.tsx"⟩]).1 =
    ["x2", "x", "x3", "x"] := by
  decide +kernel

end SchemaCompiler.Namespaces

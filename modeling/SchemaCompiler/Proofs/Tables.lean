import SchemaCompiler.Table

/-!
# Tables as maps

What an operation does to the entries of a table, seen through its keys and through `get?`.
-/

namespace SchemaCompiler

/-! ## Lists of entries -/

section Lookup

variable {α : Type}

theorem lookup_cons (key other : String) (value : α) (entries : List (String × α)) :
    ((key, value) :: entries).lookup other =
      if other = key then some value else entries.lookup other := by
  rw [List.lookup_cons]
  by_cases h : other = key
  · rw [beq_iff_eq.mpr h, if_pos h]
  · rw [beq_eq_false_iff_ne.mpr h, if_neg h]

/-- Where no key is listed twice, looking up finds every entry. -/
theorem mem_iff_lookup {entries : List (String × α)} (h : (entries.map (·.1)).Nodup)
    {key : String} {value : α} : (key, value) ∈ entries ↔ entries.lookup key = some value := by
  induction entries with
  | nil => simp
  | cons first rest ih =>
    obtain ⟨name, found⟩ := first
    obtain ⟨hnew, hrest⟩ := List.nodup_cons.mp h
    rw [lookup_cons, List.mem_cons, ih hrest]
    split
    · rename_i hkey
      subst hkey
      have hnone : rest.lookup key ≠ some value := by
        intro hmem
        exact hnew (List.mem_map.mpr ⟨(key, value), (ih hrest).mpr hmem, rfl⟩)
      simp [hnone, eq_comm]
    · rename_i hkey
      simp [hkey]

end Lookup

/-! ## Tables in order of insertion -/

namespace Table

variable {α : Type}

/-- Every entry of a table satisfies `Q`. -/
def All (Q : String → α → Prop) (t : Table α) : Prop := ∀ entry ∈ t.entries, Q entry.1 entry.2

theorem all_alterEntries {Q : String → α → Prop} {key : String} {f : Option α → α}
    {entries : List (String × α)} (h : ∀ entry ∈ entries, Q entry.1 entry.2)
    (hnone : Q key (f none)) (hsome : ∀ a, Q key a → Q key (f (some a))) :
    ∀ entry ∈ alterEntries key f entries, Q entry.1 entry.2 := by
  induction entries with
  | nil => simpa [alterEntries] using hnone
  | cons first rest ih =>
    have hfirst := h first List.mem_cons_self
    have hrest : ∀ entry ∈ rest, Q entry.1 entry.2 :=
      fun entry hmem => h entry (List.mem_cons_of_mem _ hmem)
    rw [alterEntries]
    intro entry hmem
    split at hmem
    · rename_i hkey
      rcases List.mem_cons.mp hmem with rfl | hmem
      · exact hsome _ (hkey ▸ hfirst)
      · exact hrest entry hmem
    · rcases List.mem_cons.mp hmem with rfl | hmem
      · exact hfirst
      · exact ih hrest entry hmem

theorem All.insert {Q : String → α → Prop} {t : Table α} (h : t.All Q) {key : String} {value : α}
    (hnew : Q key value) : (t.insert key value).All Q :=
  all_alterEntries h hnew fun _ _ => hnew

theorem All.push {β : Type} {Q : String → List β → Prop} {t : Table (List β)} (h : t.All Q)
    {key : String} {item : β} (hnew : Q key [item])
    (hmore : ∀ items, Q key items → Q key (items ++ [item])) : (t.push key item).All Q :=
  all_alterEntries h hnew hmore

theorem keys_alterEntries (key : String) (f : Option α → α) (entries : List (String × α)) :
    (alterEntries key f entries).map (·.1) =
      if key ∈ entries.map (·.1) then entries.map (·.1) else entries.map (·.1) ++ [key] := by
  induction entries with
  | nil => rfl
  | cons first rest ih =>
    rw [alterEntries]
    by_cases hkey : first.1 = key
    · simp [hkey]
    · rw [if_neg hkey, List.map_cons, ih]
      have hne : key ≠ first.1 := fun h => hkey h.symm
      by_cases hrest : key ∈ rest.map (·.1)
      · rw [if_pos hrest, if_pos (by simpa using Or.inr (by simpa using hrest))]
        rfl
      · rw [if_neg hrest, if_neg (by simpa [hne] using hrest)]
        rfl

theorem lookup_alterEntries (key other : String) (f : Option α → α)
    (entries : List (String × α)) :
    (alterEntries key f entries).lookup other =
      if other = key then some (f (entries.lookup key)) else entries.lookup other := by
  induction entries with
  | nil => rw [alterEntries, lookup_cons]; rfl
  | cons first rest ih =>
    obtain ⟨name, value⟩ := first
    rw [alterEntries]
    by_cases hname : name = key
    · subst hname
      rw [if_pos rfl, lookup_cons, lookup_cons, lookup_cons, if_pos rfl]
      split <;> rfl
    · rw [if_neg hname, lookup_cons, ih, lookup_cons, lookup_cons, if_neg (Ne.symm hname)]
      split
      · rename_i hother
        rw [if_neg (hother ▸ hname)]
      · rfl

theorem keys_alter (t : Table α) (key : String) (f : Option α → α) :
    (t.alter key f).keys = if key ∈ t.keys then t.keys else t.keys ++ [key] :=
  keys_alterEntries key f t.entries

theorem get?_alter (t : Table α) (key other : String) (f : Option α → α) :
    (t.alter key f).get? other = if other = key then some (f (t.get? key)) else t.get? other :=
  lookup_alterEntries key other f t.entries

theorem mem_entries_iff {t : Table α} (h : t.keys.Nodup) {key : String} {value : α} :
    (key, value) ∈ t.entries ↔ t.get? key = some value :=
  mem_iff_lookup h

theorem entries_eq_map_keys {t : Table α} (h : t.keys.Nodup) (default : α) :
    t.entries = t.keys.map fun key => (key, (t.get? key).getD default) := by
  rw [keys, List.map_map]
  refine (List.map_id _).symm.trans (List.map_congr_left fun entry hentry => ?_)
  rw [id, Function.comp_apply, (mem_entries_iff h).mp hentry, Option.getD_some]

end Table

/-! ## Sorted tables -/

namespace SortedTable

variable {α : Type}

theorem lookup_alterEntries_const (key other : String) (value : α) (entries : List (String × α)) :
    (alterEntries key (fun _ => value) entries).lookup other =
      if other = key then some value else entries.lookup other := by
  induction entries with
  | nil => exact lookup_cons key other value []
  | cons first rest ih =>
    obtain ⟨name, old⟩ := first
    rw [alterEntries]
    split
    · rw [lookup_cons]
    · split
      · rename_i hname
        simp only at hname
        subst hname
        rw [lookup_cons, lookup_cons]
        split
        · rfl
        · rfl
      · rename_i hname
        rw [lookup_cons, lookup_cons, ih]
        by_cases h : other = key
        · subst h
          rw [if_neg hname, if_pos rfl, if_pos rfl]
        · rw [if_neg h, if_neg h]

theorem get?_insert (t : SortedTable α) (key other : String) (value : α) :
    (t.insert key value).get? other = if other = key then some value else t.get? other :=
  lookup_alterEntries_const key other value t.entries

@[simp]
theorem get?_insert_self (t : SortedTable α) (key : String) (value : α) :
    (t.insert key value).get? key = some value := by
  rw [get?_insert, if_pos rfl]

theorem get?_insert_of_ne (t : SortedTable α) {key other : String} (h : other ≠ key) (value : α) :
    (t.insert key value).get? other = t.get? other := by
  rw [get?_insert, if_neg h]

theorem mem_keys_alterEntries (key : String) (f : Option α → α) (entries : List (String × α))
    (other : String) :
    other ∈ (alterEntries key f entries).map (·.1) ↔ other = key ∨ other ∈ entries.map (·.1) := by
  induction entries with
  | nil => simp [alterEntries]
  | cons first rest ih =>
    rw [alterEntries]
    split
    · simp
    · split
      · rename_i heq
        simp [heq]
      · simp only [List.map_cons, List.mem_cons, ih]
        grind

/-- Entries stay in strictly ascending order of their keys. -/
theorem pairwise_alterEntries (key : String) (f : Option α → α) {entries : List (String × α)}
    (h : entries.Pairwise fun a b => a.1 < b.1) :
    (alterEntries key f entries).Pairwise fun a b => a.1 < b.1 := by
  induction entries with
  | nil => exact List.pairwise_singleton _ _
  | cons first rest ih =>
    obtain ⟨hfirst, hrest⟩ := List.pairwise_cons.mp h
    rw [alterEntries]
    split
    · rename_i hlt
      refine List.pairwise_cons.mpr ⟨fun other hother => ?_, h⟩
      rcases List.mem_cons.mp hother with rfl | hother
      · exact hlt
      · exact String.lt_trans hlt (hfirst other hother)
    · rename_i hlt
      split
      · rename_i heq
        refine List.pairwise_cons.mpr ⟨fun other hother => ?_, hrest⟩
        exact heq ▸ hfirst other hother
      · rename_i hne
        refine List.pairwise_cons.mpr ⟨fun other hother => ?_, ih hrest⟩
        rcases (mem_keys_alterEntries key f rest _).mp (List.mem_map_of_mem hother) with hname | hname
        · rw [hname]
          grind
        · obtain ⟨entry, hentry, hname⟩ := List.mem_map.mp hname
          exact hname ▸ hfirst entry hentry

theorem lookup_eq_none_of_lt {key : String} {entries : List (String × α)}
    (h : ∀ entry ∈ entries, key < entry.1) : entries.lookup key = none := by
  refine List.lookup_eq_none_iff.mpr fun entry hentry => ?_
  exact bne_iff_ne.mpr fun heq : key = entry.1 => String.lt_irrefl key (heq ▸ h entry hentry)

theorem lookup_alterEntries {entries : List (String × α)}
    (h : entries.Pairwise fun a b => a.1 < b.1) (key other : String) (f : Option α → α) :
    (alterEntries key f entries).lookup other =
      if other = key then some (f (entries.lookup key)) else entries.lookup other := by
  induction entries with
  | nil => exact lookup_cons key other _ []
  | cons first rest ih =>
    obtain ⟨name, value⟩ := first
    obtain ⟨hfirst, hrest⟩ := List.pairwise_cons.mp h
    rw [alterEntries]
    by_cases hlt : key < name
    · have hnone : ((name, value) :: rest).lookup key = none :=
        lookup_eq_none_of_lt (List.forall_mem_cons.mpr
          ⟨hlt, fun entry hentry => String.lt_trans hlt (hfirst entry hentry)⟩)
      rw [if_pos hlt, lookup_cons, hnone]
    · by_cases heq : key = name
      · subst heq
        rw [if_neg hlt, if_pos rfl, lookup_cons, lookup_cons, lookup_cons, if_pos rfl]
        split <;> rfl
      · rw [if_neg hlt, if_neg heq, lookup_cons, ih hrest, lookup_cons, lookup_cons, if_neg heq]
        split
        · rename_i hother
          rw [if_neg (hother ▸ Ne.symm heq)]
        · rfl

theorem nodup_keys_of_pairwise {entries : List (String × α)}
    (h : entries.Pairwise fun a b => a.1 < b.1) : (entries.map (·.1)).Nodup := by
  refine List.Pairwise.map _ (fun a b hlt heq => ?_) h
  exact String.lt_irrefl _ (heq ▸ hlt)

/-- The order that tables are kept in. -/
def Ascending (t : SortedTable α) : Prop := t.entries.Pairwise fun a b => a.1 < b.1

theorem ascending_empty : ({} : SortedTable α).Ascending := List.Pairwise.nil

theorem Ascending.alter {t : SortedTable α} (h : t.Ascending) (key : String)
    (f : Option α → α) : (t.alter key f).Ascending :=
  pairwise_alterEntries key f h

theorem Ascending.insert {t : SortedTable α} (h : t.Ascending) (key : String) (value : α) :
    (t.insert key value).Ascending :=
  h.alter key _

theorem Ascending.get?_alter {t : SortedTable α} (h : t.Ascending) (key other : String)
    (f : Option α → α) :
    (t.alter key f).get? other = if other = key then some (f (t.get? key)) else t.get? other :=
  lookup_alterEntries h key other f

theorem Ascending.mem_entries_iff {t : SortedTable α} (h : t.Ascending) {key : String} {value : α} :
    (key, value) ∈ t.entries ↔ t.get? key = some value :=
  mem_iff_lookup (nodup_keys_of_pairwise h)

theorem Ascending.mem_values_iff {t : SortedTable α} (h : t.Ascending) {value : α} :
    value ∈ t.values ↔ ∃ key, t.get? key = some value := by
  have hnodup := nodup_keys_of_pairwise h
  simp only [values, List.mem_map, get?, ← mem_iff_lookup hnodup]
  constructor
  · rintro ⟨entry, hmem, rfl⟩
    exact ⟨entry.1, hmem⟩
  · rintro ⟨key, hmem⟩
    exact ⟨_, hmem, rfl⟩

end SortedTable

end SchemaCompiler

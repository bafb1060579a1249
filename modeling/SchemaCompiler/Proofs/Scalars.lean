import SchemaCompiler.Proofs.Diagnostics
import SchemaCompiler.Proofs.Lists
import SchemaCompiler.Proofs.Tables
import SchemaCompiler.Scalar.Collect

/-!
# Which scalars are defined

The groups of bindings are a sorted table from scalar names to bindings. So no scalar is defined
twice, and those defined are the ones that bindings name, apart from the built-in ones.
-/

namespace SchemaCompiler

/-- Whether a restriction to one side, or none, admits a side. -/
def admits (only : Option Side) (side : Side) : Bool := only.isNone || only == some side

theorem ScalarBinding.takesInput_eq (b : ScalarBinding) :
    b.takesInput = admits b.only .input := by
  rcases b with ⟨_, _, _, _ | _ | _⟩ <;> rfl

theorem ScalarBinding.givesOutput_eq (b : ScalarBinding) :
    b.givesOutput = admits b.only .output := by
  rcases b with ⟨_, _, _, _ | _ | _⟩ <;> rfl

namespace ScalarGroup

/-- Groups as the entries of a sorted table. -/
def entries (groups : List ScalarGroup) : List (String × List ScalarBinding) :=
  groups.map fun g => (g.name, g.bindings)

theorem keys_entries (groups : List ScalarGroup) :
    (entries groups).map (·.1) = groups.map (·.name) := by
  rw [entries, List.map_map]
  rfl

theorem entries_insert (b : ScalarBinding) (groups : List ScalarGroup) :
    entries (insert b groups) =
      SortedTable.alterEntries b.scalar (fun group => (group.map b.addTo).getD [b])
        (entries groups) := by
  induction groups with
  | nil => rfl
  | cons g rest ih =>
    rw [insert, show entries (g :: rest) = (g.name, g.bindings) :: entries rest from rfl,
      SortedTable.alterEntries]
    by_cases hlt : b.scalar < g.name
    · rw [if_pos hlt, if_pos hlt]
      rfl
    · rw [if_neg hlt, if_neg hlt]
      by_cases heq : b.scalar = g.name
      · rw [if_pos heq, if_pos heq, heq]
        rfl
      · rw [if_neg heq, if_neg heq]
        exact congrArg ((g.name, g.bindings) :: ·) ih

theorem pairwise_entries_insert {groups : List ScalarGroup}
    (h : (entries groups).Pairwise fun a b => a.1 < b.1) (b : ScalarBinding) :
    (entries (insert b groups)).Pairwise fun a b => a.1 < b.1 := by
  rw [entries_insert]
  exact SortedTable.pairwise_alterEntries _ _ h

theorem entries_foldl_insert (bindings : List ScalarBinding) {groups : List ScalarGroup}
    (h : (entries groups).Pairwise fun a b => a.1 < b.1) :
    (entries (bindings.foldl (fun groups b => insert b groups) groups)).Pairwise
        (fun a b => a.1 < b.1) ∧
      ∀ name, name ∈ (bindings.foldl (fun groups b => insert b groups) groups).map (·.name) ↔
        name ∈ bindings.map (·.scalar) ∨ name ∈ groups.map (·.name) := by
  induction bindings generalizing groups with
  | nil => exact ⟨h, by simp⟩
  | cons b rest ih =>
    have hinsert := pairwise_entries_insert h b
    obtain ⟨hascending, hnames⟩ := ih hinsert
    refine ⟨hascending, fun name => ?_⟩
    rw [List.foldl_cons, hnames, ← keys_entries, entries_insert, SortedTable.mem_keys_alterEntries,
      keys_entries, List.map_cons, List.mem_cons]
    grind

end ScalarGroup

/-- The names that bindings give to scalars of their own. -/
def customNames (bindings : List ScalarBinding) : List String :=
  (bindings.filter fun b => !isBuiltinScalar b.scalar).map (·.scalar)

theorem ScalarGroup.entries_ofBindings (bindings : List ScalarBinding) :
    (entries (ofBindings bindings)).Pairwise (fun a b => a.1 < b.1) ∧
      ∀ name, name ∈ (ofBindings bindings).map (·.name) ↔ name ∈ customNames bindings := by
  have hempty : (entries []).Pairwise fun a b => a.1 < b.1 := List.Pairwise.nil
  obtain ⟨hascending, hnames⟩ :=
    entries_foldl_insert (bindings.filter fun b => !isBuiltinScalar b.scalar) hempty
  refine ⟨hascending, fun name => ?_⟩
  rw [ofBindings, hnames, List.map_nil, customNames]
  simp only [List.not_mem_nil, or_false]

theorem names_collectScalars (bindings : List ScalarBinding) :
    (collectScalars bindings).scalars.map (·.name) =
      (ScalarGroup.ofBindings bindings).map (·.name) := by
  rw [collectScalars, List.map_map]
  rfl

theorem mem_names_collectScalars (bindings : List ScalarBinding) (name : String) :
    name ∈ (collectScalars bindings).scalars.map (·.name) ↔ name ∈ customNames bindings := by
  rw [names_collectScalars]
  exact (ScalarGroup.entries_ofBindings bindings).2 name

theorem nodup_names_collectScalars (bindings : List ScalarBinding) :
    ((collectScalars bindings).scalars.map (·.name)).Nodup := by
  rw [names_collectScalars, ← ScalarGroup.keys_entries]
  exact SortedTable.nodup_keys_of_pairwise (ScalarGroup.entries_ofBindings bindings).1

theorem isBuiltinScalar_of_mem_customNames {bindings : List ScalarBinding} {name : String}
    (h : name ∈ customNames bindings) : isBuiltinScalar name = false := by
  obtain ⟨b, hb, rfl⟩ := List.mem_map.mp h
  simpa using (List.mem_filter.mp hb).2

/-! ## Types that are equal -/

namespace ScalarTypeRef

theorem beq_def (a b : ScalarTypeRef) :
    (a == b) = (a.typeName == b.typeName && (a.sourceFile == b.sourceFile &&
      (a.importPath == b.importPath && a.location == b.location))) := rfl

theorem beq_iff {a b : ScalarTypeRef} :
    (a == b) = true ↔ a.typeName = b.typeName ∧
      a.sourceFile.map Path.components = b.sourceFile.map Path.components ∧
      a.importPath = b.importPath ∧
      a.location.map SourceLocation.place = b.location.map SourceLocation.place := by
  simp only [beq_def, Bool.and_eq_true, beq_iff_eq, Path.option_beq_iff,
    SourceLocation.option_beq_iff]

instance : EquivBEq ScalarTypeRef :=
  equivBEq_of_key (fun t => (t.typeName, t.sourceFile.map Path.components, t.importPath,
    t.location.map SourceLocation.place)) fun a b => by simp [beq_iff]

end ScalarTypeRef

/-! ## What a group holds -/

theorem ScalarBinding.repeats_iff {a b : ScalarBinding} :
    a.repeats b = true ↔ a.typeName = b.typeName ∧ (a.sourceFile == b.sourceFile) = true ∧
      a.importPath = b.importPath ∧ a.only = b.only := by
  simp only [repeats, Bool.and_eq_true, beq_iff_eq, and_assoc]

namespace ScalarGroup

/-- Bindings of which none repeats an earlier one. -/
def distinct (bindings : List ScalarBinding) : List ScalarBinding :=
  bindings.foldl (addNew ScalarBinding.repeats) []

theorem getD_lookup_foldl_insert (bindings : List ScalarBinding) {groups : List ScalarGroup}
    (h : (entries groups).Pairwise fun a b => a.1 < b.1) (name : String) :
    ((entries (bindings.foldl (fun groups b => insert b groups) groups)).lookup name).getD [] =
      (bindings.filter (·.scalar == name)).foldl (addNew ScalarBinding.repeats)
        (((entries groups).lookup name).getD []) := by
  induction bindings generalizing groups with
  | nil => rfl
  | cons b rest ih =>
    have hinsert := pairwise_entries_insert h b
    rw [List.foldl_cons, ih hinsert, entries_insert, SortedTable.lookup_alterEntries h]
    by_cases hname : b.scalar = name
    · subst hname
      have hadd : ∀ group : Option (List ScalarBinding),
          (group.map b.addTo).getD [b] = addNew ScalarBinding.repeats (group.getD []) b := by
        intro group
        cases group <;> rfl
      rw [if_pos rfl, Option.getD_some, hadd, List.filter_cons_of_pos (by simp), List.foldl_cons]
    · rw [if_neg (Ne.symm hname), List.filter_cons_of_neg (by simpa using hname)]

/-- A group holds the bindings of its scalar, without those that repeat an earlier one. -/
theorem bindings_of_mem_ofBindings {bindings : List ScalarBinding} {g : ScalarGroup}
    (h : g ∈ ofBindings bindings) :
    isBuiltinScalar g.name = false ∧
      g.bindings = distinct (bindings.filter (·.scalar == g.name)) := by
  have hcustom : isBuiltinScalar g.name = false :=
    isBuiltinScalar_of_mem_customNames
      (((entries_ofBindings bindings).2 g.name).mp (List.mem_map_of_mem h))
  refine ⟨hcustom, ?_⟩
  have hnodup := SortedTable.nodup_keys_of_pairwise (entries_ofBindings bindings).1
  have hlookup : (entries (ofBindings bindings)).lookup g.name = some g.bindings :=
    (mem_iff_lookup hnodup).mp (List.mem_map.mpr ⟨g, h, rfl⟩)
  have hempty : (entries []).Pairwise fun a b => a.1 < b.1 := List.Pairwise.nil
  have hgroup := getD_lookup_foldl_insert (bindings.filter fun b => !isBuiltinScalar b.scalar)
    hempty g.name
  rw [← ofBindings, hlookup, Option.getD_some] at hgroup
  rw [hgroup, List.filter_filter, entries, List.map_nil, List.lookup_nil, Option.getD_none,
    distinct]
  congr 1
  refine List.filter_congr fun b _ => ?_
  by_cases hname : b.scalar = g.name
  · simp [hname, hcustom]
  · simp [hname]

theorem mem_of_mem_group {bindings : List ScalarBinding} {g : ScalarGroup}
    (h : g ∈ ofBindings bindings) {b : ScalarBinding} (hb : b ∈ g.bindings) :
    b ∈ bindings ∧ b.scalar = g.name := by
  rw [(bindings_of_mem_ofBindings h).2] at hb
  have hmem := (foldl_addNew_sublist _ _).subset hb
  simpa using hmem

theorem exists_mem_ofBindings {bindings : List ScalarBinding} {b : ScalarBinding}
    (hb : b ∈ bindings) (hcustom : isBuiltinScalar b.scalar = false) :
    ∃ g ∈ ofBindings bindings, g.name = b.scalar := by
  refine List.mem_map.mp (((entries_ofBindings bindings).2 b.scalar).mpr ?_)
  exact List.mem_map_of_mem (List.mem_filter.mpr ⟨hb, by simp [hcustom]⟩)

theorem outputTypes_eq (g : ScalarGroup) :
    g.outputTypes = ((g.bindings.filter (·.givesOutput)).map ScalarTypeRef.ofBinding).foldl
      (addNew fun known t => t == known) [] := by
  have hadd : (fun (types : List ScalarTypeRef) t =>
      if types.contains t then types else types ++ [t]) = addNew fun known t => t == known := by
    funext types t
    rw [addNew, List.contains_eq_any_beq]
  rw [outputTypes, hadd]

end ScalarGroup

end SchemaCompiler

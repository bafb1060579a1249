import SchemaCompiler.Proofs.Schema.Merging
import SchemaCompiler.Proofs.Schema.Validity

/-!
# What a union joins

A union joins objects. Its members are checked against the names of all types that are made of
fields, so nothing is reported of a member that is an interface or another union. The base types of a
schema have names of their own, and each of them but a root is the first of its name among the types
that were met. So the members of all unions are objects exactly when none of them stands for such a
type.
-/

namespace SchemaCompiler.GraphQL

/-- Values of an abstract type are values of other types. -/
def Kind.isAbstract (kind : Kind) : Bool := kind == .interface || kind == .union

theorem Kind.isComposite_iff (kind : Kind) :
    kind.isComposite = true ↔ kind = .object ∨ kind.isAbstract = true := by
  cases kind <;> decide

/-- Every member of a union is the name of an object. -/
def Schema.JoinsObjects (s : Schema) : Prop :=
  ∀ u ∈ s.baseTypes, u.kind = .union → ∀ m ∈ u.unionMembers,
    ∃ t ∈ s.baseTypes, t.kind = .object ∧ t.name = m

/-- The type that a name stands for is the first that has it. -/
def firstOf (types : List TypeDef) (name : String) : Option TypeDef :=
  types.find? (·.name == name)

/-- A name stands for an abstract type. -/
def IsAbstract (types : List TypeDef) (name : String) : Prop :=
  ∃ t ∈ firstOf types name, t.kind.isAbstract = true

instance (types : List TypeDef) (name : String) : Decidable (IsAbstract types name) :=
  inferInstanceAs (Decidable (∃ t ∈ firstOf types name, t.kind.isAbstract = true))

/-- A name stands for a union that has an abstract type for a member. -/
def JoinsAbstract (types : List TypeDef) : Prop :=
  ∃ name ∈ types.map (·.name), ∃ u ∈ firstOf types name, u.kind = .union ∧
    ∃ m ∈ u.unionMembers, IsAbstract types m

instance (types : List TypeDef) : Decidable (JoinsAbstract types) :=
  inferInstanceAs (Decidable (∃ name ∈ types.map (·.name), ∃ u ∈ firstOf types name,
    u.kind = .union ∧ ∃ m ∈ u.unionMembers, IsAbstract types m))

theorem name_of_firstOf {types : List TypeDef} {name : String} {t : TypeDef}
    (h : firstOf types name = some t) : t.name = name := by
  simpa using List.find?_some h

/-! ## Base types -/

section BaseTypes

variable (types : List TypeDef) (r : ResolverFields) (scalars : List ScalarDefinition)

/-- The base types of a schema are the first of their names, and the roots that are missing. -/
theorem exists_merges_baseTypes :
    ∃ kept refused, Merges (types ++ r.types) kept refused ∧
      (integrate types r scalars).value.baseTypes =
        Schema.baseOf kept ++ Schema.missingRoots (Schema.baseOf kept) r := by
  obtain ⟨refused, hmerges, -⟩ := Schema.distinctTypes_merges .nil (types ++ r.types)
  refine ⟨_, _, hmerges, ?_⟩
  rw [value_integrate]
  exact Schema.baseTypes_ofTypes _ scalars r

theorem nodup_baseTypes : ((integrate types r scalars).value.baseTypes.map (·.name)).Nodup := by
  obtain ⟨kept, refused, hmerges, hbase⟩ := exists_merges_baseTypes types r scalars
  rw [hbase, List.map_append, List.nodup_append]
  refine ⟨(List.filter_sublist.map _).nodup hmerges.nodup, Schema.nodup_names_missingRoots _ r, ?_⟩
  rintro name hname other hother rfl
  exact (Schema.mem_names_missingRoots hother).2 hname

variable {types r scalars}

theorem eq_of_mem_baseTypes {t u : TypeDef} (ht : t ∈ (integrate types r scalars).value.baseTypes)
    (hu : u ∈ (integrate types r scalars).value.baseTypes) (hname : t.name = u.name) : t = u :=
  List.inj_on_of_nodup_map (nodup_baseTypes types r scalars) ht hu hname

/-- An abstract type is in the schema where its name stands for it. -/
theorem mem_baseTypes_iff_firstOf {t : TypeDef} (hkind : t.kind.isAbstract = true) :
    t ∈ (integrate types r scalars).value.baseTypes ↔
      firstOf (types ++ r.types) t.name = some t := by
  obtain ⟨kept, refused, hmerges, hbase⟩ := exists_merges_baseTypes types r scalars
  rw [hbase, firstOf, ← hmerges.find?_eq]
  constructor
  · intro ht
    rcases List.mem_append.mp ht with ht | ht
    · exact Schema.find?_name_of_mem hmerges.nodup (List.mem_of_mem_filter ht)
    · have hroot : t.kind = .object := by
        rcases List.mem_append.mp ht with ht | ht <;> rw [(Schema.mem_missingRoot ht).1] <;> rfl
      rw [hroot] at hkind
      cases hkind
  · intro ht
    refine List.mem_append_left _ (List.mem_filter.mpr ⟨List.mem_of_find?_eq_some ht, ?_⟩)
    refine decide_eq_true fun hinput => ?_
    rw [hinput] at hkind
    cases hkind

theorem isAbstract_iff {name : String} :
    IsAbstract (types ++ r.types) name ↔
      ∃ t ∈ (integrate types r scalars).value.baseTypes, t.kind.isAbstract = true ∧ t.name = name := by
  constructor
  · rintro ⟨t, ht, hkind⟩
    have hname : t.name = name := name_of_firstOf ht
    exact ⟨t, (mem_baseTypes_iff_firstOf hkind).mpr (hname ▸ ht), hkind, hname⟩
  · rintro ⟨t, ht, hkind, rfl⟩
    exact ⟨t, (mem_baseTypes_iff_firstOf hkind).mp ht, hkind⟩

theorem joinsAbstract_iff (scalars : List ScalarDefinition) :
    JoinsAbstract (types ++ r.types) ↔
      ∃ u ∈ (integrate types r scalars).value.baseTypes, u.kind = .union ∧
        ∃ m ∈ u.unionMembers, IsAbstract (types ++ r.types) m := by
  constructor
  · rintro ⟨name, -, u, hu, hunion, hmember⟩
    obtain rfl : u.name = name := name_of_firstOf hu
    have hkind : u.kind.isAbstract = true := by rw [hunion]; rfl
    exact ⟨u, (mem_baseTypes_iff_firstOf hkind).mpr hu, hunion, hmember⟩
  · rintro ⟨u, hu, hunion, hmember⟩
    have hkind : u.kind.isAbstract = true := by rw [hunion]; rfl
    have hfirst := (mem_baseTypes_iff_firstOf hkind).mp hu
    have hname := List.mem_map_of_mem (f := (·.name)) (List.mem_of_find?_eq_some hfirst)
    exact ⟨u.name, hname, u, hfirst, hunion, hmember⟩

end BaseTypes

/-! ## Members -/

theorem exists_composite_of_member {s : Schema}
    (hvalid : validateOutputs s (.ofSchema s) = []) {u : TypeDef} (hu : u ∈ s.baseTypes) {m : String}
    (hm : m ∈ u.unionMembers) : ∃ t ∈ s.baseTypes, t.kind.isComposite = true ∧ t.name = m := by
  have hclean : hasErrors (validateOutputs s (.ofSchema s)) = false := by rw [hvalid]; rfl
  obtain ⟨kind, hkind, ⟨t, ht, rfl, hname⟩ | ⟨rfl, -⟩ | ⟨rfl, -⟩⟩ :=
    (validateOutputs_ok hclean).2.1 u hu m hm
  · exact ⟨t, ht, hkind, hname⟩
  · cases hkind
  · cases hkind

/-- A schema of which nothing is reported joins objects exactly when no union that was met joins an
abstract type. -/
theorem joinsObjects_iff (types : List TypeDef) (r : ResolverFields)
    (scalars : List ScalarDefinition)
    (hvalid : validateOutputs (integrate types r scalars).value
      (.ofSchema (integrate types r scalars).value) = []) :
    (integrate types r scalars).value.JoinsObjects ↔ ¬ JoinsAbstract (types ++ r.types) := by
  rw [joinsAbstract_iff scalars]
  constructor
  · rintro hjoins ⟨u, hu, hunion, m, hm, habstract⟩
    obtain ⟨t, ht, hkind, hname⟩ := isAbstract_iff.mp habstract
    obtain ⟨object, hobject, hobjectKind, hobjectName⟩ := hjoins u hu hunion m hm
    rw [eq_of_mem_baseTypes ht hobject (hname.trans hobjectName.symm), hobjectKind] at hkind
    cases hkind
  · intro hnone u hu hunion m hm
    obtain ⟨t, ht, hcomposite, hname⟩ := exists_composite_of_member hvalid hu hm
    rcases t.kind.isComposite_iff.mp hcomposite with hobject | habstract
    · exact ⟨t, ht, hobject, hname⟩
    · exact absurd ⟨u, hu, hunion, m, hm, isAbstract_iff.mpr ⟨t, ht, habstract, hname⟩⟩ hnone

/-- Users, what else a search finds, and the union of the two. -/
def hitTypes (other : TypeDef) : List TypeDef :=
  [{ name := "User", kind := .object }, other,
    { name := "Hit", kind := .union, unionMembers := [other.name, "User"] }]

theorem joinsObjects_posts :
    let types := hitTypes { name := "Post", kind := .object }
    let s := (integrate types {} []).value
    validateOutputs s (.ofSchema s) = [] ∧ s.JoinsObjects := by
  intro types s
  have hvalid : validateOutputs s (.ofSchema s) = [] := by cbv
  exact ⟨hvalid, (joinsObjects_iff types {} [] hvalid).mpr (by decide)⟩

/-- The union joins the interface `Node`, and nothing is reported. -/
theorem hit_joins_interface :
    let types := hitTypes { name := "Node", kind := .interface }
    let s := (integrate types {} []).value
    validateOutputs s (.ofSchema s) = [] ∧
      ∃ u ∈ s.baseTypes, u.kind = .union ∧ ∃ m ∈ u.unionMembers,
        ¬ ∃ t ∈ s.baseTypes, t.kind = .object ∧ t.name = m := by
  intro types s
  exact ⟨by cbv, by decide⟩

end SchemaCompiler.GraphQL

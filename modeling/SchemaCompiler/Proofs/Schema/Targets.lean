import Mathlib
import SchemaCompiler.Proofs.Schema.Contents
import SchemaCompiler.Proofs.Schema.Extensions

/-!
# Fields that a type is given twice

A type has the fields that it declares and those that its extensions add. Every group of resolver
fields is checked against the declared fields and against itself, and there is one group for each
owner. Two owners can stand for one type: the query resolvers and the field resolvers of `Query`,
and likewise for `Mutation`. These groups are not compared, so a type is given no field twice exactly
when they have no name in common.
-/

namespace SchemaCompiler.GraphQL

open ResolverFields (Owner)

/-- No root type is given a field of one name by its own resolvers and by field resolvers. -/
def ResolverFields.RootsApart (r : ResolverFields) : Prop :=
  ∀ root ∈ [Owner.query, .mutation], ∀ f ∈ r.fieldsOf root, ∀ g ∈ r.fieldsOf (.type root.target),
    f.field.name ≠ g.field.name

instance (r : ResolverFields) : Decidable r.RootsApart :=
  inferInstanceAs (Decidable (∀ root ∈ [Owner.query, .mutation], ∀ f ∈ r.fieldsOf root,
    ∀ g ∈ r.fieldsOf (.type root.target), f.field.name ≠ g.field.name))

namespace Schema

/-- The names of all fields of a type, declared and added. -/
def fieldNamesOf (s : Schema) (name : String) : List String :=
  s.declaredNames name ++
    (s.extensions.filter (·.target = name)).flatMap fun e => e.fields.map (·.field.name)

/-! ## Groups -/

def namesOf (fields : List ResolvedField) : List String := fields.map (·.field.name)

/-- Groups with one target have no name in common. -/
def Apart (a b : String × List ResolvedField) : Prop :=
  a.1 = b.1 → (namesOf a.2).Disjoint (namesOf b.2)

theorem apart_iff {target : String} {fields more : List ResolvedField} :
    Apart (target, fields) (target, more) ↔
      ∀ f ∈ fields, ∀ g ∈ more, f.field.name ≠ g.field.name := by
  constructor
  · intro h f hf g hg heq
    exact h rfl (List.mem_map_of_mem hf) (heq ▸ List.mem_map_of_mem hg)
  · intro h _ name hname hother
    obtain ⟨f, hf, rfl⟩ := List.mem_map.mp hname
    obtain ⟨g, hg, heq⟩ := List.mem_map.mp hother
    exact h f hf g hg heq.symm

theorem pairwise_apart_of_nodup {entries : List (String × List ResolvedField)}
    (h : (entries.map (·.1)).Nodup) : entries.Pairwise Apart := by
  refine (List.pairwise_map.mp h).imp fun hne heq => absurd heq hne

/-- Groups are apart when those of every target are. -/
theorem pairwise_apart_iff {entries : List (String × List ResolvedField)} :
    entries.Pairwise Apart ↔
      ∀ name, (entries.filter (·.1 = name)).Pairwise
        (Function.onFun List.Disjoint fun entry => namesOf entry.2) := by
  simp only [List.pairwise_filter, decide_eq_true_eq]
  simp only [List.pairwise_iff_forall_sublist]
  constructor
  · intro h name a b hsub ha hb
    exact h hsub (ha.trans hb.symm)
  · intro h a b hsub heq
    exact h b.1 hsub heq rfl

/-- Of the groups that a schema is extended with, only those of a root type can meet. -/
theorem pairwise_apart_targets_iff {r : ResolverFields} (hkeys : r.extensions.keys.Nodup) :
    (targets r).Pairwise Apart ↔ r.RootsApart := by
  let roots := [Owner.query, .mutation].map fun root => (root.target, r.fieldsOf root)
  have htargets :
      targets r = (roots.filter fun entry => !entry.2.isEmpty) ++ r.extensions.entries := rfl
  have hroots : (roots.filter fun entry => !entry.2.isEmpty).Pairwise Apart := by
    refine List.Pairwise.filter _ (pairwise_apart_of_nodup ?_)
    simp [roots, Owner.target, ResolverFields.queryType_ne_mutationType]
  rw [htargets, List.pairwise_append]
  constructor
  · rintro ⟨-, -, hacross⟩ root hroot f hf g hg
    obtain ⟨items, hitems⟩ : ∃ items, r.extensions.get? root.target = some items := by
      cases hget : r.extensions.get? root.target with
      | some items => exact ⟨items, rfl⟩
      | none =>
        rw [ResolverFields.fieldsOf, hget] at hg
        cases hg
    rw [ResolverFields.fieldsOf, hitems, Option.getD_some] at hg
    have hmem : (root.target, r.fieldsOf root) ∈ roots.filter fun entry => !entry.2.isEmpty :=
      List.mem_filter.mpr ⟨List.mem_map_of_mem hroot, by simp [List.ne_nil_of_mem hf]⟩
    exact apart_iff.mp (hacross _ hmem _ ((Table.mem_entries_iff hkeys).mpr hitems)) f hf g hg
  · intro hapart
    refine ⟨hroots, pairwise_apart_of_nodup hkeys, ?_⟩
    rintro entry hentry ⟨key, items⟩ hitems (rfl : entry.1 = key)
    obtain ⟨root, hroot, rfl⟩ := List.mem_map.mp (List.mem_filter.mp hentry).1
    refine apart_iff.mpr (fun f hf g hg => hapart root hroot f hf g ?_) rfl
    rw [ResolverFields.fieldsOf, (Table.mem_entries_iff hkeys).mp hitems]
    exact hg

/-! ## Fields of one type -/

/-- Fields that are kept without a fault are none of those that are declared. -/
theorem not_mem_declared_of_keepFields {declared : List Field} {target : String}
    {kept fields : List ResolvedField}
    (h : (keepFields declared target kept fields).diagnostics = []) :
    ∀ f ∈ fields, f.field.name ∉ declared.map (·.name) := by
  induction fields generalizing kept with
  | nil => exact fun _ hf => absurd hf List.not_mem_nil
  | cons first rest ih =>
    rw [keepFields, clash?_eq] at h
    split at h
    · simp [Reported.report] at h
    · rename_i hclash
      intro f hf
      rcases List.mem_cons.mp hf with rfl | hf
      · intro hdeclared
        rw [if_pos hdeclared] at hclash
        cases hclash
      · exact ih h f hf

end Schema

section Integrate

variable {types : List TypeDef} {r : ResolverFields} {scalars : List ScalarDefinition}

/-- The fields that a base type declares have different names. -/
def DeclaresOnce (types : List TypeDef) : Prop :=
  ∀ t ∈ types, t.kind ≠ .inputObject → (t.fields.map (·.name)).Nodup

theorem nodup_declaredNames (hfields : DeclaresOnce (types ++ r.types)) (name : String) :
    ((integrate types r scalars).value.declaredNames name).Nodup := by
  rw [value_integrate, Schema.declaredNames]
  cases hbase : Schema.baseType? _ name with
  | none => exact List.nodup_nil
  | some t =>
    rcases Schema.mem_baseTypes_ofTypes (Schema.baseType?_eq_some hbase).1 with
      ⟨ht, hkind⟩ | rfl | rfl
    · exact hfields t ((Schema.mem_distinctTypes ht).resolve_left List.not_mem_nil) hkind
    · exact List.nodup_nil
    · exact List.nodup_nil

/-- Where nothing is reported, no resolver field has the name of a field that its type declares. -/
theorem not_mem_declaredNames (h : (integrate types r scalars).diagnostics = [])
    {entry : String × List ResolvedField} (hentry : entry ∈ Schema.targets r) :
    ∀ f ∈ entry.2, f.field.name ∉ (integrate types r scalars).value.declaredNames entry.1 := by
  simp only [integrate, Reported.diagnostics_bind, Reported.diagnostics_pure, List.append_nil,
    List.append_eq_nil_iff, Reported.diagnostics_each, List.flatMap_eq_nil_iff] at h
  have hclean := h.2 entry hentry
  simp only [Schema.checkedExtension, Schema.extension, Reported.diagnostics_bind,
    Reported.diagnostics_pure, List.append_nil, List.append_eq_nil_iff] at hclean
  rw [value_integrate]
  exact Schema.not_mem_declared_of_keepFields hclean.1

/-- Where nothing is reported, a type has the fields that it declares and those of its groups. -/
theorem fieldNamesOf_integrate (h : (integrate types r scalars).diagnostics = []) (name : String) :
    (integrate types r scalars).value.fieldNamesOf name =
      (integrate types r scalars).value.declaredNames name ++
        ((Schema.targets r).filter (·.1 = name)).flatMap fun entry => Schema.namesOf entry.2 := by
  have hclean := hasErrors_of_eq_nil h
  rw [Schema.fieldNamesOf, (integrate_ok hclean).1, List.filter_map, List.flatMap_map]
  rfl

/-- Where nothing is reported, no type is given a field twice exactly when neither root type is
given a field of one name by its own resolvers and by field resolvers. -/
theorem fieldNamesOf_nodup_iff (types : List TypeDef) (r : ResolverFields)
    (scalars : List ScalarDefinition) (hkeys : r.extensions.keys.Nodup)
    (hfields : DeclaresOnce (types ++ r.types))
    (h : (integrate types r scalars).diagnostics = []) :
    (∀ name, ((integrate types r scalars).value.fieldNamesOf name).Nodup) ↔ r.RootsApart := by
  have hclean := hasErrors_of_eq_nil h
  rw [← Schema.pairwise_apart_targets_iff hkeys, Schema.pairwise_apart_iff]
  refine forall_congr' fun name => ?_
  rw [fieldNamesOf_integrate h, List.nodup_append, List.nodup_flatMap]
  constructor
  · rintro ⟨-, ⟨-, hapart⟩, -⟩
    exact hapart
  · intro hapart
    refine ⟨nodup_declaredNames hfields name, ⟨fun entry hentry => ?_, hapart⟩, ?_⟩
    · exact ((integrate_ok hclean).2 entry (List.mem_filter.mp hentry).1).2
    · rintro n hdeclared other hother rfl
      obtain ⟨entry, hentry, hmem⟩ := List.mem_flatMap.mp hother
      obtain ⟨f, hf, rfl⟩ := List.mem_map.mp hmem
      obtain ⟨hentry, htarget⟩ := List.mem_filter.mp hentry
      rw [decide_eq_true_eq] at htarget
      exact not_mem_declaredNames h hentry f hf (htarget ▸ hdeclared)

end Integrate

/-! ## Fields of the query type by resolvers of both kinds -/

/-- A field whose resolver returns a string. -/
def stringField (name : String) : ResolvedField :=
  ⟨⟨name, .named "String" false, [], none, none, none⟩, none, none⟩

/-- Fields that the query type declares, has from its own resolvers and from field resolvers. -/
theorem fieldNamesOf_nodup_users :
    let types : List TypeDef :=
      [{ name := queryType, kind := .object, fields := [(stringField "version").field] }]
    let r : ResolverFields :=
      { query := [stringField "users"], extensions := ⟨[(queryType, [stringField "extra"])]⟩ }
    r.extensions.keys.Nodup ∧ DeclaresOnce (types ++ r.types) ∧
      (integrate types r []).diagnostics = [] ∧
      ∀ name, ((integrate types r []).value.fieldNamesOf name).Nodup := by
  intro types r
  have hkeys : r.extensions.keys.Nodup := by decide
  have hfields : DeclaresOnce (types ++ r.types) := by
    intro t ht _
    rw [List.mem_singleton.mp ht]
    exact List.nodup_singleton _
  have hclean : (integrate types r []).diagnostics = [] := by cbv
  exact ⟨hkeys, hfields, hclean,
    (fieldNamesOf_nodup_iff types r [] hkeys hfields hclean).mpr (by decide)⟩

/-- Query resolvers and field resolvers of the query type give the field `users`: both are kept, and
nothing is reported. -/
theorem users_given_twice :
    let r : ResolverFields :=
      { query := [stringField "users"], extensions := ⟨[(queryType, [stringField "users"])]⟩ }
    r.extensions.keys.Nodup ∧ DeclaresOnce ([] ++ r.types) ∧ (integrate [] r []).diagnostics = [] ∧
      ¬ ((integrate [] r []).value.fieldNamesOf queryType).Nodup := by
  refine ⟨by decide, fun _ ht => absurd ht List.not_mem_nil, by cbv, ?_⟩
  decide

end SchemaCompiler.GraphQL

import SchemaCompiler.GraphQL.Schema
import SchemaCompiler.Proofs.Lists
import SchemaCompiler.Proofs.Lowering
import SchemaCompiler.Proofs.Tables

/-!
# What resolvers become

Every resolver with an owner becomes one field of that owner, and every field that is kept for an
owner answers one of its resolvers, with an argument for each of its arguments. The owners that have
fields are the types that a schema extends; `Query` and `Mutation` are each the name of two owners,
which are extended separately.
-/

namespace SchemaCompiler.GraphQL

/-- A field is the one that a resolver answers. -/
structure Resolver.Answers (r : Resolver) (f : ResolvedField) : Prop where
  name : f.field.name = r.fieldName
  sourceFile : f.sourceFile = some r.sourceFile
  exportName : f.exportName = some r.exportName
  arguments : f.field.args.map (·.name) = (r.args.getD []).map (·.name)

/-- A field is made for a resolver: all but its types is the resolver's own. -/
structure Resolver.Makes (r : Resolver) (f : ResolvedField) : Prop extends
    Resolver.Answers r f where
  description : f.field.description = r.description
  deprecated : f.field.deprecated = r.deprecated
  location : f.field.location = some r.location

namespace ResolverFields

/-! ## Fields by owner -/

/-- The type that an owner stands for. -/
def Owner.target : Owner → String
  | .query => queryType
  | .mutation => mutationType
  | .type name => name

/-- The fields that are kept for an owner. -/
def fieldsOf (fields : ResolverFields) : Owner → List ResolvedField
  | .query => fields.query
  | .mutation => fields.mutation
  | .type name => (fields.extensions.get? name).getD []

theorem fieldsOf_add (fields : ResolverFields) (owner other : Owner) (f : ResolvedField) :
    (fields.add owner f).fieldsOf other =
      if other = owner then fields.fieldsOf other ++ [f] else fields.fieldsOf other := by
  cases owner with
  | query => cases other <;> simp [add, fieldsOf]
  | mutation => cases other <;> simp [add, fieldsOf]
  | type name =>
    cases other with
    | query => simp [add, fieldsOf]
    | mutation => simp [add, fieldsOf]
    | type key =>
      simp only [add, fieldsOf, Table.push, Table.get?_alter, Owner.type.injEq]
      split
      · rename_i hkey
        rw [hkey, Option.getD_some]
      · rfl

/-! ## Resolvers by owner -/

/-- The resolvers of an owner, in the order in which they are met. -/
def group (resolvers : List Resolver) (owner : Owner) : List Resolver :=
  resolvers.filter (owner? · = some owner)

/-- The name of an owner that is not a root type. -/
def Owner.name? : Owner → Option String
  | .type name => some name
  | _ => none

/-- The types that field resolvers belong to, each once, in the order in which they are met. -/
def parents (resolvers : List Resolver) : List String :=
  (resolvers.filterMap fun r => (owner? r).bind Owner.name?).eraseDups

theorem group_append (before : List Resolver) (r : Resolver) (owner : Owner) :
    group (before ++ [r]) owner =
      if owner? r = some owner then group before owner ++ [r] else group before owner := by
  by_cases h : owner? r = some owner <;> simp [group, h]

theorem group_ne_nil_iff {resolvers : List Resolver} {owner : Owner} :
    group resolvers owner ≠ [] ↔ ∃ r ∈ resolvers, owner? r = some owner := by
  simp [group]

theorem mem_parents_iff {resolvers : List Resolver} {name : String} :
    name ∈ parents resolvers ↔ group resolvers (.type name) ≠ [] := by
  rw [parents, List.mem_eraseDups, List.mem_filterMap, group_ne_nil_iff]
  refine exists_congr fun r => and_congr_right fun _ => ?_
  rw [Option.bind_eq_some_iff]
  constructor
  · rintro ⟨owner, howner, hname⟩
    cases owner <;> cases hname
    exact howner
  · exact fun howner => ⟨_, howner, rfl⟩

theorem parents_append (before : List Resolver) {r : Resolver}
    (h : ∀ name, owner? r ≠ some (.type name)) : parents (before ++ [r]) = parents before := by
  have hnone : (owner? r).bind Owner.name? = none := by
    cases howner : owner? r with
    | none => rfl
    | some owner =>
      cases owner with
      | type name => exact absurd howner (h name)
      | _ => rfl
  simp [parents, hnone]

theorem parents_append_type (before : List Resolver) {r : Resolver} {name : String}
    (h : owner? r = some (.type name)) :
    parents (before ++ [r]) =
      if name ∈ parents before then parents before else parents before ++ [name] := by
  have hsome : (owner? r).bind Owner.name? = some name := by rw [h]; rfl
  simp only [parents, List.filterMap_append, List.filterMap_cons, hsome, List.filterMap_nil,
    eraseDups_snoc, List.mem_eraseDups]

/-- The fields of every owner are those of its resolvers, one for each in order, and `R` says how
they belong together. -/
def Matches (R : Resolver → ResolvedField → Prop) (fields : ResolverFields)
    (resolvers : List Resolver) : Prop :=
  ∀ owner, List.Forall₂ R (group resolvers owner) (fields.fieldsOf owner)

section Matches

variable {R : Resolver → ResolvedField → Prop} {fields : ResolverFields} {before : List Resolver}
  {r : Resolver}

theorem matches_empty : Matches R {} [] := fun owner => by cases owner <;> exact .nil

/-- A resolver without an owner adds nothing. -/
theorem Matches.skip (h : Matches R fields before) (hr : owner? r = none) :
    Matches R fields (before ++ [r]) := by
  intro owner
  rw [group_append, if_neg (by simp [hr])]
  exact h owner

theorem Matches.add (h : Matches R fields before) {owner : Owner} (hr : owner? r = some owner)
    {f : ResolvedField} (hf : R r f) : Matches R (fields.add owner f) (before ++ [r]) := by
  intro other
  rw [fieldsOf_add, group_append, hr]
  by_cases hother : other = owner
  · rw [if_pos (hother ▸ rfl), if_pos hother]
    exact forall₂_snoc (h other) hf
  · rw [if_neg fun heq => hother (Option.some.inj heq).symm, if_neg hother]
    exact h other

end Matches

/-- The fields of every owner are those of its resolvers, one for each in order, and the types that
have fields stand in the order in which they are met. -/
structure Gathers (fields : ResolverFields) (resolvers : List Resolver) : Prop where
  members : ∀ owner, List.Forall₂ Resolver.Makes (group resolvers owner) (fields.fieldsOf owner)
  keys : fields.extensions.keys = parents resolvers

theorem gathers_empty : Gathers {} [] where
  members := matches_empty
  keys := rfl

theorem Gathers.skip {fields : ResolverFields} {before : List Resolver}
    (h : fields.Gathers before) {r : Resolver} (hr : owner? r = none) :
    fields.Gathers (before ++ [r]) where
  members := Matches.skip h.members hr
  keys := by
    rw [parents_append before (by simp [hr])]
    exact h.keys

theorem Gathers.add {fields : ResolverFields} {before : List Resolver}
    (h : fields.Gathers before) {r : Resolver} {owner : Owner} (hr : owner? r = some owner)
    {f : ResolvedField} (hf : Resolver.Makes r f) :
    (fields.add owner f).Gathers (before ++ [r]) where
  members := Matches.add h.members hr hf
  keys := by
    cases owner with
    | query => exact h.keys.trans (parents_append before (by simp [hr])).symm
    | mutation => exact h.keys.trans (parents_append before (by simp [hr])).symm
    | type name =>
      rw [parents_append_type before hr, ← h.keys]
      exact Table.keys_alter fields.extensions name _

/-! ## Lowering -/

variable {I : Synthesis → Prop}

theorem argument_keeps (hI : Lowering.Stable I) (hint : String) (r : Resolver)
    (a : SchemaCompiler.Field) :
    Lowering.Keeps I (argument hint r a) fun value => value.name = a.name :=
  Lowering.Keeps.bind (Lowering.fieldType_keeps hI _ _ _ _ _) fun _ _ => Lowering.Keeps.pure rfl

theorem arguments_keeps (hI : Lowering.Stable I) (hint : String) (r : Resolver)
    (args : List SchemaCompiler.Field) :
    Lowering.Keeps I (arguments hint r args) fun values =>
      values.map (·.name) = args.map (·.name) := by
  induction args with
  | nil => exact Lowering.Keeps.pure rfl
  | cons a rest ih =>
    refine (argument_keeps hI hint r a).bind fun value hvalue => ?_
    refine ih.bind fun values hvalues => Lowering.Keeps.pure ?_
    rw [List.map_cons, List.map_cons, hvalue, hvalues]

theorem fieldOf_makes (hI : Lowering.Stable I) (owner : Owner) (r : Resolver) :
    Lowering.Keeps I (fieldOf owner r) (Resolver.Makes r) := by
  refine (arguments_keeps hI _ r _).bind fun args hargs => ?_
  refine Lowering.Keeps.bind (Lowering.fieldType_keeps hI _ _ _ _ _) fun _ _ => ?_
  exact Lowering.Keeps.pure ⟨⟨rfl, rfl, rfl, hargs⟩, rfl, rfl, rfl⟩

theorem addAll_keeps (hI : Lowering.Stable I) (resolvers : List Resolver)
    {fields : ResolverFields} {before : List Resolver} (h : fields.Gathers before) :
    Lowering.Keeps I (fields.addAll resolvers) fun result =>
      result.Gathers (before ++ resolvers) := by
  induction resolvers generalizing fields before with
  | nil =>
    rw [List.append_nil]
    exact Lowering.Keeps.pure h
  | cons first rest ih =>
    rw [addAll, List.append_cons]
    split
    · rename_i hnone
      exact ih (h.skip hnone)
    · rename_i owner howner
      exact (fieldOf_makes hI owner first).bind fun f hf => ih (h.add howner hf)

/-! ## Answered resolvers -/

/-- Fields are kept for the owners of resolvers, one for each resolver. -/
structure Covers (fields : ResolverFields) (resolvers : List Resolver) : Prop where
  origin : ∀ owner, ∀ f ∈ fields.fieldsOf owner,
    ∃ r ∈ resolvers, owner? r = some owner ∧ Resolver.Answers r f
  kept : ∀ owner, ∀ r ∈ resolvers, owner? r = some owner →
    ∃ f ∈ fields.fieldsOf owner, Resolver.Answers r f
  keys : fields.extensions.keys.Nodup
  filled : fields.extensions.All fun _ items => items ≠ []

theorem mem_group_iff {resolvers : List Resolver} {owner : Owner} {r : Resolver} :
    r ∈ group resolvers owner ↔ r ∈ resolvers ∧ owner? r = some owner := by
  simp [group]

theorem Gathers.covers {fields : ResolverFields} {resolvers : List Resolver}
    (h : fields.Gathers resolvers) : fields.Covers resolvers where
  origin owner f hf := by
    obtain ⟨r, hr, hmakes⟩ := exists_of_forall₂ (h.members owner).flip hf
    exact ⟨r, (mem_group_iff.mp hr).1, (mem_group_iff.mp hr).2, hmakes.toAnswers⟩
  kept owner r hr howner := by
    obtain ⟨f, hf, hmakes⟩ := exists_of_forall₂ (h.members owner) (mem_group_iff.mpr ⟨hr, howner⟩)
    exact ⟨f, hf, hmakes.toAnswers⟩
  keys := by
    rw [h.keys]
    exact nodup_eraseDups _
  filled entry hentry := by
    have hkeys : fields.extensions.keys.Nodup := by
      rw [h.keys]
      exact nodup_eraseDups _
    have hget := (Table.mem_entries_iff hkeys).mp hentry
    have hkey : entry.1 ∈ parents resolvers := h.keys ▸ List.mem_map_of_mem hentry
    have hgroup := mem_parents_iff.mp hkey
    have hfields := h.members (.type entry.1)
    rw [fieldsOf, hget, Option.getD_some] at hfields
    intro hnil
    rw [hnil, List.forall₂_nil_right_iff] at hfields
    exact hgroup hfields

end ResolverFields

/-- Types made for resolvers have all that types made for written-out objects have. -/
theorem lowerResolvers_run {P : TypeDef → Prop} (hP : Lowering.AdmitsInline P)
    (resolvers : List Resolver) :
    (∀ t ∈ (lowerResolvers resolvers).value.types, P t) ∧
      (lowerResolvers resolvers).value.Covers resolvers := by
  obtain ⟨htypes, hfields⟩ := ResolverFields.addAll_keeps (Lowering.stable_types hP) resolvers
    ResolverFields.gathers_empty {} (by simp)
  have hcovers := hfields.covers
  exact ⟨htypes, hcovers.origin, hcovers.kept, hcovers.keys, hcovers.filled⟩

/-- Lowering groups resolvers by owner, and reports only faults of their arguments and results. -/
theorem lowerResolvers_gathers (resolvers : List Resolver) :
    (lowerResolvers resolvers).value.Gathers resolvers ∧
      ∀ d ∈ (lowerResolvers resolvers).diagnostics, d.code ∈ Lowering.shapeCodes := by
  obtain ⟨hcodes, hfields⟩ := ResolverFields.addAll_keeps Lowering.stable_reportsShapes resolvers
    ResolverFields.gathers_empty {} (by simp [Lowering.ReportsShapes])
  exact ⟨⟨hfields.members, hfields.keys⟩, hcodes⟩

/-- No two types made for resolvers have one name. -/
theorem lowerResolvers_nodup (resolvers : List Resolver) :
    ((lowerResolvers resolvers).value.types.map (·.name)).Nodup :=
  (ResolverFields.addAll_keeps Lowering.stable_nodup resolvers ResolverFields.gathers_empty {}
    List.nodup_nil).1

/-! ## Targets -/

namespace ResolverFields

theorem Covers.fieldsOf_ne_nil_iff {fields : ResolverFields} {resolvers : List Resolver}
    (h : fields.Covers resolvers) (owner : Owner) :
    fields.fieldsOf owner ≠ [] ↔ ∃ r ∈ resolvers, owner? r = some owner := by
  constructor
  · intro hne
    obtain ⟨f, hf⟩ := List.exists_mem_of_ne_nil _ hne
    obtain ⟨r, hr, howner, -⟩ := h.origin owner f hf
    exact ⟨r, hr, howner⟩
  · rintro ⟨r, hr, howner⟩
    obtain ⟨f, hf, -⟩ := h.kept owner r hr howner
    exact List.ne_nil_of_mem hf

theorem Covers.mem_extensions_iff {fields : ResolverFields} {resolvers : List Resolver}
    (h : fields.Covers resolvers) {entry : String × List ResolvedField} :
    entry ∈ fields.extensions.entries ↔
      fields.fieldsOf (.type entry.1) = entry.2 ∧ entry.2 ≠ [] := by
  rw [show entry = (entry.1, entry.2) from rfl, Table.mem_entries_iff h.keys, fieldsOf]
  constructor
  · intro hget
    refine ⟨by rw [hget, Option.getD_some], ?_⟩
    exact h.filled (entry.1, entry.2) ((Table.mem_entries_iff h.keys).mpr hget)
  · rintro ⟨hget, hne⟩
    cases hfound : fields.extensions.get? entry.1 with
    | none =>
      rw [hfound] at hget
      exact absurd hget.symm hne
    | some items =>
      rw [hfound, Option.getD_some] at hget
      rw [hget]

/-- The types that are extended are those of the owners that have fields. -/
theorem Covers.mem_targets_iff {fields : ResolverFields} {resolvers : List Resolver}
    (h : fields.Covers resolvers) (entry : String × List ResolvedField) :
    entry ∈ Schema.targets fields ↔
      ∃ owner : Owner, owner.target = entry.1 ∧ fields.fieldsOf owner = entry.2 ∧ entry.2 ≠ [] := by
  simp only [Schema.targets, List.mem_append, List.mem_filter, List.mem_cons, List.not_mem_nil,
    or_false, h.mem_extensions_iff]
  constructor
  · rintro (⟨rfl | rfl, hne⟩ | ⟨hfields, hne⟩)
    · exact ⟨.query, rfl, rfl, by simpa using hne⟩
    · exact ⟨.mutation, rfl, rfl, by simpa using hne⟩
    · exact ⟨.type entry.1, rfl, hfields, hne⟩
  · obtain ⟨target, items⟩ := entry
    rintro ⟨owner, rfl, rfl, hne⟩
    cases owner with
    | query => exact Or.inl ⟨Or.inl rfl, by simpa using hne⟩
    | mutation => exact Or.inl ⟨Or.inr rfl, by simpa using hne⟩
    | type name => exact Or.inr ⟨rfl, hne⟩

theorem Covers.mem_keys_iff {fields : ResolverFields} {resolvers : List Resolver}
    (h : fields.Covers resolvers) (name : String) :
    name ∈ fields.extensions.keys ↔ fields.fieldsOf (.type name) ≠ [] := by
  rw [Table.keys, List.mem_map]
  constructor
  · rintro ⟨entry, hentry, rfl⟩
    obtain ⟨hfields, hne⟩ := h.mem_extensions_iff.mp hentry
    rwa [hfields]
  · intro hne
    exact ⟨(name, fields.fieldsOf (.type name)), h.mem_extensions_iff.mpr ⟨rfl, hne⟩, rfl⟩

theorem keys_targets (fields : ResolverFields) :
    (Schema.targets fields).map (·.1) =
      (if fields.query.isEmpty then [] else [queryType]) ++
        (if fields.mutation.isEmpty then [] else [mutationType]) ++ fields.extensions.keys := by
  cases hquery : fields.query.isEmpty <;> cases hmutation : fields.mutation.isEmpty <;>
    simp [Schema.targets, Table.keys, hquery, hmutation]

theorem queryType_ne_mutationType : queryType ≠ mutationType := by decide

theorem nodup_targets_iff_keys {fields : ResolverFields} (h : fields.extensions.keys.Nodup) :
    ((Schema.targets fields).map (·.1)).Nodup ↔
      (fields.query ≠ [] → queryType ∉ fields.extensions.keys) ∧
        (fields.mutation ≠ [] → mutationType ∉ fields.extensions.keys) := by
  rw [keys_targets, List.nodup_append]
  constructor
  · rintro ⟨-, -, hdisjoint⟩
    refine ⟨fun hne hmem => ?_, fun hne hmem => ?_⟩
    · exact hdisjoint queryType (by simp [hne]) queryType hmem rfl
    · exact hdisjoint mutationType (by simp [hne]) mutationType hmem rfl
  · rintro ⟨hquery, hmutation⟩
    refine ⟨?_, h, ?_⟩
    · cases fields.query.isEmpty <;> cases fields.mutation.isEmpty <;>
        simp [queryType_ne_mutationType]
    · rintro name hname other hother rfl
      rcases List.mem_append.mp hname with hname | hname
      · split at hname
        · cases hname
        · rename_i hne
          rw [List.mem_singleton] at hname
          exact hquery (by simpa using hne) (hname ▸ hother)
      · split at hname
        · cases hname
        · rename_i hne
          rw [List.mem_singleton] at hname
          exact hmutation (by simpa using hne) (hname ▸ hother)

/-- No type is extended twice exactly when no two owners that have fields stand for one type. -/
theorem Covers.nodup_targets_iff {fields : ResolverFields} {resolvers : List Resolver}
    (h : fields.Covers resolvers) :
    ((Schema.targets fields).map (·.1)).Nodup ↔
      ∀ owner other : Owner, fields.fieldsOf owner ≠ [] → fields.fieldsOf other ≠ [] →
        owner.target = other.target → owner = other := by
  rw [nodup_targets_iff_keys h.keys, h.mem_keys_iff, h.mem_keys_iff]
  constructor
  · rintro ⟨hquery, hmutation⟩ owner other howner hother htarget
    cases owner with
    | query =>
      cases other with
      | query => rfl
      | mutation => exact absurd htarget queryType_ne_mutationType
      | type name =>
        cases htarget
        exact absurd hother (hquery howner)
    | mutation =>
      cases other with
      | query => exact absurd htarget.symm queryType_ne_mutationType
      | mutation => rfl
      | type name =>
        cases htarget
        exact absurd hother (hmutation howner)
    | type name =>
      cases other with
      | query =>
        cases htarget
        exact absurd howner (hquery hother)
      | mutation =>
        cases htarget
        exact absurd howner (hmutation hother)
      | type _ => exact congrArg _ htarget
  · intro hunique
    refine ⟨fun hne hmem => ?_, fun hne hmem => ?_⟩
    · cases hunique .query (.type queryType) hne hmem rfl
    · cases hunique .mutation (.type mutationType) hne hmem rfl

end ResolverFields

end SchemaCompiler.GraphQL

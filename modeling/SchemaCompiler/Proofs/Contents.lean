import SchemaCompiler.Proofs.Declarations
import SchemaCompiler.Proofs.Schema.Contents
import SchemaCompiler.Proofs.TypeNames

/-!
# Where the types of a generated schema come from

After a run without errors every exported type and every type made for a written-out object stands in
the schema, and every type of the schema is one of these or a root type. Pruning takes types away by
name, so a type is written out when its name is. Every resolver is a field of an extension that is
written out, and every such field answers a resolver.
-/

namespace SchemaCompiler

open GraphQL GraphQL.ResolverFields

variable {p : Program} {config : Config}

theorem made_writtenOut {t : TypeDef} {mappings : List ScalarMapping}
    (h : t ∈ (analyze p mappings).writtenOut) : t.Made := by
  rcases List.mem_append.mp h with h | h
  · exact inlineTypes_admit Lowering.admitsInline_made _ t h
  · rw [(linked_analyze p mappings).resolverFields] at h
    exact (lowerResolvers_run Lowering.admitsInline_made _).1 t h

/-! ## The whole schema -/

/-- The schema is put together from what exported types become and from the types that are made. -/
theorem typeDefs_analyze (h : (analyze p config.scalars).Clean) :
    ∃ declared, List.Forall₂ Becomes (analyze p config.scalars).types.value declared ∧
      (analyze p config.scalars).typeDefs.value ++
          (analyze p config.scalars).resolverFields.value.types =
        declared ++ (analyze p config.scalars).writtenOut := by
  have hlinked := linked_analyze p config.scalars
  obtain ⟨declared, hbecomes, hvalue⟩ := lowerTypes_ok (hlinked.typeDefs ▸ h.typeDefs)
  refine ⟨declared, hbecomes, ?_⟩
  rw [hlinked.typeDefs, hvalue, List.append_assoc, Analysis.writtenOut]

theorem GraphQL.Becomes.of_alike {t : ExportedType} {d d' : TypeDef} (h : Becomes t d)
    (h' : Alike d' d) : Becomes t d' :=
  ⟨h'.name.trans h.name, h'.kind.trans h.kind, h'.fields.trans h.fields,
    h'.interfaces.trans h.interfaces, h'.values ▸ h.values, h.scalars⟩

/-- What a type of the schema comes from. -/
inductive Analysis.Origin (a : Analysis) (d : TypeDef) : Prop where
  | exported {t : ExportedType} (ht : t ∈ a.types.value) (hbecomes : Becomes t d)
  | made (hd : d ∈ a.writtenOut)
  | query (hd : d = Schema.rootType queryType)
  | mutation (hd : d = Schema.rootType mutationType)

theorem origin_of_mem (h : (analyze p config.scalars).Clean) {d : TypeDef}
    (hd : d ∈ (analyze p config.scalars).typeDefs.value ++
      (analyze p config.scalars).resolverFields.value.types) :
    (analyze p config.scalars).Origin d := by
  obtain ⟨declared, hbecomes, hall⟩ := typeDefs_analyze h
  rw [hall] at hd
  rcases List.mem_append.mp hd with hd | hd
  · obtain ⟨t, ht, hbecomes⟩ := exists_of_forall₂ hbecomes.flip hd
    exact .exported ht hbecomes
  · exact .made hd

/-- A base type comes from an exported type or from a written-out object, or is a root. -/
theorem origin_baseType (h : (analyze p config.scalars).Clean) {d : TypeDef}
    (hd : d ∈ (analyze p config.scalars).schema.value.baseTypes) :
    (analyze p config.scalars).Origin d := by
  rw [(linked_analyze p config.scalars).schema] at hd
  rcases mem_baseTypes_integrate hd with hd | hd | hd
  · exact origin_of_mem h hd
  · exact .query hd
  · exact .mutation hd

theorem origin_inputType (h : (analyze p config.scalars).Clean) {u : InputType}
    (hu : u ∈ (analyze p config.scalars).schema.value.inputTypes) :
    ∃ d, (analyze p config.scalars).Origin d ∧ d.kind = .inputObject ∧
      u = Schema.InputType.ofTypeDef d := by
  rw [(linked_analyze p config.scalars).schema] at hu
  obtain ⟨d, hd, hkind, rfl⟩ := mem_inputTypes_integrate hu
  exact ⟨d, origin_of_mem h hd, hkind, rfl⟩

/-- What the schema is put together from stands in it. -/
theorem exists_alike (h : (analyze p config.scalars).Clean) {t : TypeDef}
    (ht : t ∈ (analyze p config.scalars).typeDefs.value ++
      (analyze p config.scalars).resolverFields.value.types) :
    ∃ d, (analyze p config.scalars).schema.value.Holds d ∧ Alike d t := by
  have hlinked := linked_analyze p config.scalars
  rw [hlinked.schema]
  exact exists_alike_integrate (hlinked.schema ▸ h.schema) ht

/-- Every exported type stands in the schema. -/
theorem exists_becomes (h : (analyze p config.scalars).Clean) {t : ExportedType}
    (ht : t ∈ (analyze p config.scalars).types.value) :
    ∃ d, (analyze p config.scalars).schema.value.Holds d ∧ Becomes t d := by
  obtain ⟨declared, hbecomes, hall⟩ := typeDefs_analyze h
  obtain ⟨d, hd, hbecomes⟩ := exists_of_forall₂ hbecomes ht
  have hmem := List.mem_append_left (analyze p config.scalars).writtenOut hd
  rw [← hall] at hmem
  obtain ⟨d', hd', halike⟩ := exists_alike h hmem
  exact ⟨d', hd', hbecomes.of_alike halike⟩

/-- Every type that is made stands in the schema. -/
theorem exists_alike_made (h : (analyze p config.scalars).Clean) {t : TypeDef}
    (ht : t ∈ (analyze p config.scalars).writtenOut) :
    ∃ d, (analyze p config.scalars).schema.value.Holds d ∧ Alike d t := by
  obtain ⟨declared, -, hall⟩ := typeDefs_analyze h
  have hmem := List.mem_append_right declared ht
  rw [← hall] at hmem
  exact exists_alike h hmem

/-! ## The schema that is written out -/

theorem baseTypes_writtenSchema_subset (p : Program) (config : Config) :
    (writtenSchema p config).baseTypes ⊆ (analyze p config.scalars).schema.value.baseTypes := by
  rcases writtenSchema_eq_or p config with heq | heq <;> rw [heq]
  · exact fun t ht => (Schema.mem_baseTypes_prune.mp ht).1
  · exact List.Subset.refl _

theorem inputTypes_writtenSchema_subset (p : Program) (config : Config) :
    (writtenSchema p config).inputTypes ⊆ (analyze p config.scalars).schema.value.inputTypes := by
  rcases writtenSchema_eq_or p config with heq | heq <;> rw [heq]
  · exact fun t ht => (Schema.mem_inputTypes_prune.mp ht).1
  · exact List.Subset.refl _

/-- A type is written out when its name is. -/
theorem holds_writtenSchema {d : TypeDef} (hd : (analyze p config.scalars).schema.value.Holds d)
    (hname : d.name ∈ (writtenSchema p config).typeNames) : (writtenSchema p config).Holds d := by
  rcases writtenSchema_eq_or p config with heq | heq <;> rw [heq] at hname ⊢
  · have hreach : d.name ∈ (analyze p config.scalars).schema.value.reachable := by
      rcases Schema.mem_typeNames.mp hname with ⟨t, ht, hname⟩ | ⟨t, ht, hname⟩
      · exact hname ▸ (Schema.mem_baseTypes_prune.mp ht).2
      · exact hname ▸ (Schema.mem_inputTypes_prune.mp ht).2
    rcases hd with ⟨hkind, hd⟩ | ⟨hkind, hd⟩
    · exact Or.inl ⟨hkind, Schema.mem_baseTypes_prune.mpr ⟨hd, hreach⟩⟩
    · exact Or.inr ⟨hkind, Schema.mem_inputTypes_prune.mpr ⟨hd, hreach⟩⟩
  · exact hd

/-- What the written schema refers to stands for the same as in the whole schema. -/
theorem defines_writtenSchema_iff {name : String} (hname : (writtenSchema p config).Refers name)
    (kind : Kind) :
    (writtenSchema p config).Defines kind name ↔
      (analyze p config.scalars).schema.value.Defines kind name := by
  rcases writtenSchema_eq_or p config with heq | heq <;> rw [heq] at hname ⊢
  exact (formed_analyze p config.scalars).distinct.defines_prune_iff hname kind

/-! ## Extensions that are written out -/

theorem extensions_writtenSchema (h : (analyze p config.scalars).Clean) :
    (writtenSchema p config).extensions =
      (Schema.targets (analyze p config.scalars).resolverFields.value).map
        fun entry => ⟨entry.1, entry.2⟩ := by
  have hextensions := (integrate_ok ((linked_analyze p config.scalars).schema ▸ h.schema)).1
  rw [← (linked_analyze p config.scalars).schema] at hextensions
  rcases writtenSchema_eq_or p config with heq | heq <;> rw [heq]
  · exact hextensions
  · exact hextensions

theorem covers_analyze (p : Program) (mappings : List ScalarMapping) :
    (analyze p mappings).resolverFields.value.Covers (analyze p mappings).resolvers.value := by
  rw [(linked_analyze p mappings).resolverFields]
  exact (lowerResolvers_run Lowering.admitsInline_lowered _).2

/-- An extension that is written out is made of the fields of an owner. -/
theorem mem_extensions_iff (h : (analyze p config.scalars).Clean) {e : TypeExtension} :
    e ∈ (writtenSchema p config).extensions ↔
      ∃ owner : Owner, owner.target = e.target ∧
        (analyze p config.scalars).resolverFields.value.fieldsOf owner = e.fields ∧
        e.fields ≠ [] := by
  obtain ⟨target, fields⟩ := e
  rw [extensions_writtenSchema h, List.mem_map,
    ← (covers_analyze p config.scalars).mem_targets_iff (target, fields)]
  constructor
  · rintro ⟨entry, hentry, heq⟩
    cases heq
    exact hentry
  · intro hentry
    exact ⟨_, hentry, rfl⟩

/-- A field of an extension that is written out answers a resolver. -/
theorem exists_resolver (h : (analyze p config.scalars).Clean) {e : TypeExtension}
    (he : e ∈ (writtenSchema p config).extensions) {f : ResolvedField} (hf : f ∈ e.fields) :
    ∃ r ∈ (analyze p config.scalars).resolvers.value,
      (owner? r).isSome = true ∧ Resolver.Answers r f := by
  obtain ⟨owner, -, hfields, -⟩ := (mem_extensions_iff h).mp he
  obtain ⟨r, hr, howner, hanswers⟩ :=
    (covers_analyze p config.scalars).origin owner f (hfields ▸ hf)
  exact ⟨r, hr, by rw [howner]; rfl, hanswers⟩

/-- Every resolver is a field of an extension that is written out. -/
theorem exists_extension (h : (analyze p config.scalars).Clean) {r : Resolver}
    (hr : r ∈ (analyze p config.scalars).resolvers.value) {owner : Owner}
    (howner : owner? r = some owner) :
    ∃ e ∈ (writtenSchema p config).extensions, e.target = owner.target ∧
      ∃ f ∈ e.fields, Resolver.Answers r f := by
  obtain ⟨f, hf, hanswers⟩ := (covers_analyze p config.scalars).kept owner r hr howner
  exact ⟨⟨owner.target, _⟩, (mem_extensions_iff h).mpr ⟨owner, rfl, rfl, List.ne_nil_of_mem hf⟩,
    rfl, f, hf, hanswers⟩

end SchemaCompiler

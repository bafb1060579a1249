import SchemaCompiler.Generate
import SchemaCompiler.Proofs.Document

/-!
# What a run without errors puts out

`outputSchema` of the analysis is the schema that is written out, and `outputDocument` its document.
A run has no errors when loading had none and no stage of the analysis had one; then the schema is
formed, every name in it fits its place, and pruning takes nothing away that is still referred to.
-/

namespace SchemaCompiler

open GraphQL

/-! ## Texts -/

/-- The schema that is written out for a program. -/
def writtenSchema (p : Program) (config : Config) : Schema :=
  (outputSchema (analyze p config.scalars).schema.value config.enablePruning).1

/-- What is written out is the pruned schema or the whole one. -/
theorem writtenSchema_eq_or (p : Program) (config : Config) :
    writtenSchema p config = (analyze p config.scalars).schema.value.prune.schema ∨
      writtenSchema p config = (analyze p config.scalars).schema.value := by
  unfold writtenSchema
  -- for a schema in general, so that no analysis is unfolded where the two are compared
  generalize (analyze p config.scalars).schema.value = s
  cases config.enablePruning
  · exact Or.inr rfl
  · exact Or.inl rfl

/-- The document that is written out for a program. -/
def outputDocument (p : Program) (config : Config) : Document :=
  Document.ofSchema (writtenSchema p config)

/-! ## Stages -/

/-- The later stages of an analysis start from what the earlier ones found. -/
structure Analysis.Linked (a : Analysis) : Prop where
  scalars : a.scalars = collectScalars a.registry.value.bindings
  typeDefs : a.typeDefs = lowerTypes a.types.value
  resolverFields : a.resolverFields = lowerResolvers a.resolvers.value
  schema : a.schema = integrate a.typeDefs.value a.resolverFields.value a.scalars.scalars
  arguments : a.arguments = validateArguments a.schema.value.extensions a.schema.value.inputTypes
    (.ofSchema a.schema.value)
  outputs : a.outputs = validateOutputs a.schema.value (.ofSchema a.schema.value)

theorem linked_analyze (p : Program) (mappings : List ScalarMapping) :
    (analyze p mappings).Linked := by
  constructor <;> simp only [analyze]

/-- No stage of an analysis reported an error. -/
structure Analysis.Clean (a : Analysis) : Prop where
  registry : hasErrors a.registry.diagnostics = false
  types : hasErrors a.types.diagnostics = false
  scalars : hasErrors a.scalars.diagnostics = false
  typeDefs : hasErrors a.typeDefs.diagnostics = false
  resolvers : hasErrors a.resolvers.diagnostics = false
  resolverFields : hasErrors a.resolverFields.diagnostics = false
  schema : hasErrors a.schema.diagnostics = false
  arguments : hasErrors a.arguments = false
  outputs : hasErrors a.outputs = false

theorem Analysis.clean_iff {a : Analysis} : a.Clean ↔ hasErrors a.diagnostics = false := by
  simp only [diagnostics, schemaDiagnostics, hasErrors_append, Bool.or_eq_false_iff]
  constructor
  · intro h
    exact ⟨⟨⟨h.registry, ⟨⟨⟨h.types, h.scalars⟩, h.typeDefs⟩, h.resolvers, h.resolverFields⟩,
      h.schema⟩, h.arguments⟩, h.outputs⟩
  · rintro ⟨⟨⟨hregistry, ⟨⟨⟨htypes, hscalars⟩, htypeDefs⟩, hresolvers, hresolverFields⟩, hschema⟩,
      harguments⟩, houtputs⟩
    exact ⟨hregistry, htypes, hscalars, htypeDefs, hresolvers, hresolverFields, hschema,
      harguments, houtputs⟩

theorem clean_of_generate {p : Program} {before : List Diagnostic} {config : Config} {dir : Path}
    (h : (generate p before config dir).hasErrors = false) : (analyze p config.scalars).Clean := by
  have happend : hasErrors (before ++ (analyze p config.scalars).diagnostics) = false := h
  rw [hasErrors_append, Bool.or_eq_false_iff] at happend
  exact Analysis.clean_iff.mpr happend.2

/-! ## The schema -/

theorem formed_analyze (p : Program) (mappings : List ScalarMapping) :
    (analyze p mappings).schema.value.Formed := by
  have hlinked := linked_analyze p mappings
  rw [hlinked.schema, hlinked.typeDefs, hlinked.resolverFields]
  exact formed_integrate (lowerTypes_lowered _)
    (lowerResolvers_run Lowering.admitsInline_lowered _).1

/-- Every name of a schema fits its place. -/
structure GraphQL.Schema.Fits (s : Schema) : Prop where
  arguments : ∀ e ∈ s.extensions, ∀ f ∈ e.fields, ∀ a ∈ f.field.args, s.TakesInput a.type.typeName
  inputFields : ∀ t ∈ s.inputTypes, ∀ f ∈ t.fields, s.TakesInput f.type.typeName
  fields : ∀ t ∈ s.baseTypes, t.kind = .object ∨ t.kind = .interface →
    ∀ f ∈ t.fields, s.GivesOutput f.type.typeName
  members : ∀ t ∈ s.baseTypes, ∀ m ∈ t.unionMembers,
    ∃ kind, kind.isComposite = true ∧ s.Defines kind m
  extended : ∀ e ∈ s.extensions, ∀ f ∈ e.fields, s.GivesOutput f.field.type.typeName
  targets : ∀ e ∈ s.extensions, s.Defines .object e.target

theorem fits_analyze {p : Program} {mappings : List ScalarMapping}
    (h : (analyze p mappings).Clean) : (analyze p mappings).schema.value.Fits := by
  have hlinked := linked_analyze p mappings
  obtain ⟨harguments, hinputFields, -⟩ :=
    validateArguments_ok_iff.mp (hlinked.arguments ▸ h.arguments)
  obtain ⟨hfields, hmembers, hextended⟩ := validateOutputs_ok (hlinked.outputs ▸ h.outputs)
  refine ⟨harguments, hinputFields, hfields, hmembers, hextended, fun e he => ?_⟩
  obtain ⟨hextensions, htargets⟩ := integrate_ok (hlinked.schema ▸ h.schema)
  rw [hlinked.schema] at he ⊢
  rw [hextensions] at he
  obtain ⟨entry, hentry, rfl⟩ := List.mem_map.mp he
  obtain ⟨⟨t, ht, hname, hkind⟩, -⟩ := htargets entry hentry
  exact Or.inl ⟨t, ht, hkind, hname⟩

namespace GraphQL.Schema

variable {s : Schema}

/-! ## Pruning -/

/-- Pruning leaves no reference without what it refers to. -/
theorem Fits.prune (hfits : s.Fits) (h : s.Distinct) : s.prune.schema.Fits where
  arguments e he f hf a ha :=
    (h.takesInput_prune_iff (refers_argument he hf ha)).mpr (hfits.arguments e he f hf a ha)
  inputFields t ht f hf :=
    (h.takesInput_prune_iff (refers_inputField ht hf)).mpr
      (hfits.inputFields t (mem_inputTypes_prune.mp ht).1 f hf)
  fields t ht hkind f hf :=
    (h.givesOutput_prune_iff (refers_field ht hf)).mpr
      (hfits.fields t (mem_baseTypes_prune.mp ht).1 hkind f hf)
  members t ht m hm := by
    obtain ⟨kind, hkind, hdefines⟩ := hfits.members t (mem_baseTypes_prune.mp ht).1 m hm
    exact ⟨kind, hkind, (h.defines_prune_iff (refers_member ht hm) kind).mpr hdefines⟩
  extended e he f hf :=
    (h.givesOutput_prune_iff (refers_resolved he hf)).mpr (hfits.extended e he f hf)
  targets e he := (h.defines_prune_iff (refers_target he) .object).mpr (hfits.targets e he)

end GraphQL.Schema

theorem formed_writtenSchema (p : Program) (config : Config) : (writtenSchema p config).Formed := by
  have hformed := formed_analyze p config.scalars
  rcases writtenSchema_eq_or p config with heq | heq <;> rw [heq]
  · exact hformed.prune
  · exact hformed

theorem fits_writtenSchema {p : Program} {config : Config}
    (h : (analyze p config.scalars).Clean) : (writtenSchema p config).Fits := by
  have hfits := fits_analyze h
  rcases writtenSchema_eq_or p config with heq | heq <;> rw [heq]
  · exact hfits.prune (formed_analyze p config.scalars).distinct
  · exact hfits

end SchemaCompiler

import Mathlib
import SchemaCompiler.Proofs.Contents
import SchemaCompiler.Proofs.ResolverMap
import SchemaCompiler.Proofs.Sample

/-!
# When every resolver is wired

After a run without errors every resolver is a field of an extension that is written out. The map of
the resolver module holds all of them exactly when three clashes do not happen: a type that is
extended by query or mutation resolvers is not extended by field resolvers too, no type that
resolvers extend has the name of a scalar, and no resolver stands in a module that is imported under
the name of the parameter for scalars.
-/

namespace SchemaCompiler

open GraphQL GraphQL.ResolverFields

/-- Nothing keeps the resolvers of a program apart from their entries. -/
structure Analysis.Wirable (a : Analysis) (dir : Path) : Prop where
  /-- Resolvers that extend one type are of one kind. -/
  owners : ∀ r ∈ a.resolvers.value, ∀ r' ∈ a.resolvers.value, ∀ owner other : Owner,
    owner? r = some owner → owner? r' = some other → owner.target = other.target → owner = other
  /-- No scalar is named as a type that is extended. -/
  scalars : ∀ r ∈ a.resolvers.value, ∀ owner : Owner, owner? r = some owner →
    owner.target ∉ customNames a.registry.value.bindings
  /-- No module is imported under the name of the parameter for scalars. -/
  modules : customNames a.registry.value.bindings = [] ∨
    ∀ r ∈ a.resolvers.value, (owner? r).isSome = true →
      Namespaces.ident (relativeImport dir r.sourceFile) ≠ ResolverMap.parameter

/-! ## Extensions that are written out -/

theorem resolved_of_mem {p : Program} {config : Config} (h : (analyze p config.scalars).Clean)
    {e : TypeExtension} (he : e ∈ (writtenSchema p config).extensions) : ResolverMap.Resolved e := by
  obtain ⟨-, -, -, hne⟩ := (mem_extensions_iff h).mp he
  refine ⟨hne, fun f hf => ?_, ?_⟩
  · obtain ⟨r, -, -, hanswers⟩ := exists_resolver h he hf
    exact ⟨r.sourceFile, r.exportName, hanswers.sourceFile, hanswers.exportName⟩
  · rw [extensions_writtenSchema h] at he
    obtain ⟨entry, hentry, rfl⟩ := List.mem_map.mp he
    exact ((integrate_ok ((linked_analyze p config.scalars).schema ▸ h.schema)).2 entry hentry).2

theorem customScalars_eq_nil_iff {p : Program} {config : Config} :
    (writtenSchema p config).customScalars = [] ↔
      customNames (analyze p config.scalars).registry.value.bindings = [] := by
  rw [← List.map_eq_nil_iff (f := (·.name)), List.eq_nil_iff_forall_not_mem,
    List.eq_nil_iff_forall_not_mem]
  exact forall_congr' fun name => not_congr (mem_scalarNames_writtenSchema p config name)

/-! ## Wiring -/

theorem nodup_extensions_iff {p : Program} {config : Config}
    (h : (analyze p config.scalars).Clean) :
    ((writtenSchema p config).extensions.map (·.target)).Nodup ↔
      ∀ r ∈ (analyze p config.scalars).resolvers.value,
        ∀ r' ∈ (analyze p config.scalars).resolvers.value, ∀ owner other : Owner,
          owner? r = some owner → owner? r' = some other → owner.target = other.target →
            owner = other := by
  have hcovers := covers_analyze p config.scalars
  have hnames : (writtenSchema p config).extensions.map (·.target) =
      (Schema.targets (analyze p config.scalars).resolverFields.value).map (·.1) := by
    rw [extensions_writtenSchema h, List.map_map]
    rfl
  rw [hnames, hcovers.nodup_targets_iff]
  constructor
  · intro hunique r hr r' hr' owner other howner hother
    exact hunique owner other ((hcovers.fieldsOf_ne_nil_iff owner).mpr ⟨r, hr, howner⟩)
      ((hcovers.fieldsOf_ne_nil_iff other).mpr ⟨r', hr', hother⟩)
  · intro hunique owner other hne hne'
    obtain ⟨r, hr, howner⟩ := (hcovers.fieldsOf_ne_nil_iff owner).mp hne
    obtain ⟨r', hr', hother⟩ := (hcovers.fieldsOf_ne_nil_iff other).mp hne'
    exact hunique r hr r' hr' owner other howner hother

/-- After a run without errors, the resolver map holds what the extensions of the document say
exactly when nothing keeps a resolver from its entry. -/
theorem resolverMap_agrees_iff (p : Program) (before : List Diagnostic) (config : Config)
    (dir : Path) (h : (generate p before config dir).hasErrors = false) :
    (ResolverMap.ofSchema (writtenSchema p config) dir).Agrees dir (writtenSchema p config) ↔
      (analyze p config.scalars).Wirable dir := by
  have hclean := clean_of_generate h
  have hcovers := covers_analyze p config.scalars
  rw [ResolverMap.agrees_iff fun e he => resolved_of_mem hclean he, nodup_extensions_iff hclean,
    customScalars_eq_nil_iff]
  simp only [mem_scalarNames_writtenSchema]
  constructor
  · rintro ⟨howners, hscalars, hmodules⟩
    refine ⟨howners, fun r hr owner howner => ?_, hmodules.imp_right fun hfiles r hr hsome => ?_⟩
    · obtain ⟨e, he, htarget, -⟩ := exists_extension hclean hr howner
      exact htarget ▸ hscalars e he
    · obtain ⟨owner, howner⟩ := Option.isSome_iff_exists.mp hsome
      obtain ⟨e, he, -, f, hf, hanswers⟩ := exists_extension hclean hr howner
      exact hfiles e he f hf r.sourceFile hanswers.sourceFile
  · rintro ⟨howners, hscalars, hmodules⟩
    refine ⟨howners, fun e he => ?_, hmodules.imp_right fun hfiles e he f hf file hfile => ?_⟩
    · obtain ⟨owner, htarget, hfields, hne⟩ := (mem_extensions_iff hclean).mp he
      obtain ⟨r, hr, howner⟩ := (hcovers.fieldsOf_ne_nil_iff owner).mp (hfields ▸ hne)
      exact htarget ▸ hscalars r hr owner howner
    · obtain ⟨owner, -, hfields, -⟩ := (mem_extensions_iff hclean).mp he
      obtain ⟨r, hr, howner, hanswers⟩ := hcovers.origin owner f (hfields ▸ hf)
      rw [hanswers.sourceFile] at hfile
      cases hfile
      exact hfiles r hr (by rw [howner]; rfl)

/-! ## Query resolvers that are lost -/

namespace Sample

attribute [local irreducible] String.decEq

/-- A single query. -/
def versionProgram : Program :=
  program [] [constant "version" (applied "QueryResolver" [named "NoArgs", keyword .string])]

/-- A query type that is declared, with a query resolver and with a field resolver. -/
def queryProgram : Program :=
  program [interface "Query" [property "version" (keyword .string)]]
    [constant "users" (applied "QueryResolver" [named "NoArgs", keyword .string]),
      constant "extra" (applied "FieldResolver" [named "Query", named "NoArgs", keyword .string])]

set_option maxRecDepth 10000

theorem versionProgram_run :
    (hasErrors (analyze versionProgram []).diagnostics,
      (analyze versionProgram []).resolvers.value.map owner?,
      customNames (analyze versionProgram []).registry.value.bindings) =
        (false, [some .query], []) := by
  cbv

theorem versionProgram_clean : hasErrors (analyze versionProgram []).diagnostics = false :=
  congrArg (·.1) versionProgram_run

theorem versionProgram_owners :
    (analyze versionProgram []).resolvers.value.map owner? = [some .query] :=
  congrArg (·.2.1) versionProgram_run

theorem versionProgram_scalars :
    customNames (analyze versionProgram []).registry.value.bindings = [] :=
  congrArg (·.2.2) versionProgram_run

theorem queryProgram_run :
    (hasErrors (analyze queryProgram []).diagnostics,
      (writtenSchema queryProgram (config false)).extensions.map
        fun e => (e.target, e.fields.map (·.field.name))) =
      (false, [("Query", ["users"]), ("Query", ["extra"])]) := by
  cbv

theorem queryProgram_clean : hasErrors (analyze queryProgram []).diagnostics = false :=
  congrArg (·.1) queryProgram_run

theorem queryProgram_extensions :
    (writtenSchema queryProgram (config false)).extensions.map
        (fun e => (e.target, e.fields.map (·.field.name))) =
      [("Query", ["users"]), ("Query", ["extra"])] :=
  congrArg (·.2) queryProgram_run

end Sample

open Sample

theorem resolverMap_agrees_versionProgram :
    (ResolverMap.ofSchema (writtenSchema versionProgram (config false)) ⟨""⟩).Agrees ⟨""⟩
      (writtenSchema versionProgram (config false)) := by
  refine (resolverMap_agrees_iff versionProgram [] (config false) ⟨""⟩ versionProgram_clean).mpr
    ⟨?_, ?_, Or.inl versionProgram_scalars⟩
  · intro r hr r' hr' owner other howner hother _
    have h := List.mem_map_of_mem (f := owner?) hr
    have h' := List.mem_map_of_mem (f := owner?) hr'
    rw [show (analyze versionProgram (config false).scalars).resolvers.value.map owner? = _ from
      versionProgram_owners, List.mem_singleton] at h h'
    exact Option.some.inj (howner.symm.trans (h.trans (h'.symm.trans hother)))
  · intro r _ owner _
    rw [show customNames (analyze versionProgram (config false).scalars).registry.value.bindings = _
      from versionProgram_scalars]
    exact List.not_mem_nil

/-- A run without errors whose resolver map has lost a query. -/
theorem resolverMap_loses_query :
    (generate queryProgram [] (config false) ⟨""⟩).hasErrors = false ∧
      (∃ e ∈ (writtenSchema queryProgram (config false)).extensions, e.target = "Query" ∧
        ∃ f ∈ e.fields, f.field.name = "users" ∧ ResolverMap.Known f) ∧
      (ResolverMap.ofSchema (writtenSchema queryProgram (config false)) ⟨""⟩).resolver?
        "Query" "users" = none ∧
      ¬ (ResolverMap.ofSchema (writtenSchema queryProgram (config false)) ⟨""⟩).Agrees ⟨""⟩
        (writtenSchema queryProgram (config false)) := by
  have hclean : (analyze queryProgram (config false).scalars).Clean :=
    Analysis.clean_iff.mpr queryProgram_clean
  have hresolved := fun e he => resolved_of_mem (p := queryProgram) hclean (e := e) he
  obtain ⟨first, rest, hextensions, hfirst, hrest⟩ := List.map_eq_cons_iff.mp queryProgram_extensions
  obtain ⟨last, tail, rfl, hlast, htail⟩ := List.map_eq_cons_iff.mp hrest
  rw [List.map_eq_nil_iff] at htail
  subst htail
  obtain ⟨hfirstTarget, hfirstNames⟩ := Prod.mk.inj hfirst
  obtain ⟨hlastTarget, hlastNames⟩ := Prod.mk.inj hlast
  have hmem : first ∈ (writtenSchema queryProgram (config false)).extensions :=
    hextensions ▸ List.mem_cons_self
  have husers : "users" ∈ first.fields.map (·.field.name) := hfirstNames ▸ List.mem_cons_self
  obtain ⟨f, hf, hname⟩ := List.mem_map.mp husers
  have hnone : (ResolverMap.ofSchema (writtenSchema queryProgram (config false)) ⟨""⟩).resolver?
      "Query" "users" = none := by
    rw [← hlastTarget]
    exact ResolverMap.resolver?_of_last hresolved [first] hextensions
      (by rw [hlastNames]; decide)
  refine ⟨queryProgram_clean, ⟨first, hmem, hfirstTarget, f, hf, hname, (hresolved _ hmem).known f hf⟩,
    hnone, fun hagrees => ?_⟩
  obtain ⟨file, name, hfile, hexport⟩ := (hresolved _ hmem).known f hf
  obtain ⟨space, -, -, hbound⟩ := hagrees.bound first hmem f hf file name hfile hexport
  rw [hfirstTarget, hname, hnone] at hbound
  cases hbound

end SchemaCompiler

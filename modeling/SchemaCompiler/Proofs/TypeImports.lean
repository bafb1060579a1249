import SchemaCompiler.Proofs.Path.Order
import SchemaCompiler.Proofs.TypeNames

/-!
# Imported types that are exported

The generated module imports the types of scalars from the files that declare them, each under the
name of its alias. An alias declares a scalar wherever it stands, exported or not, and nothing
compares its name with what its module exports. So the imports find what they name exactly when each
alias that a scalar takes a type from is exported under its own name.
-/

namespace SchemaCompiler

open GraphQL

/-! ## Exports -/

namespace Program

/-- A module lists a name among its exports, or passes it on from another module. -/
inductive Exports (p : Program) : SourceModule → String → Prop
  | listed {m entry} : entry ∈ m.symbols.exports.entries → Exports p m entry.1
  | star {m star target name} :
      star ∈ m.symbols.stars → p.resolveModule m.path star.specifier = some target →
        name ≠ "default" → Exports p target name → Exports p m name

/-- The module in a file exports a name. -/
def ExportsFrom (p : Program) (file : Path) (name : String) : Prop :=
  ∃ m ∈ p.modules, (m.path == file) = true ∧ p.Exports m name

theorem ExportsFrom.congr {p : Program} {file file' : Path} {name : String}
    (h : p.ExportsFrom file name) (hfile : (file == file') = true) : p.ExportsFrom file' name := by
  obtain ⟨m, hm, hpath, hexports⟩ := h
  exact ⟨m, hm, BEq.trans hpath hfile, hexports⟩

end Program

/-! ## Imports -/

namespace ResolverMap

/-- A type is imported from a module. -/
def Imports (types : SortedTable (List String)) (specifier name : String) : Prop :=
  ∃ names, (specifier, names) ∈ types.entries ∧ name ∈ names

theorem addType_spec (dir : Path) {types : SortedTable (List String)} (h : types.Ascending)
    (t : ScalarTypeRef) :
    (addType dir types t).Ascending ∧
      ∀ specifier name, Imports (addType dir types t) specifier name ↔
        Imports types specifier name ∨
          typeModule? dir t = some specifier ∧ t.typeName = name := by
  unfold addType
  split
  · rename_i hnone
    simp [h, hnone]
  · rename_i source hsource
    have halter := h.alter source fun names =>
      if (names.getD []).contains t.typeName then names.getD [] else names.getD [] ++ [t.typeName]
    refine ⟨halter, fun specifier name => ?_⟩
    simp only [Imports, halter.mem_entries_iff, h.mem_entries_iff, h.get?_alter, hsource,
      Option.some_inj]
    by_cases hspecifier : specifier = source
    · subst hspecifier
      cases types.get? specifier with
      | none => simp [eq_comm]
      | some names =>
        by_cases hknown : t.typeName ∈ names
        · simp only [if_true, Option.getD_some, List.contains_iff_mem, hknown, Option.some_inj,
            exists_eq_left', true_and]
          exact ⟨Or.inl, fun h => h.elim id fun heq => heq ▸ hknown⟩
        · simp [hknown, eq_comm]
    · simp [hspecifier, Ne.symm hspecifier]

theorem foldl_addType_spec (dir : Path) (refs : List ScalarTypeRef)
    {types : SortedTable (List String)} (h : types.Ascending) (specifier name : String) :
    Imports (refs.foldl (addType dir) types) specifier name ↔
      Imports types specifier name ∨
        ∃ t ∈ refs, typeModule? dir t = some specifier ∧ t.typeName = name := by
  induction refs generalizing types with
  | nil => simp
  | cons t rest ih =>
    obtain ⟨hascending, himports⟩ := addType_spec dir h t
    rw [List.foldl_cons, ih hascending, himports, or_assoc]
    simp only [List.mem_cons, exists_eq_or_imp]

theorem types_ofSchema (s : Schema) (dir : Path) : (ofSchema s dir).types =
    ((sortByName (·.name) s.customScalars).flatMap scalarTypes).foldl (addType dir) {} := rfl

/-- The imported types are those of scalars. -/
theorem imports_ofSchema_iff (s : Schema) (dir : Path) (specifier name : String) :
    Imports (ofSchema s dir).types specifier name ↔
      ∃ c ∈ s.customScalars, ∃ t ∈ scalarTypes c,
        typeModule? dir t = some specifier ∧ t.typeName = name := by
  rw [types_ofSchema, foldl_addType_spec _ _ SortedTable.ascending_empty]
  have hempty : ¬ Imports {} specifier name := by
    rintro ⟨names, hnames, -⟩
    cases hnames
  simp only [hempty, false_or, List.mem_flatMap, mem_sortByName]
  constructor
  · rintro ⟨t, ⟨c, hc, ht⟩, himport⟩
    exact ⟨c, hc, t, ht, himport⟩
  · rintro ⟨c, hc, t, ht, himport⟩
    exact ⟨t, ⟨c, hc, ht⟩, himport⟩

end ResolverMap

/-! ## Types of scalars -/

namespace ScalarBinding

/-- A scalar takes the types of all bindings that give output, and of the first one that takes
input. -/
def Serves (bindings : List ScalarBinding) (b : ScalarBinding) : Prop :=
  isBuiltinScalar b.scalar = false ∧
    (b.givesOutput = true ∨
      bindings.find? (fun c => c.scalar == b.scalar && c.takesInput) = some b)

end ScalarBinding

namespace ScalarGroup

variable {bindings : List ScalarBinding} {g : ScalarGroup} {b : ScalarBinding}

/-- The first binding of a group that takes input is the first one of its scalar. -/
theorem head?_inputs (h : g ∈ ofBindings bindings) :
    g.inputs.head? = bindings.find? fun c => c.scalar == g.name && c.takesInput := by
  have hkind : ∀ a b : ScalarBinding, a.repeats b = true → a.takesInput = b.takesInput :=
    fun a b hrepeats => by
      rw [ScalarBinding.takesInput, ScalarBinding.takesInput,
        (ScalarBinding.repeats_iff.mp hrepeats).2.2.2]
  rw [inputs, List.head?_filter, (bindings_of_mem_ofBindings h).2, distinct,
    find?_foldl_addNew hkind, List.nil_append, List.find?_filter]
  simp only [Bool.decide_and, Bool.decide_eq_true]

/-- The types of a scalar are those of the bindings that serve it. -/
theorem exists_serves (h : g ∈ ofBindings bindings) {t : ScalarTypeRef}
    (ht : t ∈ ResolverMap.scalarTypes g.definition) :
    ∃ b ∈ bindings, b.Serves bindings ∧ t = .ofBinding b := by
  have hcustom := (bindings_of_mem_ofBindings h).1
  rcases List.mem_append.mp ht with ht | ht
  · obtain ⟨b, hb, rfl⟩ := Option.map_eq_some_iff.mp (Option.mem_toList.mp ht)
    rw [head?_inputs h] at hb
    have hfound := List.find?_some hb
    simp only [Bool.and_eq_true, beq_iff_eq] at hfound
    refine ⟨b, List.mem_of_find?_eq_some hb, ⟨hfound.1 ▸ hcustom, Or.inr ?_⟩, rfl⟩
    rw [hfound.1, hb]
  · rw [show g.definition.outputTypes = g.outputTypes from rfl, outputTypes_eq] at ht
    obtain ⟨b, hb, rfl⟩ := List.mem_map.mp ((foldl_addNew_sublist _ []).subset ht)
    obtain ⟨hb, hgives⟩ := List.mem_filter.mp hb
    obtain ⟨hmem, hscalar⟩ := mem_of_mem_group h hb
    exact ⟨b, hmem, ⟨hscalar ▸ hcustom, Or.inl hgives⟩, rfl⟩

/-- A binding that serves its scalar gives it a type of its name, file and specifier. -/
theorem exists_scalarType (hb : b ∈ bindings) (hserves : b.Serves bindings) :
    ∃ g ∈ ofBindings bindings, ∃ t ∈ ResolverMap.scalarTypes g.definition,
      t.typeName = b.typeName ∧ (t.sourceFile == b.sourceFile) = true ∧
        t.importPath = b.importPath := by
  obtain ⟨hcustom, hserves⟩ := hserves
  obtain ⟨g, hg, hname⟩ := exists_mem_ofBindings hb hcustom
  refine ⟨g, hg, ?_⟩
  rcases hserves with hgives | hfirst
  · obtain ⟨c, hc, hrepeats⟩ : ∃ c ∈ g.bindings, c.repeats b = true := by
      rw [(bindings_of_mem_ofBindings hg).2]
      exact exists_mem_foldl_addNew _ (fun a => by simp [ScalarBinding.repeats_iff])
        (List.mem_filter.mpr ⟨hb, by simp [hname]⟩)
    obtain ⟨htype, hsource, himport, honly⟩ := ScalarBinding.repeats_iff.mp hrepeats
    have hgiven : ScalarTypeRef.ofBinding c ∈
        (g.bindings.filter (·.givesOutput)).map ScalarTypeRef.ofBinding := by
      refine List.mem_map_of_mem (List.mem_filter.mpr ⟨hc, ?_⟩)
      rwa [ScalarBinding.givesOutput, honly]
    obtain ⟨t, ht, hsame⟩ : ∃ t ∈ g.outputTypes, (ScalarTypeRef.ofBinding c == t) = true := by
      rw [outputTypes_eq]
      exact exists_mem_foldl_addNew (fun known t => t == known) (fun _ => BEq.rfl) hgiven
    obtain ⟨htype', hsource', himport', -⟩ := ScalarTypeRef.beq_iff.mp hsame
    exact ⟨t, List.mem_append_right _ ht, htype'.symm.trans htype,
      BEq.trans (Path.option_beq_iff.mpr hsource'.symm) hsource, himport'.symm.trans himport⟩
  · refine ⟨.ofBinding b, List.mem_append_left _ (Option.mem_toList.mpr ?_), rfl, BEq.rfl, rfl⟩
    rw [show g.definition.inputType = g.inputs.head?.map .ofBinding from rfl, head?_inputs hg, hname,
      hfirst]
    rfl

end ScalarGroup

/-! ## Declared scalars -/

namespace ScalarRegistry

variable {p : Program} {mappings : List ScalarMapping}

/-- What declares a scalar binds the name of its alias and the file of its module. -/
theorem binding_of_declared {d : DeclaredScalar} (h : d ∈ (build p mappings).value.declared) :
    d.binding.typeName = d.symbol.name ∧ d.binding.sourceFile = some d.symbol.module ∧
      d.binding.importPath = none := by
  have hdeclared : ∃ m ∈ p.modules, d ∈ (ofModule p m).value := by
    simpa [build] using h
  obtain ⟨m, -, hm⟩ := hdeclared
  rw [ofModule, Reported.value_eachSome] at hm
  obtain ⟨⟨name, site⟩, -, hsite⟩ := List.mem_filterMap.mp hm
  -- an interface, an alias or an enum
  rcases hnode : site.node with decl | decl | decl
  · simp only [ofSite, hnode] at hsite
    cases hsite
  · cases hbody : scalarBody? p m decl.body with
    | none =>
      simp only [ofSite, hnode, hbody] at hsite
      cases hsite
    | some arguments =>
      cases hread : ScalarArguments.read m arguments with
      | ok a =>
        simp only [ofSite, hnode, hbody, hread] at hsite
        cases hsite
        exact ⟨rfl, rfl, rfl⟩
      | error message =>
        simp only [ofSite, hnode, hbody, hread] at hsite
        cases hscanned : m.scanned <;> rw [hscanned] at hsite <;> cases hsite
  · simp only [ofSite, hnode] at hsite
    cases hsite

theorem declared_of_sourceFile {b : ScalarBinding} (hb : b ∈ (build p mappings).value.bindings)
    {file : Path} (hfile : b.sourceFile = some file) :
    ∃ d ∈ (build p mappings).value.declared, d.binding = b := by
  rcases List.mem_append.mp hb with hb | hb
  · exact List.mem_map.mp hb
  · have hmapped : (build p mappings).value.mapped = mappings.map ScalarBinding.ofMapping := rfl
    rw [hmapped] at hb
    obtain ⟨m, -, rfl⟩ := List.mem_map.mp hb
    cases hfile

end ScalarRegistry

/-! ## Imports that find what they name -/

/-- The generated module imports a type from a file: a scalar has a type of that name whose alias
the file declares, and it is listed under the specifier of the file. -/
structure TypeImport (s : Schema) (dir file : Path) (name : String) : Prop where
  declared : ∃ c ∈ s.customScalars, ∃ t ∈ ResolverMap.scalarTypes c,
    t.typeName = name ∧ t.sourceFile = some file ∧ t.importPath = none
  listed : ResolverMap.Imports (ResolverMap.ofSchema s dir).types (relativeImport dir file) name

theorem typeImport_of_scalarType {s : Schema} {c : ScalarDefinition} (hc : c ∈ s.customScalars)
    {t : ScalarTypeRef} (ht : t ∈ ResolverMap.scalarTypes c) {file : Path}
    (hfile : t.sourceFile = some file) (himport : t.importPath = none) (dir : Path) :
    TypeImport s dir file t.typeName where
  declared := ⟨c, hc, t, ht, rfl, hfile, himport⟩
  listed := by
    refine (ResolverMap.imports_ofSchema_iff s dir _ _).mpr ⟨c, hc, t, ht, ?_, rfl⟩
    rw [ResolverMap.typeModule?, hfile, himport]
    rfl

/-- The types that are imported from source files are exported there exactly when every alias that
declares a scalar and serves it is exported under its own name. -/
theorem typeImports_exported_iff (p : Program) (config : Config) (dir : Path) :
    (∀ file name, TypeImport (writtenSchema p config) dir file name → p.ExportsFrom file name) ↔
      ∀ d ∈ (ScalarRegistry.build p config.scalars).value.declared,
        d.binding.Serves (ScalarRegistry.build p config.scalars).value.bindings →
          p.ExportsFrom d.symbol.module d.symbol.name := by
  have hscalars : (writtenSchema p config).customScalars =
      (ScalarGroup.ofBindings (ScalarRegistry.build p config.scalars).value.bindings).map
        ScalarGroup.definition :=
    customScalars_writtenSchema p config
  constructor
  · intro hexported d hd hserves
    obtain ⟨hname, hsource, himport⟩ := ScalarRegistry.binding_of_declared hd
    have hbinding : d.binding ∈ (ScalarRegistry.build p config.scalars).value.bindings :=
      List.mem_append_left _ (List.mem_map_of_mem hd)
    obtain ⟨g, hg, t, ht, htype, hsame, himport'⟩ :=
      ScalarGroup.exists_scalarType hbinding hserves
    rw [hsource] at hsame
    cases hfile : t.sourceFile with
    | none =>
      rw [hfile] at hsame
      cases hsame
    | some file =>
      rw [hfile] at hsame
      have hlisted := typeImport_of_scalarType (hscalars ▸ List.mem_map_of_mem hg) ht hfile
        (himport'.trans himport) dir
      rw [htype, hname] at hlisted
      exact (hexported _ _ hlisted).congr hsame
  · intro hexported file name himport
    obtain ⟨c, hc, t, ht, rfl, hfile, -⟩ := himport.declared
    rw [hscalars] at hc
    obtain ⟨g, hg, rfl⟩ := List.mem_map.mp hc
    obtain ⟨b, hb, hserves, rfl⟩ := ScalarGroup.exists_serves hg ht
    obtain ⟨d, hd, rfl⟩ := ScalarRegistry.declared_of_sourceFile hb hfile
    obtain ⟨hname, hsource, -⟩ := ScalarRegistry.binding_of_declared hd
    obtain rfl : d.symbol.module = file := Option.some_inj.mp (hsource.symm.trans hfile)
    rw [ScalarTypeRef.ofBinding, hname]
    exact hexported d hd hserves

/-! ## An alias that is not exported -/

namespace Sample

attribute [local irreducible] String.decEq

/-- A user with a date; the alias that declares the scalar is not exported. -/
def dateModule : SourceModule :=
  hide "DateTime"
    (sourceModule
      [typeAlias "DateTime" (applied "DefineScalar" [text "DateTime", named "Date"]),
        interface "User" [property "at" (named "DateTime")]] [])

set_option maxRecDepth 10000

theorem dateModule_run :
    (hasErrors (analyze ⟨[dateModule]⟩ []).diagnostics,
      (writtenSchema ⟨[dateModule]⟩ (config false)).customScalars.map fun c =>
        (ResolverMap.scalarTypes c).map fun t => (t.typeName, t.sourceFile, t.importPath)) =
        (false, [[("DateTime", some file, none), ("DateTime", some file, none)]]) := by
  cbv

end Sample

open Sample in
/-- A run without errors whose resolver module imports a type that its file does not export. -/
theorem typeImport_not_exported :
    (generate ⟨[dateModule]⟩ [] (Sample.config false) ⟨""⟩).hasErrors = false ∧
      TypeImport (writtenSchema ⟨[dateModule]⟩ (Sample.config false)) ⟨""⟩ file "DateTime" ∧
      ¬ Program.ExportsFrom ⟨[dateModule]⟩ file "DateTime" := by
  obtain ⟨hclean, hscalars⟩ := Prod.mk.inj dateModule_run
  refine ⟨hclean, ?_, ?_⟩
  · have hlist : [("DateTime", some file, none), ("DateTime", some file, none)] ∈
        (writtenSchema ⟨[dateModule]⟩ (Sample.config false)).customScalars.map fun c =>
          (ResolverMap.scalarTypes c).map fun t => (t.typeName, t.sourceFile, t.importPath) := by
      rw [hscalars]
      exact List.mem_cons_self
    obtain ⟨c, hc, htypes⟩ := List.mem_map.mp hlist
    obtain ⟨t, ht, htype⟩ := List.mem_map.mp (htypes ▸ List.mem_cons_self)
    obtain ⟨hname, hfile, himport⟩ : t.typeName = "DateTime" ∧ t.sourceFile = some file ∧
        t.importPath = none := by simpa using htype
    exact hname ▸ typeImport_of_scalarType hc ht hfile himport ⟨""⟩
  · rintro ⟨m, hm, -, hexports⟩
    obtain rfl := List.mem_singleton.mp hm
    generalize hname : "DateTime" = name at hexports
    cases hexports with
    | listed hentry =>
      obtain rfl := List.mem_singleton.mp (show _ ∈ [_] from hentry)
      exact absurd hname (by decide)
    | star hstar => cases hstar

end SchemaCompiler

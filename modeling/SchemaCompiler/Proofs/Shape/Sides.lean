import Mathlib
import SchemaCompiler.GraphQL.Types
import SchemaCompiler.Proofs.Exports
import SchemaCompiler.Proofs.Mappings
import SchemaCompiler.Proofs.Shape.Classify

/-!
# Scalars on their sides

A configuration may map one type several times, for each side by an entry of its own, and with the
module that it is imported from or without. The classifier takes the first mapping that covers a type
and lowering then holds the field to the side of that one mapping. So a type is refused on a side
that it is mapped for exactly where an earlier mapping, for the other side only, stands in the way.
-/

namespace SchemaCompiler

open TypeScript

/-- A mapping covers a type name with the module that it is imported from, if any. -/
def ScalarMapping.Covers (m : ScalarMapping) (typeName : String) (specifier : Option String) :
    Prop :=
  m.typeName = typeName ∧ (m.importPath = none ∨ m.importPath = specifier)

instance (m : ScalarMapping) (typeName : String) (specifier : Option String) :
    Decidable (m.Covers typeName specifier) :=
  inferInstanceAs (Decidable (_ ∧ _))

/-- The first mapping that covers a type keeps it from a side that a later one maps it for. -/
def Shadowed (mappings : List ScalarMapping) (typeName : String) (specifier : Option String)
    (side : Side) : Prop :=
  ∃ before first after, mappings = before ++ first :: after ∧
    (∀ m ∈ before, ¬ m.Covers typeName specifier) ∧
    first.Covers typeName specifier ∧ admits first.only side = false ∧
    ∃ m ∈ after, m.Covers typeName specifier ∧ admits m.only side = true

/-! ## Looking up -/

namespace ScalarRegistry

theorem mapped?_build (p : Program) (mappings : List ScalarMapping) (typeName : String)
    (specifier : Option String) :
    (build p mappings).value.mapped? typeName specifier =
      (mappings.find? fun m => m.Covers typeName specifier).map ScalarBinding.ofMapping := by
  show (mappings.map ScalarBinding.ofMapping).find? _ = _
  rw [List.find?_map]
  congr 2
  funext m
  rw [Bool.eq_iff_iff, decide_eq_true_iff]
  simp [ScalarBinding.ofMapping, ScalarMapping.Covers]

end ScalarRegistry

/-- Where some mapping serves the side, the first one that covers the type serves it too, or is in
the way. -/
theorem exists_first_mapping {mappings : List ScalarMapping} {typeName : String}
    {specifier : Option String} {side : Side}
    (h : ∃ m ∈ mappings, m.Covers typeName specifier ∧ admits m.only side = true) :
    ∃ first, (mappings.find? fun m => m.Covers typeName specifier) = some first ∧
      (Shadowed mappings typeName specifier side ↔ admits first.only side = false) := by
  obtain ⟨m, hm, hcovers, hside⟩ := h
  cases hfind : mappings.find? fun m => m.Covers typeName specifier with
  | none => simpa [hcovers] using List.find?_eq_none.mp hfind m hm
  | some first =>
    obtain ⟨hfirst, before, after, rfl, hbefore⟩ := List.find?_eq_some_iff_append.mp hfind
    simp only [decide_eq_true_eq, Bool.not_eq_true', decide_eq_false_iff_not] at hfirst hbefore
    refine ⟨first, rfl, ?_, fun hother => ?_⟩
    · rintro ⟨before', first', after', heq, hbefore', hfirst', hother, -⟩
      have hfind' : (before ++ first :: after).find? (fun m => m.Covers typeName specifier) =
          some first' := by
        rw [heq, List.find?_eq_some_iff_append]
        exact ⟨by simpa using hfirst', before', after', rfl, by simpa using hbefore'⟩
      rw [Option.some.inj (hfind.symm.trans hfind')]
      exact hother
    · refine ⟨before, first, after, rfl, hbefore, hfirst, hother, m, ?_, hcovers, hside⟩
      rcases List.mem_append.mp hm with hm | hm
      · exact absurd hcovers (hbefore m hm)
      · rcases List.mem_cons.mp hm with rfl | hm
        · rw [hside] at hother
          cases hother
        · exact hm

namespace Classifier

variable {c : Classifier} {m : SourceModule} {entity : EntityName} {typeName : String}
  {specifier : Option String}

/-- The module that a name is imported from. -/
def importedFrom (m : SourceModule) (entity : EntityName) : Option String :=
  (m.symbols.imports.get? (lastName entity)).map (·.specifier)

/-- What the configured scalars are asked for where a module names a type: the name that it is
declared or exported under, and the module that it is imported from. -/
inductive LooksUp (c : Classifier) (m : SourceModule) (entity : EntityName) :
    String → Option String → Prop where
  | declared {d : TypeDecl} (hresolve : c.resolveEntity m entity = .declared d)
      (hdeclared : c.isDeclaredScalar d = false) :
      LooksUp c m entity d.name (importedFrom m entity)
  | external {specifier name : String}
      (hresolve : c.resolveEntity m entity = .external specifier name) :
      LooksUp c m entity name (some specifier)
  | unknown {name : String} (hresolve : c.resolveEntity m entity = .unknown name) :
      LooksUp c m entity name (importedFrom m entity)

/-- A type of a package is looked up under the name that the package exports it with. -/
theorem looksUp_of_import {name exported specifier : String}
    (hm : c.program.module? m.path = some m) (hown : Program.declares m name = false)
    (himport : m.symbols.imports.get? name = some ⟨specifier, .named exported⟩)
    (hpackage : isRelative specifier = false) (hruntime : specifier ≠ runtimeModule) :
    c.LooksUp m (.ident name) exported (some specifier) := by
  have hname : c.program.resolveName m.path name = some (.external specifier exported) := by
    simp [Program.resolveName, Program.resolveNameWith, hm, hown, himport, hpackage,
      Program.externalName]
  refine .external ?_
  rw [resolveEntity, resolveLocal, hname]
  simp [hruntime]

theorem scalarMeaning?_of_looksUp (h : c.LooksUp m entity typeName specifier) :
    c.scalarMeaning? m entity (c.resolveEntity m entity) =
      (c.scalars.mapped? typeName specifier).map fun b => .type (scalarType b.use) := by
  cases h with
  | @declared d hresolve hdeclared =>
    have hnone : c.scalars.declared? d.symbol = none := by
      simpa [isDeclaredScalar] using hdeclared
    rw [hresolve, scalarMeaning?, hnone, Option.none_or]
    rfl
  | external hresolve =>
    rw [hresolve]
    rfl
  | unknown hresolve =>
    rw [hresolve]
    rfl

theorem meaning_of_looksUp (h : c.LooksUp m entity typeName specifier) {b : ScalarBinding}
    (hmapped : c.scalars.mapped? typeName specifier = some b) (arguments : List TypeExpr)
    (depth : Nat) : c.meaning m entity arguments depth = .type (scalarType b.use) := by
  have hscalar := scalarMeaning?_of_looksUp h
  rw [hmapped] at hscalar
  cases h with
  | declared hresolve | external hresolve | unknown hresolve =>
    rw [hresolve] at hscalar
    simp only [meaning, hresolve, hscalar, Option.map_some]

theorem classify_of_looksUp (h : c.LooksUp m entity typeName specifier) {b : ScalarBinding}
    (hmapped : c.scalars.mapped? typeName specifier = some b) (s : Span)
    (arguments : List TypeExpr) :
    c.classify m (.reference s entity arguments) = pure (scalarType b.use) := by
  rw [classify, classifyAt_reference (Nat.zero_le _), meaning_of_looksUp h hmapped]
  rfl

end Classifier

/-! ## Sides in lowering -/

namespace GraphQL.Lowering

/-- What is reported of a scalar on the side that it is not bound to. -/
def misuseCodes : List Code := [.outputOnlyScalarInInput, .inputOnlyScalarInOutput]

/-- A scalar is reported exactly where its restriction does not admit the side. -/
theorem checkSide_run (side : Side) (location : Option SourceLocation) (use : ScalarUse)
    (s : Synthesis) :
    ∃ reported, ((checkSide side location use).run s).2.diagnostics = s.diagnostics ++ reported ∧
      ((∃ d ∈ reported, d.code ∈ misuseCodes) ↔ admits use.only side = false) := by
  obtain ⟨scalar, typeName, base, custom, only⟩ := use
  rcases side with _ | _ <;> rcases only with _ | _ | _
  case input.some.output =>
    exact ⟨[_], rfl, iff_of_true ⟨_, List.mem_singleton_self _, List.mem_cons_self⟩ rfl⟩
  case output.some.input =>
    refine ⟨[_], rfl, iff_of_true ⟨_, List.mem_singleton_self _, ?_⟩ rfl⟩
    exact List.mem_cons_of_mem _ List.mem_cons_self
  all_goals
    refine ⟨[], (List.append_nil _).symm, iff_of_false ?_ Bool.true_eq_false.mp⟩
    rintro ⟨d, hd, -⟩
    cases hd

theorem fieldOf_scalar (side : Side) (owner : String) {f : SchemaCompiler.Field} {use : ScalarUse}
    (htype : f.type = Classifier.scalarType use) (s : Synthesis) :
    ((fieldOf side owner f).run s).2 = ((checkSide side f.location use).run s).2 := by
  obtain ⟨name, type, optional, description, deprecated, location⟩ := f
  cases htype
  rfl

end GraphQL.Lowering

/-- Where a type is mapped for a side, a field of the type is reported on that side exactly where an
earlier mapping for the other side stands in the way. -/
theorem misuse_iff_shadowed (p : Program) (mappings : List ScalarMapping) {m : SourceModule}
    {entity : EntityName} {typeName : String} {specifier : Option String}
    (hlook : (Classifier.mk p (ScalarRegistry.build p mappings).value).LooksUp m entity typeName
      specifier)
    {side : Side}
    (hserved : ∃ mapping ∈ mappings, mapping.Covers typeName specifier ∧
      admits mapping.only side = true)
    (span : Span) (arguments : List TypeExpr) {f : Field}
    (htype : f.type = ((Classifier.mk p (ScalarRegistry.build p mappings).value).classify m
      (.reference span entity arguments)).value)
    (owner : String) (s : GraphQL.Synthesis) :
    ∃ reported,
      ((GraphQL.Lowering.fieldOf side owner f).run s).2.diagnostics = s.diagnostics ++ reported ∧
        ((∃ d ∈ reported, d.code ∈ GraphQL.Lowering.misuseCodes) ↔
          Shadowed mappings typeName specifier side) := by
  obtain ⟨first, hfirst, hshadowed⟩ := exists_first_mapping hserved
  have hmapped : (ScalarRegistry.build p mappings).value.mapped? typeName specifier =
      some (.ofMapping first) := by
    rw [ScalarRegistry.mapped?_build, hfirst, Option.map_some]
  have huse : f.type = Classifier.scalarType (ScalarBinding.ofMapping first).use := by
    rw [htype, Classifier.classify_of_looksUp hlook hmapped]
    rfl
  obtain ⟨reported, hreported, hmisuse⟩ :=
    GraphQL.Lowering.checkSide_run side f.location (ScalarBinding.ofMapping first).use s
  refine ⟨reported, ?_, hmisuse.trans hshadowed.symm⟩
  rw [GraphQL.Lowering.fieldOf_scalar side owner huse, hreported]

namespace Sample

attribute [local irreducible] String.decEq

/-- A module with a type of a package. -/
def dayModule : SourceModule :=
  let m := sourceModule [interface "User" [property "born" (named "Day")]] []
  { m with symbols := { m.symbols with imports := ⟨[("Day", ⟨"dates", .named "Day"⟩)]⟩ } }

def dayProgram : Program := ⟨[dayModule]⟩

def dayMapping (only : Option Side) : ScalarMapping := ⟨"Date", "Day", some "dates", only, none⟩

def dayMappings : List ScalarMapping := [dayMapping (some .input), dayMapping (some .output)]

def dayClassifier (mappings : List ScalarMapping) : Classifier :=
  ⟨dayProgram, (ScalarRegistry.build dayProgram mappings).value⟩

theorem looksUp_day (mappings : List ScalarMapping) :
    (dayClassifier mappings).LooksUp dayModule (.ident "Day") "Day" (some "dates") := by
  apply Classifier.looksUp_of_import
  all_goals cbv

/-- The field as the classifier reads it. -/
def bornField (mappings : List ScalarMapping) : Field :=
  ⟨"born", ((dayClassifier mappings).classify dayModule (named "Day")).value, false, none, none,
    none⟩

def dayScalar (only : Option Side) : ScalarEntry := ⟨"Date", ⟨"Day", some "dates"⟩, only, none⟩

def dayFile : ConfigFile := { scalars := [dayScalar (some .input), dayScalar (some .output)] }

theorem parseConfig_day : (parseConfig dayDocument none).value = some dayFile.resolve := by
  have hday : ConfigFile.ofJson? dayDocument = some dayFile := by cbv
  rw [parseConfig_of_ofJson? (document_of_validateConfig dayDocument_clean) hday]

end Sample

open Sample

theorem misuse_iff_shadowed_day :
    (dayClassifier dayMappings).LooksUp dayModule (.ident "Day") "Day" (some "dates") ∧
      (∃ mapping ∈ dayMappings, mapping.Covers "Day" (some "dates") ∧
        admits mapping.only .input = true) ∧
      ∃ reported,
        ((GraphQL.Lowering.fieldOf .input "User" (bornField dayMappings)).run {}).2.diagnostics =
            [] ++ reported ∧
          ((∃ d ∈ reported, d.code ∈ GraphQL.Lowering.misuseCodes) ↔
            Shadowed dayMappings "Day" (some "dates") .input) := by
  have hserved : ∃ mapping ∈ dayMappings, mapping.Covers "Day" (some "dates") ∧
      admits mapping.only .input = true :=
    ⟨dayMapping (some .input), List.mem_cons_self, by decide, rfl⟩
  exact ⟨looksUp_day _, hserved,
    misuse_iff_shadowed dayProgram dayMappings (looksUp_day _) hserved span [] rfl "User" {}⟩

/-- A type that a configuration without faults maps for each side is refused as an output, since the
entry for inputs stands first. -/
theorem mapped_output_refused :
    hasErrors (validateConfig dayDocument none) = false ∧
      ∃ config, (parseConfig dayDocument none).value = some config ∧
        (dayClassifier config.scalars).LooksUp dayModule (.ident "Day") "Day" (some "dates") ∧
        (∃ mapping ∈ config.scalars, mapping.Covers "Day" (some "dates") ∧
          admits mapping.only .output = true) ∧
        ∃ d ∈ ((GraphQL.Lowering.fieldOf .output "User"
            (bornField config.scalars)).run {}).2.diagnostics,
          d.code = .inputOnlyScalarInOutput := by
  have hscalars : dayFile.resolve.scalars = dayMappings := rfl
  refine ⟨dayDocument_clean, dayFile.resolve, parseConfig_day, looksUp_day _, ?_, ?_⟩
  · rw [hscalars]
    exact ⟨dayMapping (some .output), List.mem_cons_of_mem _ List.mem_cons_self, by decide, rfl⟩
  · rw [hscalars]
    have hclassified := Classifier.classify_of_looksUp (looksUp_day dayMappings)
      (b := .ofMapping (dayMapping (some .input))) (by cbv) span []
    have htype : (bornField dayMappings).type =
        Classifier.scalarType (ScalarBinding.ofMapping (dayMapping (some .input))).use :=
      congrArg Reported.value hclassified
    rw [GraphQL.Lowering.fieldOf_scalar .output "User" htype]
    exact ⟨_, List.mem_singleton_self _, rfl⟩

end SchemaCompiler

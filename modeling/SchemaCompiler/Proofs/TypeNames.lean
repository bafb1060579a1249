import Mathlib
import SchemaCompiler.Proofs.Output
import SchemaCompiler.Proofs.Sample
import SchemaCompiler.Proofs.Scalars

/-!
# Which names a generated document takes twice

Type names come from declarations, from objects that are written out in types and in resolvers, and
from scalars. Declarations are checked against the built-in scalars and against each other, written
out objects against declarations and against each other. Two pairs are left: nothing compares the
scalars of a program with its types, and nothing compares the name that is made up for a written-out
object with the built-in scalars. The names of a document are in order exactly when neither of the
two clashes.
-/

namespace SchemaCompiler

open GraphQL

/-- The types that were made for objects written out in exported types and in resolvers. -/
def Analysis.writtenOut (a : Analysis) : List TypeDef :=
  inlineTypes a.types.value ++ a.resolverFields.value.types

/-! ## Where names come from -/

/-- A type name is that of a root, of a written-out object, or no built-in scalar. -/
theorem typeNames_analyze {p : Program} {mappings : List ScalarMapping} {name : String}
    (h : name ∈ (analyze p mappings).schema.value.typeNames) :
    isBuiltinScalar name = false ∨ name ∈ (analyze p mappings).writtenOut.map (·.name) := by
  have hlinked := linked_analyze p mappings
  have hname : name ∈ (Schema.unextended (analyze p mappings).typeDefs.value
      (analyze p mappings).resolverFields.value (analyze p mappings).scalars.scalars).typeNames := by
    rw [hlinked.schema, value_integrate] at h
    exact h
  rcases Schema.mem_typeNames_ofTypes hname with hmem | rfl | rfl
  · obtain ⟨t, ht, rfl⟩ := List.mem_map.mp hmem
    rcases Schema.mem_distinctTypes ht with ht | ht
    · cases ht
    · rcases List.mem_append.mp ht with ht | ht
      · rcases lowerTypes_cases (hlinked.typeDefs ▸ ht) with hdeclared | ht
        · exact Or.inl hdeclared.2
        · exact Or.inr (List.mem_map_of_mem (List.mem_append_left _ ht))
      · exact Or.inr (List.mem_map_of_mem (List.mem_append_right _ ht))
  · exact Or.inl (by decide)
  · exact Or.inl (by decide)

theorem customScalars_writtenSchema (p : Program) (config : Config) :
    (writtenSchema p config).customScalars =
      (collectScalars (analyze p config.scalars).registry.value.bindings).scalars := by
  have hlinked := linked_analyze p config.scalars
  have hscalars : (analyze p config.scalars).schema.value.customScalars =
      (collectScalars (analyze p config.scalars).registry.value.bindings).scalars := by
    rw [hlinked.schema, customScalars_integrate, hlinked.scalars]
  rcases writtenSchema_eq_or p config with heq | heq <;> rw [heq]
  · exact hscalars
  · exact hscalars

theorem mem_scalarNames_writtenSchema (p : Program) (config : Config) (name : String) :
    name ∈ (writtenSchema p config).scalarNames ↔
      name ∈ customNames (analyze p config.scalars).registry.value.bindings := by
  rw [Schema.scalarNames, customScalars_writtenSchema]
  exact mem_names_collectScalars _ name

theorem typeNames_writtenSchema_sublist (p : Program) (config : Config) :
    List.Sublist (writtenSchema p config).typeNames
      (analyze p config.scalars).schema.value.typeNames := by
  rcases writtenSchema_eq_or p config with heq | heq
  · rw [heq]
    exact Schema.typeNames_prune_sublist _
  · rw [heq]

/-! ## Names of documents -/

/-- The names of a document are distinct and none is built in, exactly when no scalar has the name of
a type and no written-out object has the name of a built-in scalar. -/
theorem definedNames_distinct_iff (p : Program) (config : Config) :
    ((outputDocument p config).definedNames.Nodup ∧
        ∀ name ∈ (outputDocument p config).definedNames, isBuiltinScalar name = false) ↔
      (∀ name ∈ customNames (analyze p config.scalars).registry.value.bindings,
          name ∉ (writtenSchema p config).typeNames) ∧
        ∀ t ∈ (analyze p config.scalars).writtenOut,
          t.name ∈ (writtenSchema p config).typeNames → isBuiltinScalar t.name = false := by
  have hperm := definedNames_perm (writtenSchema p config)
  have hscalar := mem_scalarNames_writtenSchema p config
  have hnodup : (writtenSchema p config).scalarNames.Nodup := by
    rw [Schema.scalarNames, customScalars_writtenSchema]
    exact nodup_names_collectScalars _
  rw [outputDocument, hperm.nodup_iff, List.nodup_append]
  simp only [hperm.mem_iff, List.mem_append]
  constructor
  · rintro ⟨⟨-, -, hdisjoint⟩, hbuiltin⟩
    refine ⟨fun name hname hmem => ?_, fun t _ hmem => hbuiltin t.name (Or.inr hmem)⟩
    exact hdisjoint name ((hscalar name).mpr hname) name hmem rfl
  · rintro ⟨hscalars, hinline⟩
    refine ⟨⟨hnodup, (formed_writtenSchema p config).nodup, ?_⟩, ?_⟩
    · rintro name hname other hother rfl
      exact hscalars name ((hscalar name).mp hname) hother
    · rintro name (hname | hname)
      · exact isBuiltinScalar_of_mem_customNames ((hscalar name).mp hname)
      · rcases typeNames_analyze ((typeNames_writtenSchema_sublist p config).subset hname) with
          hdeclared | hmade
        · exact hdeclared
        · obtain ⟨t, ht, rfl⟩ := List.mem_map.mp hmade
          exact hinline t ht hname

/-! ## The two clashes -/

namespace Sample

attribute [local irreducible] String.decEq

/-- An object that is written out in a place that gives it the name `ID`. -/
def itemProgram : Program :=
  program [interface "I" [property "d" (object [property "x" (keyword .string)])]] []

/-- A scalar that is named as an exported type is. -/
def accountProgram : Program :=
  program
    [typeAlias "User" (applied "DefineScalar" [text "Account", keyword .string]),
      interface "Account" [property "id" (keyword .string)]] []

set_option maxRecDepth 10000

def itemRun :
    Outcome (hasErrors (analyze itemProgram []).diagnostics,
      (writtenSchema itemProgram (config false)).typeNames) :=
  ⟨(false, ["I", "ID"]), by cbv⟩

theorem itemProgram_run :
    (hasErrors (analyze itemProgram []).diagnostics,
      (writtenSchema itemProgram (config false)).typeNames) = (false, ["I", "ID"]) := itemRun.eq

theorem accountProgram_run :
    (hasErrors (analyze accountProgram []).diagnostics,
      (writtenSchema accountProgram (config false)).scalarNames,
      (writtenSchema accountProgram (config false)).typeNames) =
        (false, ["Account"], ["Account"]) := by
  cbv

end Sample

open Sample in
/-- Runs without errors whose documents define a built-in scalar and define a name twice. -/
theorem definedNames_clash :
    ((generate itemProgram [] (config false) ⟨""⟩).hasErrors = false ∧
        ∃ name ∈ (outputDocument itemProgram (config false)).definedNames,
          isBuiltinScalar name = true) ∧
      (generate accountProgram [] (config false) ⟨""⟩).hasErrors = false ∧
        ¬ (outputDocument accountProgram (config false)).definedNames.Nodup := by
  obtain ⟨hitem, hnames⟩ := Prod.mk.inj itemProgram_run
  obtain ⟨haccount, htaken⟩ := Prod.mk.inj accountProgram_run
  obtain ⟨hscalars, htypes⟩ := Prod.mk.inj htaken
  refine ⟨⟨hitem, "ID", ?_, by decide⟩, haccount, ?_⟩
  · rw [outputDocument, (definedNames_perm _).mem_iff, hnames]
    simp
  · rw [outputDocument, (definedNames_perm _).nodup_iff, hscalars, htypes]
    decide

end SchemaCompiler

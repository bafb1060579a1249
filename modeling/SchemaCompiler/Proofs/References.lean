import Mathlib
import SchemaCompiler.Proofs.Output
import SchemaCompiler.Proofs.Sample

/-!
# Every reference of a generated document is defined

A document is closed when every name in it is built in or defined there, and as something that may
stand where the name stands. Lowering makes up names, integration collects them and two checks look
at them, each at one side; pruning comes after the checks and takes definitions away. What is
written out after a run without errors is closed all the same, with pruning and without.
-/

namespace SchemaCompiler

open GraphQL

/-- Every name fits its place and is defined, unless it is built in. -/
structure GraphQL.Document.Closed (d : Document) : Prop where
  defined : ∀ name, name ∈ d.outputNames ∨ name ∈ d.inputNames →
    isBuiltinScalar name = true ∨ ∃ kind, d.Defines kind name
  inputs : ∀ name ∈ d.inputNames, isBuiltinScalar name = true ∨
    d.Defines .scalar name ∨ d.Defines .enum name ∨ d.Defines .inputObject name
  inputsOnly : ∀ name ∈ d.inputNames,
    ¬ d.Defines .object name ∧ ¬ d.Defines .interface name ∧ ¬ d.Defines .union name
  outputs : ∀ name ∈ d.outputNames, isBuiltinScalar name = true ∨
    d.Defines .scalar name ∨ d.Defines .enum name ∨ d.Defines .object name ∨
      d.Defines .interface name ∨ d.Defines .union name
  members : ∀ name ∈ d.unionMembers,
    d.Defines .object name ∨ d.Defines .interface name ∨ d.Defines .union name
  extended : ∀ name ∈ d.extended, d.Defines .object name

namespace GraphQL.Kind

variable (holds : Kind → Prop)

theorem exists_composite_iff :
    (∃ kind, kind.isComposite = true ∧ holds kind) ↔
      holds .object ∨ holds .interface ∨ holds .union := by
  constructor
  · rintro ⟨kind, hkind, h⟩
    cases kind <;> simp_all [isComposite]
  · rintro (h | h | h)
    all_goals exact ⟨_, rfl, h⟩

theorem exists_not_composite_iff :
    (∃ kind, kind.isComposite = false ∧ holds kind) ↔
      holds .scalar ∨ holds .enum ∨ holds .inputObject := by
  constructor
  · rintro ⟨kind, hkind, h⟩
    cases kind <;> simp_all [isComposite]
  · rintro (h | h | h)
    all_goals exact ⟨_, rfl, h⟩

theorem exists_ne_inputObject_iff :
    (∃ kind, kind ≠ .inputObject ∧ holds kind) ↔
      holds .scalar ∨ holds .enum ∨ holds .object ∨ holds .interface ∨ holds .union := by
  constructor
  · rintro ⟨kind, hkind, h⟩
    cases kind <;> simp_all
  · rintro (h | h | h | h | h)
    all_goals exact ⟨_, by decide, h⟩

end GraphQL.Kind

namespace GraphQL.Schema

variable {s : Schema}

theorem Fits.takesInput_of_mem (hfits : s.Fits) (h : s.Formed) {name : String}
    (hname : name ∈ (Document.ofSchema s).inputNames) : s.TakesInput name := by
  rcases mem_inputNames_ofSchema h hname with ⟨e, he, f, hf, a, ha, rfl⟩ | ⟨t, ht, f, hf, rfl⟩
  · exact hfits.arguments e he f hf a ha
  · exact hfits.inputFields t ht f hf

theorem Fits.givesOutput_of_mem (hfits : s.Fits) (h : s.Formed) {name : String}
    (hname : name ∈ (Document.ofSchema s).outputNames) : s.GivesOutput name := by
  rcases mem_outputNames_ofSchema h.kinds hname with ⟨t, ht, hkind, f, hf, rfl⟩ | ⟨e, he, f, hf, rfl⟩
  · exact hfits.fields t ht hkind f hf
  · exact hfits.extended e he f hf

/-- The document of a schema in which every name fits is closed. -/
theorem Fits.closed (hfits : s.Fits) (h : s.Formed) : (Document.ofSchema s).Closed := by
  have hdefines := defines_ofSchema h.kinds
  refine ⟨?_, ?_, ?_, ?_, ?_, ?_⟩ <;> simp only [hdefines]
  · rintro name (hname | hname)
    · exact (hfits.givesOutput_of_mem h hname).defined
    · exact (hfits.takesInput_of_mem h hname).defined
  · intro name hname
    exact (hfits.takesInput_of_mem h hname).2.imp_right
      (Kind.exists_not_composite_iff (s.Defines · name)).mp
  · intro name hname
    have hnone := (hfits.takesInput_of_mem h hname).1
    exact ⟨hnone .object rfl, hnone .interface rfl, hnone .union rfl⟩
  · intro name hname
    exact (hfits.givesOutput_of_mem h hname).imp_right
      (Kind.exists_ne_inputObject_iff (s.Defines · name)).mp
  · intro name hname
    obtain ⟨t, ht, hmember⟩ := mem_unionMembers_ofSchema hname
    exact (Kind.exists_composite_iff (s.Defines · name)).mp (hfits.members t ht name hmember)
  · intro name hname
    obtain ⟨e, he, rfl⟩ := mem_extended_ofSchema.mp hname
    exact hfits.targets e he

end GraphQL.Schema

/-- What is written out after a run without errors is closed. -/
theorem document_closed_of_generate (p : Program) (before : List Diagnostic) (config : Config)
    (dir : Path) (h : (generate p before config dir).hasErrors = false) :
    (generate p before config dir).sdl = (outputDocument p config).text ∧
      (outputDocument p config).Closed :=
  ⟨rfl, (fits_writtenSchema (clean_of_generate h)).closed (formed_writtenSchema p config)⟩

/-! ## A program that is pruned -/

namespace Sample

attribute [local irreducible] String.decEq

/-- A query for a user with an address, beside a type that nothing leads to. -/
def userProgram : Program :=
  program
    [interface "User" [property "name" (keyword .string),
        property "home" (object [property "city" (keyword .string)])],
      interface "Unused" [property "owner" (named "User")]]
    [constant "user" (applied "QueryResolver" [named "NoArgs", named "User"])]

set_option maxRecDepth 10000 in
def userRun : Outcome (hasErrors (analyze userProgram []).diagnostics) := ⟨false, by cbv⟩

theorem userProgram_clean : hasErrors (analyze userProgram []).diagnostics = false := userRun.eq

end Sample

theorem document_closed_userProgram :
    (outputDocument Sample.userProgram (Sample.config true)).Closed :=
  (document_closed_of_generate Sample.userProgram [] (Sample.config true) ⟨""⟩
    Sample.userProgram_clean).2

end SchemaCompiler

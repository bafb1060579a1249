import Mathlib.Data.List.Nodup
import SchemaCompiler.Proofs.ResolverMap
import SchemaCompiler.Proofs.Sample
import SchemaCompiler.Proofs.TypeImports

/-!
# Names that the resolver module binds

The generated module binds what it imports, its function and the parameter for scalars. Imported
modules are named apart from each other, and a module is asked for a type once. Nothing compares the
names of modules with those of types, types of different modules, or either of them with the names
that are always the same. `NamesApart` says what has to hold of a schema for all names to differ.
-/

namespace SchemaCompiler

open GraphQL

/-! ## Modules that are known -/

namespace Namespaces

variable {table : Namespaces}

/-- A table is sound and knows some modules more than another one. -/
structure Learns (table more : Namespaces) (specifiers : List String) : Prop where
  sound : more.Sound
  known : ∀ specifier, (more.get? specifier).isSome = true ↔
    (table.get? specifier).isSome = true ∨ specifier ∈ specifiers

theorem Sound.learns_refl (h : table.Sound) : table.Learns table [] where
  sound := h
  known specifier := by simp

theorem Learns.trans {a b c : Namespaces} {first second : List String} (h : a.Learns b first)
    (h' : b.Learns c second) : a.Learns c (first ++ second) where
  sound := h'.sound
  known specifier := by rw [h'.known, h.known, List.mem_append, or_assoc]

theorem Sound.learns_lookup (h : table.Sound) (dir file : Path) :
    table.Learns (table.lookup dir file).2 [relativeImport dir file] := by
  obtain ⟨hsound, hextends, hget⟩ := h.lookup dir file
  refine ⟨hsound, fun specifier => ?_⟩
  simp only [Option.isSome_iff_exists, List.mem_singleton]
  constructor
  · rintro ⟨name, hname⟩
    exact (ResolverMap.lookup_onlyFiles hname).imp (fun hold => ⟨name, hold⟩) Eq.symm
  · intro hcases
    rcases hcases with ⟨name, hname⟩ | hsame
    · exact ⟨name, hextends specifier name hname⟩
    · exact ⟨_, hsame ▸ hget⟩

/-- No identifier is given twice. -/
theorem Sound.nodup_values (h : table.Sound) : table.values.Nodup := by
  have hkeys := SortedTable.nodup_keys_of_pairwise h.ascending
  refine List.Nodup.map_on (fun a ha b hb hsame => ?_) hkeys.of_map
  have hkey := h.injective a.1 b.1 a.2 (h.ascending.mem_entries_iff.mp ha)
    (hsame ▸ h.ascending.mem_entries_iff.mp hb)
  exact Prod.ext hkey hsame

end Namespaces

namespace ResolverMap

/-- The module that a field is resolved by. -/
def resolverModule? (dir : Path) (f : ResolvedField) : Option String :=
  match f.sourceFile, f.exportName with
  | some file, some _ => some (relativeImport dir file)
  | _, _ => none

theorem learns_addField (dir : Path) {done : SortedTable ResolverExport × Namespaces}
    (h : done.2.Sound) (f : ResolvedField) :
    done.2.Learns (addField dir done f).2 (resolverModule? dir f).toList := by
  simp only [addField, resolverModule?]
  cases hfile : f.sourceFile with
  | none => exact h.learns_refl
  | some file =>
    cases hname : f.exportName with
    | none => exact h.learns_refl
    | some name => exact h.learns_lookup dir file

theorem learns_foldl_addField (dir : Path) (fields : List ResolvedField)
    (done : SortedTable ResolverExport × Namespaces) (h : done.2.Sound) :
    done.2.Learns (fields.foldl (addField dir) done).2
      (fields.flatMap fun f => (resolverModule? dir f).toList) := by
  induction fields generalizing done with
  | nil => exact h.learns_refl
  | cons f rest ih =>
    have hfirst := learns_addField dir h f
    exact hfirst.trans (ih _ hfirst.sound)

theorem learns_foldl_addExtension (dir : Path) (es : List TypeExtension)
    (done : SortedTable MapEntry × Namespaces) (h : done.2.Sound) :
    done.2.Learns (es.foldl (addExtension dir) done).2
      (es.flatMap fun e => e.fields.flatMap fun f => (resolverModule? dir f).toList) := by
  induction es generalizing done with
  | nil => exact h.learns_refl
  | cons e rest ih =>
    have hfirst : done.2.Learns (addExtension dir done e).2
        (e.fields.flatMap fun f => (resolverModule? dir f).toList) :=
      learns_foldl_addField dir e.fields ({}, done.2) h
    exact hfirst.trans (ih _ hfirst.sound)

/-- A module is imported for a field that it resolves. -/
def ImportsModule (s : Schema) (dir : Path) (specifier : String) : Prop :=
  ∃ e ∈ s.extensions, ∃ f ∈ e.fields, resolverModule? dir f = some specifier

theorem learns_extended (s : Schema) (dir : Path) :
    Namespaces.Learns {} (ofSchema s dir).namespaces
      (s.extensions.flatMap fun e => e.fields.flatMap fun f => (resolverModule? dir f).toList) :=
  learns_foldl_addExtension dir s.extensions ({}, {}) Namespaces.sound_empty

theorem sound_namespaces (s : Schema) (dir : Path) : (ofSchema s dir).namespaces.Sound :=
  (learns_extended s dir).sound

/-- The modules that are imported are those that resolve fields. -/
theorem known_namespaces_iff (s : Schema) (dir : Path) (specifier : String) :
    ((ofSchema s dir).namespaces.get? specifier).isSome = true ↔ ImportsModule s dir specifier := by
  rw [(learns_extended s dir).known]
  simp [SortedTable.get?, ImportsModule]

/-! ## Types that are imported -/

/-- A type of a scalar is imported from a module. -/
def ImportsType (s : Schema) (dir : Path) (specifier name : String) : Prop :=
  ∃ c ∈ s.customScalars, ∃ t ∈ scalarTypes c,
    typeModule? dir t = some specifier ∧ t.typeName = name

/-- No module is asked twice for a type. -/
structure Once (types : SortedTable (List String)) : Prop where
  ascending : types.Ascending
  nodup : ∀ specifier names, types.get? specifier = some names → names.Nodup

theorem once_empty : Once {} where
  ascending := SortedTable.ascending_empty
  nodup _ _ h := by cases h

theorem Once.addType {types : SortedTable (List String)} (h : Once types) (dir : Path)
    (t : ScalarTypeRef) : Once (addType dir types t) where
  ascending := (addType_spec dir h.ascending t).1
  nodup specifier names hnames := by
    unfold ResolverMap.addType at hnames
    split at hnames
    · exact h.nodup specifier names hnames
    · rename_i source hsource
      rw [h.ascending.get?_alter] at hnames
      split at hnames
      · have hold : ((types.get? source).getD []).Nodup := by
          cases hget : types.get? source with
          | none => exact List.nodup_nil
          | some old => exact h.nodup source old hget
        rw [← Option.some_inj.mp hnames]
        dsimp only
        split
        · exact hold
        · rename_i hnew
          rw [List.contains_iff_mem] at hnew
          rw [List.nodup_append]
          refine ⟨hold, List.nodup_singleton _, fun a ha b hb hsame => ?_⟩
          rw [List.mem_singleton] at hb
          exact hnew (hb ▸ hsame ▸ ha)
      · exact h.nodup specifier names hnames

theorem Once.foldl_addType {types : SortedTable (List String)} (h : Once types) (dir : Path)
    (refs : List ScalarTypeRef) : Once (refs.foldl (ResolverMap.addType dir) types) := by
  induction refs generalizing types with
  | nil => exact h
  | cons t rest ih => exact ih (h.addType dir t)

theorem once_types (s : Schema) (dir : Path) : Once (ofSchema s dir).types := by
  rw [types_ofSchema]
  exact once_empty.foldl_addType dir _

/-- The names of all imported types. -/
def typeNames (m : ResolverMap) : List String :=
  m.types.entries.flatMap fun entry => entry.2.mergeSort (· ≤ ·)

theorem mem_typeNames_iff (s : Schema) (dir : Path) (name : String) :
    name ∈ (ofSchema s dir).typeNames ↔ ∃ specifier, ImportsType s dir specifier name := by
  simp only [typeNames, List.mem_flatMap, List.mem_mergeSort, ImportsType,
    ← imports_ofSchema_iff, Imports]
  constructor
  · rintro ⟨⟨specifier, names⟩, hentry, hname⟩
    exact ⟨specifier, names, hentry, hname⟩
  · rintro ⟨specifier, names, hentry, hname⟩
    exact ⟨(specifier, names), hentry, hname⟩

/-- No type is imported twice exactly when those of different modules differ in their names. -/
theorem nodup_typeNames_iff (s : Schema) (dir : Path) :
    (ofSchema s dir).typeNames.Nodup ↔
      ∀ a b name, ImportsType s dir a name → ImportsType s dir b name → a = b := by
  have honce := once_types s dir
  simp only [ImportsType, ← imports_ofSchema_iff]
  constructor
  · rintro hnodup a b name ⟨names, hentry, hname⟩ ⟨names', hentry', hname'⟩
    exact congrArg Prod.fst (eq_of_nodup_flatMap hnodup hentry hentry'
      (List.mem_mergeSort.mpr hname) (List.mem_mergeSort.mpr hname'))
  · intro hone
    rw [typeNames, List.nodup_flatMap]
    constructor
    · intro entry hentry
      rw [(List.mergeSort_perm _ _).nodup_iff]
      exact honce.nodup entry.1 entry.2 (honce.ascending.mem_entries_iff.mp hentry)
    · refine honce.ascending.imp_of_mem fun {a b} ha hb hlt name hname hname' => ?_
      have hsame := hone a.1 b.1 name ⟨a.2, ha, List.mem_mergeSort.mp hname⟩
        ⟨b.2, hb, List.mem_mergeSort.mp hname'⟩
      exact String.lt_irrefl _ (hsame ▸ hlt)

/-! ## What the module begins with -/

/-- An import of a module: of some of its types, or of all that it exports under one name. -/
inductive Import where
  | types (specifier : String) (names : List String)
  | space (specifier name : String)

namespace Import

def names : Import → List String
  | types _ names => names
  | space _ name => [name]

def text : Import → String
  | types specifier names =>
    "import type \x7b " ++ ", ".intercalate names ++ " \x7d from \"" ++ specifier ++ "\";\n"
  | space specifier name => "import * as " ++ name ++ " from \"" ++ specifier ++ "\";\n"

end Import

def scalarClass : String := "GraphQLScalarType"

def functionName : String := "createResolvers"

def imports (m : ResolverMap) : List Import :=
  (if m.scalars.isEmpty then [] else [.types "graphql" [scalarClass]]) ++
    (m.types.entries.map fun entry => .types entry.1 (entry.2.mergeSort (· ≤ ·))) ++
    m.namespaces.entries.map fun entry => .space entry.1 entry.2

/-- What the function takes out of its argument. -/
def parameters (m : ResolverMap) : List String := if m.scalars.isEmpty then [] else [parameter]

def parameterText : List String → String
  | [] => ""
  | names => "\x7b " ++ ", ".intercalate names ++ " \x7d"

/-- The text up to the names that the function takes. -/
def head (m : ResolverMap) : String :=
  generatedHeader ++ String.join (m.imports.map Import.text) ++ "\n" ++ "export function " ++
    functionName ++ "(" ++ parameterText m.parameters

/-- The names that the module binds. -/
def boundNames (m : ResolverMap) : List String :=
  m.imports.flatMap Import.names ++ functionName :: m.parameters

theorem exists_signature_eq (m : ResolverMap) : ∃ rest, signature m.scalars =
    "export function " ++ functionName ++ "(" ++ parameterText m.parameters ++ rest := by
  rw [signature, parameters]
  split
  · exact ⟨") \x7b\n", by decide⟩
  · refine ⟨": \x7b\n  scalars: \x7b\n" ++ ("\n".intercalate (m.scalars.map scalarParameter) ++
      "\n  \x7d;\n\x7d) \x7b\n"), ?_⟩
    rw [← String.append_assoc, String.append_assoc]
    congr 1

theorem join_imports (m : ResolverMap) : String.join (m.imports.map Import.text) =
    (if m.scalars.isEmpty then "" else "import type \x7b GraphQLScalarType \x7d from \"graphql\";\n") ++
      String.join (m.types.entries.map typeImportLine) ++
      String.join (m.namespaces.entries.map namespaceImportLine) := by
  rw [imports, List.map_append, List.map_append, String.join_append, String.join_append,
    List.map_map, List.map_map]
  congr 2
  split
  · rfl
  · decide

/-- The module begins with its imports and with the name and the parameters of its function. -/
theorem exists_code_eq (m : ResolverMap) : ∃ body, m.code = m.head ++ body := by
  obtain ⟨rest, hrest⟩ := exists_signature_eq m
  refine ⟨rest ++ ("  return \x7b\n" ++ String.join (m.entries.entries.map entryLine) ++
    "  \x7d;\n\x7d\n"), ?_⟩
  rw [code, head, hrest, join_imports]
  simp only [String.append_assoc]

/-! ## When all names differ -/

/-- The names that are always the same. -/
def fixedNames (scalars : List ScalarDefinition) : List String :=
  functionName :: if scalars.isEmpty then [] else [scalarClass, parameter]

theorem nodup_fixedNames (scalars : List ScalarDefinition) : (fixedNames scalars).Nodup := by
  rw [fixedNames]
  split <;> decide

theorem not_isDigit_of_mem_fixedNames {scalars : List ScalarDefinition} {name : String}
    (h : name ∈ fixedNames scalars) : ∀ c ∈ name.toList.getLast?, c.isDigit = false := by
  have hall : ∀ n ∈ [functionName, scalarClass, parameter],
      ∀ c ∈ n.toList.getLast?, c.isDigit = false := by
    simp [functionName, scalarClass, parameter]
  refine hall name ?_
  rw [fixedNames] at h
  split at h
  · exact List.mem_cons.mpr (Or.inl (List.mem_singleton.mp h))
  · exact h

theorem fixedNames_ofSchema (s : Schema) (dir : Path) :
    fixedNames (ofSchema s dir).scalars = fixedNames s.customScalars := by
  have hempty : (ofSchema s dir).scalars.isEmpty = s.customScalars.isEmpty := by
    rw [Bool.eq_iff_iff, List.isEmpty_iff, List.isEmpty_iff, scalars_ofSchema_eq_nil_iff]
  rw [fixedNames, fixedNames, hempty]

theorem boundNames_perm (m : ResolverMap) :
    m.boundNames.Perm (fixedNames m.scalars ++ (m.typeNames ++ m.namespaces.values)) := by
  have himports : m.imports.flatMap Import.names =
      (if m.scalars.isEmpty then [] else [scalarClass]) ++ (m.typeNames ++ m.namespaces.values) := by
    rw [imports, List.flatMap_append, List.flatMap_append, List.append_assoc, List.flatMap_map,
      List.flatMap_map]
    congr 1
    · split <;> rfl
    · exact congrArg (m.typeNames ++ ·) List.map_eq_flatMap.symm
  rw [boundNames, himports, parameters, fixedNames]
  split
  · exact List.perm_append_comm
  · refine List.perm_append_comm.trans ?_
    rw [← List.append_assoc]
    exact ((List.Perm.swap _ _ []).cons functionName).append_right _

/-- A module and a type of one name are bound under one name. -/
theorem not_nodup_boundNames {m : ResolverMap} {name : String} (htype : name ∈ m.typeNames)
    (hspace : name ∈ m.namespaces.values) : ¬ m.boundNames.Nodup := by
  rw [(boundNames_perm m).nodup_iff, List.nodup_append', List.nodup_append']
  rintro ⟨-, ⟨-, -, hdisjoint⟩, -⟩
  exact hdisjoint htype hspace

/-- A name that does not end in a digit is given to a module when an imported module suggests it. -/
theorem mem_spaces_iff (s : Schema) (dir : Path) {name : String}
    (h : ∀ c ∈ name.toList.getLast?, c.isDigit = false) :
    name ∈ (ofSchema s dir).namespaces.values ↔
      ∃ specifier, ImportsModule s dir specifier ∧ Namespaces.ident specifier = name := by
  have hsound := sound_namespaces s dir
  rw [hsound.ascending.mem_values_iff, hsound.given_iff name h]
  simp only [known_namespaces_iff]

/-- What has to hold of a schema for the names of its resolver module to differ. -/
structure NamesApart (s : Schema) (dir : Path) : Prop where
  /-- Types of different modules differ in their names. -/
  types : ∀ a b name, ImportsType s dir a name → ImportsType s dir b name → a = b
  /-- No type has a fixed name. -/
  typeNames : ∀ specifier name, ImportsType s dir specifier name →
    name ∉ fixedNames s.customScalars
  /-- No module suggests a fixed name. -/
  moduleNames : ∀ specifier, ImportsModule s dir specifier →
    Namespaces.ident specifier ∉ fixedNames s.customScalars
  /-- No module is given the name of a type. -/
  spaces : ∀ specifier name other, ImportsType s dir specifier name →
    (ofSchema s dir).namespaces.get? other ≠ some name

/-- The names that the resolver module of a schema binds, which stand at its beginning, all differ
exactly when nothing in the schema brings two of them together. -/
theorem boundNames_nodup_iff (s : Schema) (dir : Path) :
    (∃ body, resolversCode s dir = (ofSchema s dir).head ++ body) ∧
      ((ofSchema s dir).boundNames.Nodup ↔ NamesApart s dir) := by
  refine ⟨exists_code_eq _, ?_⟩
  have hsound := sound_namespaces s dir
  rw [(boundNames_perm _).nodup_iff, fixedNames_ofSchema, List.nodup_append', List.nodup_append',
    nodup_typeNames_iff]
  constructor
  · rintro ⟨-, ⟨htypes, -, hspaces⟩, hfixed⟩
    refine ⟨htypes, fun specifier name htype hname => ?_, fun specifier hmodule hname => ?_,
      fun specifier name other htype hother => ?_⟩
    · exact hfixed hname (List.mem_append_left _ ((mem_typeNames_iff s dir name).mpr ⟨_, htype⟩))
    · exact hfixed hname
        (List.mem_append_right _
          ((mem_spaces_iff s dir (not_isDigit_of_mem_fixedNames hname)).mpr ⟨_, hmodule, rfl⟩))
    · exact hspaces ((mem_typeNames_iff s dir name).mpr ⟨_, htype⟩)
        (hsound.ascending.mem_values_iff.mpr ⟨_, hother⟩)
  · intro h
    refine ⟨nodup_fixedNames _, ⟨h.types, hsound.nodup_values, fun name htype hspace => ?_⟩,
      fun name hname hother => ?_⟩
    · obtain ⟨specifier, htype⟩ := (mem_typeNames_iff s dir name).mp htype
      obtain ⟨other, hother⟩ := hsound.ascending.mem_values_iff.mp hspace
      exact h.spaces specifier name other htype hother
    · rcases List.mem_append.mp hother with htype | hspace
      · obtain ⟨specifier, htype⟩ := (mem_typeNames_iff s dir name).mp htype
        exact h.typeNames specifier name htype hname
      · obtain ⟨specifier, hmodule, rfl⟩ :=
          (mem_spaces_iff s dir (not_isDigit_of_mem_fixedNames hname)).mp hspace
        exact h.moduleNames specifier hmodule hname

end ResolverMap

/-! ## A module that binds a name twice -/

namespace Sample

attribute [local irreducible] String.decEq

/-- A file whose alias declares a scalar under the name of the file, with a query. -/
def momentProgram : Program :=
  program [typeAlias "t" (applied "DefineScalar" [text "Moment", named "Date"])]
    [constant "now" (applied "QueryResolver" [named "NoArgs", named "t"])]

set_option maxRecDepth 10000

theorem momentProgram_run :
    (hasErrors (analyze momentProgram []).diagnostics,
      ((writtenSchema momentProgram (config false)).customScalars.flatMap fun c =>
        (ResolverMap.scalarTypes c).map fun t => (t.typeName, t.sourceFile, t.importPath)),
      (writtenSchema momentProgram (config false)).extensions.flatMap fun e =>
        e.fields.map fun f => (f.sourceFile, f.exportName)) =
      (false, [("t", some file, none), ("t", some file, none)], [(some file, some "now")]) := by
  cbv

theorem momentProgram_clean : hasErrors (analyze momentProgram []).diagnostics = false :=
  congrArg (·.1) momentProgram_run

theorem momentProgram_scalars :
    ((writtenSchema momentProgram (config false)).customScalars.flatMap fun c =>
      (ResolverMap.scalarTypes c).map fun t => (t.typeName, t.sourceFile, t.importPath)) =
      [("t", some file, none), ("t", some file, none)] :=
  congrArg (·.2.1) momentProgram_run

theorem momentProgram_resolvers :
    ((writtenSchema momentProgram (config false)).extensions.flatMap fun e =>
      e.fields.map fun f => (f.sourceFile, f.exportName)) = [(some file, some "now")] :=
  congrArg (·.2.2) momentProgram_run

end Sample

open Sample in
/-- A run without errors whose resolver module imports a module and a type under one name. -/
theorem boundNames_momentProgram :
    (generate momentProgram [] (Sample.config false) ⟨""⟩).hasErrors = false ∧
      ¬ (ResolverMap.ofSchema (writtenSchema momentProgram (Sample.config false))
        ⟨""⟩).boundNames.Nodup := by
  have htype : "t" ∈ (ResolverMap.ofSchema (writtenSchema momentProgram (Sample.config false))
      ⟨""⟩).typeNames := by
    have hscalar := momentProgram_scalars ▸ List.mem_cons_self
    obtain ⟨c, hc, hscalar⟩ := List.mem_flatMap.mp hscalar
    obtain ⟨t, ht, htype⟩ := List.mem_map.mp hscalar
    simp only [Prod.mk.injEq] at htype
    obtain ⟨hname, hfile, himport⟩ := htype
    refine (ResolverMap.mem_typeNames_iff _ _ _).mpr
      ⟨relativeImport ⟨""⟩ file, c, hc, t, ht, ?_, hname⟩
    rw [ResolverMap.typeModule?, himport, hfile]
    rfl
  have hspace : "t" ∈ (ResolverMap.ofSchema (writtenSchema momentProgram (Sample.config false))
      ⟨""⟩).namespaces.values := by
    have hresolver := momentProgram_resolvers ▸ List.mem_cons_self
    obtain ⟨e, he, hresolver⟩ := List.mem_flatMap.mp hresolver
    obtain ⟨f, hf, hfield⟩ := List.mem_map.mp hresolver
    obtain ⟨hfile, hexport⟩ := Prod.mk.inj hfield
    refine (ResolverMap.mem_spaces_iff _ _ (by simp)).mpr
      ⟨relativeImport ⟨""⟩ file, ⟨e, he, f, hf, ?_⟩, by decide⟩
    rw [ResolverMap.resolverModule?, hfile, hexport]
  exact ⟨momentProgram_clean, ResolverMap.not_nodup_boundNames htype hspace⟩

end SchemaCompiler

import SchemaCompiler.Proofs.Contents
import SchemaCompiler.Proofs.References

/-!
# Which names of a document are names of the schema language

Only enum values are checked for being names. All other names reach the document as they stand in
the program: names of types and scalars, keys of properties, names of resolvers and of their
arguments, and what is made of these for written-out objects. So a document without errors has only
names of the schema language in it exactly when these are such names. References need nothing of
their own: they are all defined, and what is defined was looked at.
-/

namespace SchemaCompiler

namespace GraphQL

/-! ## Names in documents -/

def InputValueNode.names (a : InputValueNode) : List String := [a.name, a.type.core]

def FieldNode.names (f : FieldNode) : List String :=
  f.name :: f.type.core :: f.arguments.flatMap InputValueNode.names

/-- The names that stand in a definition, those in its types included. -/
def Definition.names : Definition → List String
  | scalar head => [head.name]
  | object head interfaces fields => head.name :: interfaces ++ fields.flatMap FieldNode.names
  | interface head interfaces fields => head.name :: interfaces ++ fields.flatMap FieldNode.names
  | union head members => head.name :: members
  | enum head values => head.name :: values.map (·.name)
  | inputObject head fields => head.name :: fields.flatMap InputValueNode.names
  | extension name fields => name :: fields.flatMap FieldNode.names

def Document.names (d : Document) : List String := d.definitions.flatMap Definition.names

theorem forall_names_argument {good : String → Prop} {a : InputValue} :
    (∀ name ∈ (InputValueNode.of a).names, good name) ↔ good a.name ∧ good a.type.typeName := by
  simp [InputValueNode.names, InputValueNode.of]

theorem forall_names_field {good : String → Prop} {f : Field} :
    (∀ name ∈ (FieldNode.of f).names, good name) ↔
      good f.name ∧ good f.type.typeName ∧ ∀ a ∈ f.args, good a.name ∧ good a.type.typeName := by
  simp only [FieldNode.names, FieldNode.of, List.forall_mem_cons, List.forall_mem_flatMap,
    List.forall_mem_map, forall_names_argument, TypeNode.core_ofFieldType]

/-! ## Names in schemas -/

namespace Schema

variable {s : Schema} {good : String → Prop}

/-- All names that a type gives are good. -/
structure NamesType (good : String → Prop) (t : TypeDef) : Prop where
  name : good t.name
  fields : t.kind = .object ∨ t.kind = .interface ∨ t.kind = .inputObject →
    ∀ name ∈ t.fields.map (·.name), good name
  interfaces : t.kind = .object ∨ t.kind = .interface → ∀ name ∈ t.interfaces, good name
  values : t.kind = .enum → ∀ name ∈ t.enumValues.map (·.name), good name

/-- All names that a schema gives are good: those of scalars, types, fields, enum values and
arguments, and the interfaces, which are checked nowhere. -/
structure Names (good : String → Prop) (s : Schema) : Prop where
  scalars : ∀ name ∈ s.scalarNames, good name
  base : ∀ t ∈ s.baseTypes, NamesType good t
  inputs : ∀ t ∈ s.inputTypes, good t.name ∧ ∀ f ∈ t.fields, good f.name
  resolved : ∀ e ∈ s.extensions, ∀ f ∈ e.fields,
    good f.field.name ∧ ∀ name ∈ f.field.args.map (·.name), good name

theorem Names.of_defines (h : s.Names good) {kind : Kind} {name : String}
    (hname : s.Defines kind name) : good name := by
  rcases hname with ⟨t, ht, -, rfl⟩ | ⟨-, t, ht, rfl⟩ | ⟨-, hname⟩
  · exact (h.base t ht).name
  · exact (h.inputs t ht).1
  · exact h.scalars name hname

theorem Names.of_givesOutput (h : s.Names good)
    (hbuiltin : ∀ name, isBuiltinScalar name = true → good name) {name : String}
    (hname : s.GivesOutput name) : good name :=
  hname.defined.elim (hbuiltin name) fun ⟨_, hkind⟩ => h.of_defines hkind

theorem Names.of_takesInput (h : s.Names good)
    (hbuiltin : ∀ name, isBuiltinScalar name = true → good name) {name : String}
    (hname : s.TakesInput name) : good name :=
  hname.defined.elim (hbuiltin name) fun ⟨_, hkind⟩ => h.of_defines hkind

/-! ## Documents of schemas -/

theorem forall_names_fieldNodes {fields : List Field} :
    (∀ name ∈ (fieldNodes fields).flatMap FieldNode.names, good name) ↔
      ∀ f ∈ fields, good f.name ∧ good f.type.typeName ∧
        ∀ a ∈ f.args, good a.name ∧ good a.type.typeName := by
  simp only [List.forall_mem_flatMap, mem_fieldNodes, ← forall_names_field]
  constructor
  · exact fun h f hf => h _ ⟨f, hf, rfl⟩
  · rintro h _ ⟨f, hf, rfl⟩
    exact h f hf

theorem forall_names_sorted {names : List String} :
    (∀ name ∈ sortedNames names, good name) ↔ ∀ name ∈ names, good name := by
  simp only [mem_sortedNames]

theorem forall_names_input {t : InputType} :
    (∀ name ∈ (Definition.ofInput t).names, good name) ↔
      good t.name ∧ ∀ f ∈ t.fields, good f.name ∧ good f.type.typeName := by
  simp only [Definition.ofInput, Definition.names, List.forall_mem_cons, List.forall_mem_flatMap,
    List.forall_mem_map, mem_sortByName, forall_names_argument]

theorem forall_names_extension {e : TypeExtension} :
    (∀ name ∈ (Definition.ofExtension e).names, good name) ↔
      good e.target ∧ ∀ f ∈ e.fields, good f.field.name ∧ good f.field.type.typeName ∧
        ∀ a ∈ f.field.args, good a.name ∧ good a.type.typeName := by
  simp only [Definition.ofExtension, Definition.names, List.forall_mem_cons,
    forall_names_fieldNodes, List.forall_mem_map]

theorem forall_names_document :
    (∀ name ∈ (Document.ofSchema s).names, good name) ↔
      (∀ name ∈ s.scalarNames, good name) ∧
        (∀ t ∈ s.baseTypes, ∀ name ∈ (Definition.ofBase t).names, good name) ∧
          (∀ t ∈ s.inputTypes, ∀ name ∈ (Definition.ofInput t).names, good name) ∧
            ∀ e ∈ s.extensions, ∀ name ∈ (Definition.ofExtension e).names, good name := by
  simp only [Document.names, List.forall_mem_flatMap, Document.ofSchema, List.forall_mem_append,
    List.forall_mem_map, mem_sortByName, scalarNames, Definition.ofScalar, Definition.names,
    List.forall_mem_singleton, and_assoc]

theorem namesType_object_iff {t : TypeDef} (hkind : t.kind = .object ∨ t.kind = .interface) :
    NamesType good t ↔
      good t.name ∧ (∀ name ∈ t.interfaces, good name) ∧ ∀ f ∈ t.fields, good f.name := by
  have hfields : (∀ name ∈ t.fields.map (·.name), good name) ↔ ∀ f ∈ t.fields, good f.name :=
    List.forall_mem_map
  constructor
  · intro h
    exact ⟨h.name, h.interfaces hkind, hfields.mp (h.fields (hkind.imp_right Or.inl))⟩
  · rintro ⟨hname, hinterfaces, hall⟩
    refine ⟨hname, fun _ => hfields.mpr hall, fun _ => hinterfaces, fun henum => ?_⟩
    rcases hkind with hkind | hkind <;> rw [hkind] at henum <;> cases henum

theorem namesType_enum_iff {t : TypeDef} (hkind : t.kind = .enum) :
    NamesType good t ↔ good t.name ∧ ∀ name ∈ t.enumValues.map (·.name), good name :=
  ⟨fun h => ⟨h.name, h.values hkind⟩,
    fun h => ⟨h.1, by simp [hkind], by simp [hkind], fun _ => h.2⟩⟩

theorem namesType_iff_name {t : TypeDef} (hkind : t.kind = .union ∨ t.kind = .scalar) :
    NamesType good t ↔ good t.name := by
  refine ⟨(·.name), fun hname => ⟨hname, ?_, ?_, ?_⟩⟩ <;>
    rcases hkind with hkind | hkind <;> simp [hkind]

/-- The names in the definition of an object or an interface. -/
theorem forall_names_object {t : TypeDef} (hkind : t.kind = .object ∨ t.kind = .interface)
    (hbare : Bare t.fields) :
    (∀ name ∈ (Definition.ofBase t).names, good name) ↔
      NamesType good t ∧ ∀ f ∈ t.fields, good f.type.typeName := by
  have hnames : (∀ name ∈ (Definition.ofBase t).names, good name) ↔
      good t.name ∧ (∀ name ∈ t.interfaces, good name) ∧
        ∀ f ∈ t.fields, good f.name ∧ good f.type.typeName ∧
          ∀ a ∈ f.args, good a.name ∧ good a.type.typeName := by
    unfold Definition.ofBase
    rcases hkind with hkind | hkind <;> rw [hkind] <;>
      simp only [Definition.names, Definition.head, List.cons_append, List.forall_mem_cons,
        List.forall_mem_append, forall_names_sorted, forall_names_fieldNodes]
  rw [hnames, namesType_object_iff hkind]
  constructor
  · rintro ⟨hname, hinterfaces, hfields⟩
    exact ⟨⟨hname, hinterfaces, fun f hf => (hfields f hf).1⟩, fun f hf => (hfields f hf).2.1⟩
  · rintro ⟨⟨hname, hinterfaces, hfields⟩, htypes⟩
    refine ⟨hname, hinterfaces, fun f hf => ⟨hfields f hf, htypes f hf, ?_⟩⟩
    rw [hbare f hf]
    exact fun _ h => absurd h List.not_mem_nil

/-- The names in the definition of a base type are those that it gives and those that it refers
to. -/
theorem forall_names_base {t : TypeDef} (hkind : t.kind ≠ .inputObject) (hbare : Bare t.fields) :
    (∀ name ∈ (Definition.ofBase t).names, good name) ↔
      NamesType good t ∧
        (t.kind = .object ∨ t.kind = .interface → ∀ f ∈ t.fields, good f.type.typeName) ∧
          (t.kind = .union → ∀ name ∈ t.unionMembers, good name) := by
  cases h : t.kind with
  | inputObject => exact absurd h hkind
  | object => simpa using forall_names_object (Or.inl h) hbare
  | interface => simpa using forall_names_object (Or.inr h) hbare
  | union =>
    rw [namesType_iff_name (Or.inl h)]
    simp [Definition.ofBase, h, Definition.names, Definition.head, forall_names_sorted]
  | enum =>
    rw [namesType_enum_iff h]
    simp [Definition.ofBase, h, Definition.names, Definition.head, EnumValueNode.of]
  | scalar =>
    rw [namesType_iff_name (Or.inr h)]
    simp [Definition.ofBase, h, Definition.names, Definition.head]

/-- Where every name fits its place, the names of a document are good when those are that its schema
gives. -/
theorem Fits.forall_names_iff (hfits : s.Fits) (h : s.Formed)
    (hbuiltin : ∀ name, isBuiltinScalar name = true → good name) :
    (∀ name ∈ (Document.ofSchema s).names, good name) ↔ s.Names good := by
  rw [forall_names_document]
  constructor
  · rintro ⟨hscalars, hbase, hinputs, hextensions⟩
    refine ⟨hscalars, fun t ht => ?_, fun t ht => ?_, fun e he f hf => ?_⟩
    · exact ((forall_names_base (h.kinds t ht) (h.bare t ht)).mp (hbase t ht)).1
    · obtain ⟨hname, hfields⟩ := forall_names_input.mp (hinputs t ht)
      exact ⟨hname, fun f hf => (hfields f hf).1⟩
    · obtain ⟨hname, -, hargs⟩ := (forall_names_extension.mp (hextensions e he)).2 f hf
      exact ⟨hname, List.forall_mem_map.mpr fun a ha => (hargs a ha).1⟩
  · -- a name that is referred to is defined, and so given, or built in
    intro hnames
    refine ⟨hnames.scalars, fun t ht => ?_, fun t ht => ?_, fun e he => ?_⟩
    · refine (forall_names_base (h.kinds t ht) (h.bare t ht)).mpr ⟨hnames.base t ht, ?_, ?_⟩
      · exact fun hkind f hf => hnames.of_givesOutput hbuiltin (hfits.fields t ht hkind f hf)
      · intro _ name hname
        obtain ⟨kind, -, hdefined⟩ := hfits.members t ht name hname
        exact hnames.of_defines hdefined
    · obtain ⟨hname, hfields⟩ := hnames.inputs t ht
      refine forall_names_input.mpr ⟨hname, fun f hf => ⟨hfields f hf, ?_⟩⟩
      exact hnames.of_takesInput hbuiltin (hfits.inputFields t ht f hf)
    · refine forall_names_extension.mpr ⟨hnames.of_defines (hfits.targets e he), fun f hf => ?_⟩
      obtain ⟨hname, hargs⟩ := hnames.resolved e he f hf
      refine ⟨hname, hnames.of_givesOutput hbuiltin (hfits.extended e he f hf), fun a ha => ?_⟩
      exact ⟨hargs a.name (List.mem_map_of_mem ha),
        hnames.of_takesInput hbuiltin (hfits.arguments e he f hf a ha)⟩

/-! ## Names of types -/

/-- What a type that a schema holds gives is among what the schema gives. -/
theorem Names.of_holds (h : s.Names good) {t : TypeDef} (ht : s.Holds t) : NamesType good t := by
  rcases ht with ⟨-, ht⟩ | ⟨hkind, ht⟩
  · exact h.base t ht
  · obtain ⟨hname, hfields⟩ := h.inputs _ ht
    refine ⟨hname, fun _ => ?_, by simp [hkind], by simp [hkind]⟩
    refine List.forall_mem_map.mpr fun f hf => ?_
    exact hfields f.asInput (List.mem_map_of_mem hf)

end Schema

open Schema

theorem Alike.namesType {good : String → Prop} {a b : TypeDef} (h : Alike a b)
    (ha : NamesType good a) : NamesType good b where
  name := h.name ▸ ha.name
  fields hkind := h.fields ▸ ha.fields (h.kind ▸ hkind)
  interfaces hkind := h.interfaces ▸ ha.interfaces (h.kind ▸ hkind)
  values hkind := h.values ▸ ha.values (h.kind ▸ hkind)

/-- Of an exported type, all is a name that it gives when its own name is, its keys and its
interfaces; its enum values were checked. -/
theorem Becomes.namesType_iff {t : ExportedType} {d : TypeDef} (h : Becomes t d) :
    NamesType (isName · = true) d ↔
      isName t.name = true ∧ ∀ name ∈ fieldNames t ++ implemented t, isName name = true := by
  rw [List.forall_mem_append, ← h.fields, ← h.interfaces, ← h.name]
  constructor
  · intro hd
    refine ⟨hd.name, fun name hname => ?_, fun name hname => ?_⟩
    · exact hd.fields (h.kind ▸ schemaKind_of_fieldNames (h.fields ▸ hname)) name hname
    · exact hd.interfaces (h.kind ▸ schemaKind_of_implemented (h.interfaces ▸ hname)) name hname
  · rintro ⟨hname, hfields, hinterfaces⟩
    exact ⟨hname, fun _ => hfields, fun _ => hinterfaces, fun _ => h.values⟩

end GraphQL

open GraphQL GraphQL.ResolverFields

/-- All that a program gives to a document is a name of the schema language: its scalars, the types
that are kept with the keys of their properties and what they implement, and its resolvers with
their arguments. -/
structure Analysis.WellNamed (a : Analysis) (kept : List String) : Prop where
  scalars : ∀ name ∈ customNames a.registry.value.bindings, isName name = true
  types : ∀ t ∈ a.types.value, t.name ∈ kept →
    isName t.name = true ∧ ∀ name ∈ fieldNames t ++ implemented t, isName name = true
  writtenOut : ∀ t ∈ a.writtenOut, t.name ∈ kept →
    isName t.name = true ∧ ∀ name ∈ t.fields.map (·.name), isName name = true
  resolvers : ∀ r ∈ a.resolvers.value, (owner? r).isSome = true →
    isName r.fieldName = true ∧ ∀ name ∈ (r.args.getD []).map (·.name), isName name = true

variable {p : Program} {config : Config}

theorem isName_of_isBuiltinScalar (name : String) (h : isBuiltinScalar name = true) :
    isName name = true := by
  have hall : ∀ name ∈ builtinScalars, isName name = true := by decide
  exact hall name (List.contains_iff_mem.mp h)

theorem namesType_of_origin {kept : List String}
    (hwell : (analyze p config.scalars).WellNamed kept) {d : TypeDef}
    (hd : (analyze p config.scalars).Origin d) (hkept : d.name ∈ kept) :
    Schema.NamesType (isName · = true) d := by
  cases hd with
  | exported ht hbecomes =>
    exact hbecomes.namesType_iff.mpr (hwell.types _ ht (hbecomes.name ▸ hkept))
  | made hmade =>
    obtain ⟨hname, hfields⟩ := hwell.writtenOut d hmade hkept
    have hd := made_writtenOut hmade
    refine ⟨hname, fun _ => hfields, fun _ => by simp [hd.interfaces], fun henum => ?_⟩
    rcases hd.kind with hkind | hkind <;> rw [hkind] at henum <;> cases henum
  | query hroot =>
    subst hroot
    exact ⟨by decide, fun _ => by simp [Schema.rootType], fun _ => by simp [Schema.rootType],
      fun _ => by simp [Schema.rootType]⟩
  | mutation hroot =>
    subst hroot
    exact ⟨by decide, fun _ => by simp [Schema.rootType], fun _ => by simp [Schema.rootType],
      fun _ => by simp [Schema.rootType]⟩

theorem names_writtenSchema_iff (h : (analyze p config.scalars).Clean) :
    (writtenSchema p config).Names (isName · = true) ↔
      (analyze p config.scalars).WellNamed (writtenSchema p config).typeNames := by
  constructor
  · intro hnames
    refine ⟨fun name hname => ?_, fun t ht hkept => ?_, fun t ht hkept => ?_, fun r hr howner => ?_⟩
    · exact hnames.scalars name ((mem_scalarNames_writtenSchema p config name).mpr hname)
    · obtain ⟨d, hd, hbecomes⟩ := exists_becomes h ht
      refine hbecomes.namesType_iff.mp (hnames.of_holds ?_)
      exact holds_writtenSchema hd (hbecomes.name ▸ hkept)
    · obtain ⟨d, hd, halike⟩ := exists_alike_made h ht
      have htype := halike.namesType
        (hnames.of_holds (holds_writtenSchema hd (halike.name ▸ hkept)))
      exact ⟨htype.name, htype.fields ((made_writtenOut ht).kind.imp_right Or.inr)⟩
    · obtain ⟨owner, howner⟩ := Option.isSome_iff_exists.mp howner
      obtain ⟨e, he, -, f, hf, hanswers⟩ := exists_extension h hr howner
      rw [← hanswers.name, ← hanswers.arguments]
      exact hnames.resolved e he f hf
  · intro hwell
    refine ⟨fun name hname => ?_, fun d hd => ?_, fun u hu => ?_, fun e he f hf => ?_⟩
    · exact hwell.scalars name ((mem_scalarNames_writtenSchema p config name).mp hname)
    · have horigin := origin_baseType h (baseTypes_writtenSchema_subset p config hd)
      exact namesType_of_origin hwell horigin (Schema.mem_typeNames.mpr (Or.inl ⟨d, hd, rfl⟩))
    · obtain ⟨d, hd, hkind, rfl⟩ :=
        origin_inputType h (inputTypes_writtenSchema_subset p config hu)
      have htype := namesType_of_origin hwell hd (Schema.mem_typeNames.mpr (Or.inr ⟨_, hu, rfl⟩))
      refine ⟨htype.name, List.forall_mem_map.mpr fun f hf => ?_⟩
      exact htype.fields (Or.inr (Or.inr hkind)) f.name (List.mem_map_of_mem hf)
    · obtain ⟨r, hr, howner, hanswers⟩ := exists_resolver h he hf
      rw [hanswers.name, hanswers.arguments]
      exact hwell.resolvers r hr howner

/-- After a run without errors all names of the document are names of the schema language, exactly
when all that the program gives is. -/
theorem names_valid_iff (p : Program) (before : List Diagnostic) (config : Config) (dir : Path)
    (h : (generate p before config dir).hasErrors = false) :
    (∀ name ∈ (outputDocument p config).names, isName name = true) ↔
      (analyze p config.scalars).WellNamed (writtenSchema p config).typeNames := by
  have hclean := clean_of_generate h
  exact ((fits_writtenSchema hclean).forall_names_iff (formed_writtenSchema p config)
    isName_of_isBuiltinScalar).trans (names_writtenSchema_iff hclean)

/-! ## A key that is no name -/

namespace Sample

attribute [local irreducible] String.decEq

/-- A user whose only property has a key that is no name. -/
def keyProgram : Program :=
  program [interface "User" [property "first-name" (keyword .string)]] []

set_option maxRecDepth 10000

theorem userProgram_names :
    ((customNames (analyze userProgram []).registry.value.bindings).all isName &&
      (analyze userProgram []).types.value.all (fun t =>
        isName t.name && (fieldNames t ++ implemented t).all isName) &&
      (analyze userProgram []).writtenOut.all (fun t =>
        isName t.name && (t.fields.map (·.name)).all isName) &&
      (analyze userProgram []).resolvers.value.all (fun r =>
        isName r.fieldName && ((r.args.getD []).map (·.name)).all isName)) = true := by
  cbv

theorem keyProgram_run :
    (hasErrors (analyze keyProgram []).diagnostics,
      (outputDocument keyProgram (Sample.config false)).names) =
        (false, ["User", "first-name", "String"]) := by
  cbv

end Sample

open Sample

/-- Where all that the program gives is a name, so is all in the document. -/
theorem names_valid_userProgram :
    (generate userProgram [] (Sample.config true) ⟨""⟩).hasErrors = false ∧
      ∀ name ∈ (outputDocument userProgram (Sample.config true)).names, isName name = true := by
  have hall := userProgram_names
  simp only [Bool.and_eq_true, List.all_eq_true] at hall
  obtain ⟨⟨⟨hscalars, htypes⟩, hwritten⟩, hresolvers⟩ := hall
  refine ⟨userProgram_clean,
    (names_valid_iff userProgram [] (Sample.config true) ⟨""⟩ userProgram_clean).mpr ?_⟩
  exact ⟨hscalars, fun t ht _ => htypes t ht, fun t ht _ => hwritten t ht,
    fun r hr _ => hresolvers r hr⟩

/-- A run without errors whose document has a field under something that is no name. -/
theorem name_invalid :
    (generate keyProgram [] (Sample.config false) ⟨""⟩).hasErrors = false ∧
      ¬ ∀ name ∈ (outputDocument keyProgram (Sample.config false)).names, isName name = true := by
  obtain ⟨hclean, hnames⟩ := Prod.mk.inj keyProgram_run
  refine ⟨hclean, fun hall => ?_⟩
  have hkey := hall "first-name" (by rw [hnames]; decide)
  exact absurd hkey (by decide)

end SchemaCompiler

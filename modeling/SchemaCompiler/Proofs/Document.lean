import SchemaCompiler.GraphQL.Document.Basic
import SchemaCompiler.Proofs.Schema.Reach

/-!
# What a document defines and refers to

The names that the definitions of a document take and the names that stand in their types, by the
side on which they stand. A document is sorted, but it defines and refers to what its schema does.
-/

namespace SchemaCompiler.GraphQL

/-! ## Types -/

/-- The name under the list and non-null marks. -/
def TypeNode.core : TypeNode → String
  | named name => name
  | list item => item.core
  | nonNull inner => inner.core

@[simp]
theorem TypeNode.core_required (t : TypeNode) : t.required.core = t.core := by
  cases t <;> rfl

@[simp]
theorem TypeNode.core_ofFieldType (t : FieldType) : (TypeNode.ofFieldType t).core = t.typeName := by
  have hinner : (if t.list then TypeNode.list
      (if t.listItemNullable then .named t.typeName else (TypeNode.named t.typeName).required)
      else TypeNode.named t.typeName).core = t.typeName := by
    split
    · rw [TypeNode.core]
      split
      · rfl
      · rw [core_required, TypeNode.core]
    · rfl
  rw [ofFieldType]
  split
  · exact hinner
  · rw [core_required]
    exact hinner

/-! ## Definitions -/

namespace Definition

/-- The kind and the name of a type that is defined; an extension defines none. -/
def defined? : Definition → Option (Kind × String)
  | scalar head => some (.scalar, head.name)
  | object head _ _ => some (.object, head.name)
  | interface head _ _ => some (.interface, head.name)
  | union head _ => some (.union, head.name)
  | enum head _ => some (.enum, head.name)
  | inputObject head _ => some (.inputObject, head.name)
  | extension _ _ => none

/-- The fields that are read. -/
def outputFields : Definition → List FieldNode
  | object _ _ fields => fields
  | interface _ _ fields => fields
  | extension _ fields => fields
  | scalar _ => []
  | union _ _ => []
  | enum _ _ => []
  | inputObject _ _ => []

def inputFields : Definition → List InputValueNode
  | inputObject _ fields => fields
  | scalar _ => []
  | object _ _ _ => []
  | interface _ _ _ => []
  | union _ _ => []
  | enum _ _ => []
  | extension _ _ => []

def unionMembers : Definition → List String
  | union _ members => members
  | scalar _ => []
  | object _ _ _ => []
  | interface _ _ _ => []
  | enum _ _ => []
  | inputObject _ _ => []
  | extension _ _ => []

/-- The interfaces that are implemented. -/
def interfaces : Definition → List String
  | object _ interfaces _ => interfaces
  | interface _ interfaces _ => interfaces
  | scalar _ => []
  | union _ _ => []
  | enum _ _ => []
  | inputObject _ _ => []
  | extension _ _ => []

/-- The type names of fields that are read. -/
def outputNames (d : Definition) : List String := d.outputFields.map (·.type.core)

/-- The type names of arguments and of input fields. -/
def inputNames (d : Definition) : List String :=
  d.outputFields.flatMap (fun f => f.arguments.map (·.type.core)) ++ d.inputFields.map (·.type.core)

end Definition

namespace Document

/-- A document defines a name as something of a kind. -/
def Defines (d : Document) (kind : Kind) (name : String) : Prop :=
  ∃ x ∈ d.definitions, x.defined? = some (kind, name)

def outputNames (d : Document) : List String := d.definitions.flatMap Definition.outputNames

def inputNames (d : Document) : List String := d.definitions.flatMap Definition.inputNames

def unionMembers (d : Document) : List String := d.definitions.flatMap Definition.unionMembers

/-- The types that are extended, once for each extension. -/
def extended (d : Document) : List String :=
  d.definitions.filterMap fun
    | .extension name _ => some name
    | _ => none

/-- The names of all types that are defined, in order. -/
def definedNames (d : Document) : List String := d.definitions.filterMap fun x => x.defined?.map (·.2)

end Document

/-! ## Documents of schemas -/

@[simp]
theorem mem_sortByName {α : Type} {name : α → String} {items : List α} {a : α} :
    a ∈ sortByName name items ↔ a ∈ items :=
  List.mem_mergeSort

theorem mem_sortedNames {names : List String} {name : String} :
    name ∈ sortedNames names ↔ name ∈ names := by
  rw [sortedNames, List.mem_eraseDups, List.mem_mergeSort]

theorem mem_definitions_ofSchema {s : Schema} {x : Definition} :
    x ∈ (Document.ofSchema s).definitions ↔
      (∃ c ∈ s.customScalars, .ofScalar c = x) ∨ (∃ t ∈ s.baseTypes, .ofBase t = x) ∨
        (∃ t ∈ s.inputTypes, .ofInput t = x) ∨ ∃ e ∈ s.extensions, .ofExtension e = x := by
  simp only [Document.ofSchema, List.mem_append, List.mem_map, mem_sortByName, or_assoc]

theorem defined?_ofBase {t : TypeDef} (h : t.kind ≠ .inputObject) :
    (Definition.ofBase t).defined? = some (t.kind, t.name) := by
  unfold Definition.ofBase
  cases hkind : t.kind with
  | inputObject => exact absurd hkind h
  | object => rfl
  | interface => rfl
  | union => rfl
  | enum => rfl
  | scalar => rfl

/-- A document defines what its schema defines. -/
theorem defines_ofSchema {s : Schema} (hkinds : ∀ t ∈ s.baseTypes, t.kind ≠ .inputObject)
    (kind : Kind) (name : String) :
    (Document.ofSchema s).Defines kind name ↔ s.Defines kind name := by
  constructor
  · rintro ⟨x, hx, hdefined⟩
    rcases mem_definitions_ofSchema.mp hx with ⟨c, hc, rfl⟩ | ⟨t, ht, rfl⟩ | ⟨t, ht, rfl⟩ | ⟨e, -, rfl⟩
    · cases hdefined
      exact Or.inr (Or.inr ⟨rfl, List.mem_map_of_mem hc⟩)
    · rw [defined?_ofBase (hkinds t ht)] at hdefined
      cases hdefined
      exact Or.inl ⟨t, ht, rfl, rfl⟩
    · cases hdefined
      exact Or.inr (Or.inl ⟨rfl, t, ht, rfl⟩)
    · cases hdefined
  · rintro (⟨t, ht, rfl, rfl⟩ | ⟨rfl, t, ht, rfl⟩ | ⟨rfl, hname⟩)
    · exact ⟨_, mem_definitions_ofSchema.mpr (Or.inr (Or.inl ⟨t, ht, rfl⟩)),
        defined?_ofBase (hkinds t ht)⟩
    · exact ⟨_, mem_definitions_ofSchema.mpr (Or.inr (Or.inr (Or.inl ⟨t, ht, rfl⟩))), rfl⟩
    · obtain ⟨c, hc, rfl⟩ := List.mem_map.mp hname
      exact ⟨_, mem_definitions_ofSchema.mpr (Or.inl ⟨c, hc, rfl⟩), rfl⟩

theorem mem_extended_ofSchema {s : Schema} {name : String} :
    name ∈ (Document.ofSchema s).extended ↔ ∃ e ∈ s.extensions, e.target = name := by
  simp only [Document.extended, List.mem_filterMap, mem_definitions_ofSchema]
  constructor
  · rintro ⟨x, ⟨c, -, rfl⟩ | ⟨t, -, rfl⟩ | ⟨t, -, rfl⟩ | ⟨e, he, rfl⟩, hname⟩
    · cases hname
    · unfold Definition.ofBase at hname
      cases hkind : t.kind <;> rw [hkind] at hname <;> cases hname
    · cases hname
    · cases hname
      exact ⟨e, he, rfl⟩
  · rintro ⟨e, he, rfl⟩
    exact ⟨_, Or.inr (Or.inr (Or.inr ⟨e, he, rfl⟩)), rfl⟩

theorem definedName?_ofBase (t : TypeDef) :
    (Definition.ofBase t).defined?.map (·.2) = some t.name := by
  unfold Definition.ofBase
  cases t.kind <;> rfl

/-- A document defines the scalars and the types of its schema, and nothing twice that is not there
twice. -/
theorem definedNames_perm (s : Schema) :
    (Document.ofSchema s).definedNames.Perm (s.scalarNames ++ s.typeNames) := by
  have hextensions : ∀ es : List TypeExtension,
      es.filterMap (fun e => (Definition.ofExtension e).defined?.map (·.2)) = [] := by
    intro es
    simp [Definition.ofExtension, Definition.defined?]
  simp only [Document.definedNames, Document.ofSchema, List.filterMap_append, List.filterMap_map,
    Function.comp_def, definedName?_ofBase, hextensions, List.append_nil]
  rw [Schema.scalarNames, Schema.typeNames, ← List.append_assoc]
  have hmap : ∀ {α : Type} (name : α → String) (items : List α),
      ((sortByName name items).filterMap fun a => some (name a)).Perm (items.map name) := by
    intro α name items
    have heq : ((sortByName name items).filterMap fun a => some (name a)) =
        (sortByName name items).map name :=
      congrFun List.filterMap_eq_map _
    rw [heq]
    exact (List.mergeSort_perm _ _).map _
  exact ((hmap _ s.customScalars).append (hmap _ s.baseTypes)).append (hmap _ s.inputTypes)

theorem mem_fieldNodes {fields : List Field} {node : FieldNode} :
    node ∈ fieldNodes fields ↔ ∃ f ∈ fields, FieldNode.of f = node := by
  simp [fieldNodes]

theorem mem_outputFields_ofBase {t : TypeDef} (hkind : t.kind ≠ .inputObject) {node : FieldNode} :
    node ∈ (Definition.ofBase t).outputFields ↔
      (t.kind = .object ∨ t.kind = .interface) ∧ ∃ f ∈ t.fields, FieldNode.of f = node := by
  rw [← mem_fieldNodes]
  unfold Definition.ofBase
  cases h : t.kind with
  | inputObject => exact absurd h hkind
  | object => simp [Definition.outputFields]
  | interface => simp [Definition.outputFields]
  | union => simp [Definition.outputFields]
  | enum => simp [Definition.outputFields]
  | scalar => simp [Definition.outputFields]

theorem mem_interfaces_ofBase {t : TypeDef} (hkind : t.kind ≠ .inputObject) {name : String} :
    name ∈ (Definition.ofBase t).interfaces ↔
      (t.kind = .object ∨ t.kind = .interface) ∧ name ∈ t.interfaces := by
  unfold Definition.ofBase
  cases h : t.kind with
  | inputObject => exact absurd h hkind
  | object => simp [Definition.interfaces, mem_sortedNames]
  | interface => simp [Definition.interfaces, mem_sortedNames]
  | union => simp [Definition.interfaces]
  | enum => simp [Definition.interfaces]
  | scalar => simp [Definition.interfaces]

theorem inputFields_ofBase (t : TypeDef) : (Definition.ofBase t).inputFields = [] := by
  unfold Definition.ofBase
  cases t.kind <;> rfl

/-- The names of fields that a document lets read. -/
theorem mem_outputNames_ofSchema {s : Schema}
    (hkinds : ∀ t ∈ s.baseTypes, t.kind ≠ .inputObject) {name : String}
    (h : name ∈ (Document.ofSchema s).outputNames) :
    (∃ t ∈ s.baseTypes, (t.kind = .object ∨ t.kind = .interface) ∧
        ∃ f ∈ t.fields, f.type.typeName = name) ∨
      ∃ e ∈ s.extensions, ∃ f ∈ e.fields, f.field.type.typeName = name := by
  obtain ⟨x, hx, hname⟩ := List.mem_flatMap.mp h
  obtain ⟨node, hnode, rfl⟩ := List.mem_map.mp hname
  rcases mem_definitions_ofSchema.mp hx with ⟨c, -, rfl⟩ | ⟨t, ht, rfl⟩ | ⟨t, -, rfl⟩ | ⟨e, he, rfl⟩
  · cases hnode
  · obtain ⟨hkind, f, hf, rfl⟩ := (mem_outputFields_ofBase (hkinds t ht)).mp hnode
    exact Or.inl ⟨t, ht, hkind, f, hf, (TypeNode.core_ofFieldType _).symm⟩
  · cases hnode
  · obtain ⟨f, hf, rfl⟩ := mem_fieldNodes.mp hnode
    obtain ⟨r, hr, rfl⟩ := List.mem_map.mp hf
    exact Or.inr ⟨e, he, r, hr, (TypeNode.core_ofFieldType _).symm⟩

theorem mem_argumentNames {f : Field} {name : String}
    (h : name ∈ (FieldNode.of f).arguments.map (·.type.core)) :
    ∃ a ∈ f.args, a.type.typeName = name := by
  obtain ⟨node, hnode, rfl⟩ := List.mem_map.mp h
  obtain ⟨a, ha, rfl⟩ := List.mem_map.mp hnode
  exact ⟨a, ha, (TypeNode.core_ofFieldType _).symm⟩

/-- The names that stand in the input positions of a document: as no field of a base type has
arguments, those of extensions and of input objects. -/
theorem mem_inputNames_ofSchema {s : Schema} (hformed : s.Formed) {name : String}
    (h : name ∈ (Document.ofSchema s).inputNames) :
    (∃ e ∈ s.extensions, ∃ f ∈ e.fields, ∃ a ∈ f.field.args, a.type.typeName = name) ∨
      ∃ t ∈ s.inputTypes, ∃ f ∈ t.fields, f.type.typeName = name := by
  obtain ⟨x, hx, hname⟩ := List.mem_flatMap.mp h
  rcases mem_definitions_ofSchema.mp hx with ⟨c, -, rfl⟩ | ⟨t, ht, rfl⟩ | ⟨t, ht, rfl⟩ | ⟨e, he, rfl⟩
  · cases hname
  · rw [Definition.inputNames, inputFields_ofBase, List.map_nil, List.append_nil] at hname
    obtain ⟨node, hnode, hname⟩ := List.mem_flatMap.mp hname
    obtain ⟨-, f, hf, rfl⟩ := (mem_outputFields_ofBase (hformed.kinds t ht)).mp hnode
    obtain ⟨a, ha, -⟩ := mem_argumentNames hname
    rw [hformed.bare t ht f hf] at ha
    cases ha
  · obtain ⟨node, hnode, rfl⟩ := List.mem_map.mp hname
    obtain ⟨f, hf, rfl⟩ := List.mem_map.mp hnode
    exact Or.inr ⟨t, ht, f, mem_sortByName.mp hf, (TypeNode.core_ofFieldType _).symm⟩
  · rcases List.mem_append.mp hname with hname | hname
    · obtain ⟨node, hnode, hname⟩ := List.mem_flatMap.mp hname
      obtain ⟨f, hf, rfl⟩ := mem_fieldNodes.mp hnode
      obtain ⟨r, hr, rfl⟩ := List.mem_map.mp hf
      obtain ⟨a, ha, hname⟩ := mem_argumentNames hname
      exact Or.inl ⟨e, he, r, hr, a, ha, hname⟩
    · cases hname

/-- The interfaces that are implemented in a document. -/
theorem mem_interfaces_ofSchema {s : Schema} (hkinds : ∀ t ∈ s.baseTypes, t.kind ≠ .inputObject)
    {name : String} :
    (∃ x ∈ (Document.ofSchema s).definitions, name ∈ x.interfaces) ↔
      ∃ t ∈ s.baseTypes, (t.kind = .object ∨ t.kind = .interface) ∧ name ∈ t.interfaces := by
  constructor
  · rintro ⟨x, hx, hname⟩
    rcases mem_definitions_ofSchema.mp hx with ⟨c, -, rfl⟩ | ⟨t, ht, rfl⟩ | ⟨t, -, rfl⟩ | ⟨e, -, rfl⟩
    · cases hname
    · exact ⟨t, ht, (mem_interfaces_ofBase (hkinds t ht)).mp hname⟩
    · cases hname
    · cases hname
  · rintro ⟨t, ht, hname⟩
    exact ⟨_, mem_definitions_ofSchema.mpr (Or.inr (Or.inl ⟨t, ht, rfl⟩)),
      (mem_interfaces_ofBase (hkinds t ht)).mpr hname⟩

theorem mem_unionMembers_ofSchema {s : Schema} {name : String}
    (h : name ∈ (Document.ofSchema s).unionMembers) : ∃ t ∈ s.baseTypes, name ∈ t.unionMembers := by
  obtain ⟨x, hx, hname⟩ := List.mem_flatMap.mp h
  rcases mem_definitions_ofSchema.mp hx with ⟨c, -, rfl⟩ | ⟨t, ht, rfl⟩ | ⟨t, -, rfl⟩ | ⟨e, -, rfl⟩
  · cases hname
  · refine ⟨t, ht, ?_⟩
    unfold Definition.ofBase at hname
    cases hkind : t.kind with
    | union =>
      rw [hkind] at hname
      exact mem_sortedNames.mp hname
    | inputObject => rw [hkind] at hname; cases hname
    | object => rw [hkind] at hname; cases hname
    | interface => rw [hkind] at hname; cases hname
    | enum => rw [hkind] at hname; cases hname
    | scalar => rw [hkind] at hname; cases hname
  · cases hname
  · cases hname

end SchemaCompiler.GraphQL

import SchemaCompiler.GraphQL.Validate
import SchemaCompiler.Proofs.Diagnostics
import SchemaCompiler.Proofs.Lists

/-!
# What a schema without faults refers to

`Schema.Defines` says what a name stands for, `Schema.TakesInput` and `Schema.GivesOutput` which
names fit a place on either side. The checks decide these two, so a schema that they report nothing
about refers to fitting names everywhere.
-/

namespace SchemaCompiler.GraphQL

/-- Whether values of a kind are made of fields, and so never stand in an input position. -/
def Kind.isComposite : Kind → Bool
  | .object => true
  | .interface => true
  | .union => true
  | .inputObject => false
  | .enum => false
  | .scalar => false

namespace Schema

/-- A name stands for something of a kind. -/
def Defines (s : Schema) (kind : Kind) (name : String) : Prop :=
  (∃ t ∈ s.baseTypes, t.kind = kind ∧ t.name = name) ∨
    (kind = .inputObject ∧ ∃ t ∈ s.inputTypes, t.name = name) ∨
    (kind = .scalar ∧ name ∈ s.scalarNames)

/-- A name fits an argument or an input field. -/
def TakesInput (s : Schema) (name : String) : Prop :=
  (∀ kind, kind.isComposite = true → ¬ s.Defines kind name) ∧
    (isBuiltinScalar name = true ∨ ∃ kind, kind.isComposite = false ∧ s.Defines kind name)

/-- A name fits a field that is read. -/
def GivesOutput (s : Schema) (name : String) : Prop :=
  isBuiltinScalar name = true ∨ ∃ kind, kind ≠ .inputObject ∧ s.Defines kind name

variable {s : Schema} {name : String}

theorem TakesInput.defined (h : s.TakesInput name) :
    isBuiltinScalar name = true ∨ ∃ kind, s.Defines kind name :=
  h.2.imp_right fun ⟨kind, _, hkind⟩ => ⟨kind, hkind⟩

theorem GivesOutput.defined (h : s.GivesOutput name) :
    isBuiltinScalar name = true ∨ ∃ kind, s.Defines kind name :=
  h.imp_right fun ⟨kind, _, hkind⟩ => ⟨kind, hkind⟩

end Schema

/-! ## Domains of names -/

namespace NameDomains

/-- The domain that the names of a kind go to. -/
def names (d : NameDomains) : Kind → List String
  | .object => d.outputTypes
  | .interface => d.outputTypes
  | .union => d.outputTypes
  | .inputObject => d.inputTypes
  | .enum => d.enumTypes
  | .scalar => d.scalarTypes

/-- Kinds whose names go to one domain. -/
def together (a b : Kind) : Bool := a == b || (a.isComposite && b.isComposite)

theorem names_addBase (d : NameDomains) (t : TypeDef) (kind : Kind) :
    (d.addBase t).names kind = d.names kind ++ if together t.kind kind then [t.name] else [] := by
  cases htype : t.kind <;> cases kind <;> simp [addBase, htype, names, together, Kind.isComposite]

theorem mem_names_foldl (d : NameDomains) (ts : List TypeDef) (kind : Kind) (name : String) :
    name ∈ (ts.foldl addBase d).names kind ↔
      name ∈ d.names kind ∨ ∃ t ∈ ts, together t.kind kind = true ∧ t.name = name := by
  induction ts generalizing d with
  | nil => simp
  | cons t rest ih =>
    have hnew : (name ∈ if together t.kind kind then [t.name] else []) ↔
        together t.kind kind = true ∧ t.name = name := by
      split
      · rename_i htogether
        rw [List.mem_singleton, htogether]
        exact ⟨fun h => ⟨rfl, h.symm⟩, fun h => h.2.symm⟩
      · rename_i htogether
        simp [htogether]
    rw [List.foldl_cons, ih, names_addBase, List.mem_append, or_assoc, hnew]
    simp only [List.mem_cons, exists_eq_or_imp]

/-- The names of base types, as far as the domains hold them. -/
theorem mem_names_base (s : Schema) (kind : Kind) (name : String) :
    name ∈ (s.baseTypes.foldl addBase { scalarTypes := builtinScalars }).names kind ↔
      (kind = .scalar ∧ isBuiltinScalar name = true) ∨
        ∃ t ∈ s.baseTypes, together t.kind kind = true ∧ t.name = name := by
  rw [mem_names_foldl, isBuiltinScalar, List.contains_iff_mem]
  cases kind <;> simp [names]

theorem mem_inputTypes (s : Schema) (name : String) :
    name ∈ (ofSchema s).inputTypes ↔ s.Defines .inputObject name := by
  have hbase := mem_names_base s .inputObject name
  simp only [names] at hbase
  simp only [ofSchema, List.mem_append, hbase, Schema.Defines, List.mem_map]
  simp [together, Kind.isComposite]

theorem mem_outputTypes (s : Schema) (name : String) :
    name ∈ (ofSchema s).outputTypes ↔ ∃ kind, kind.isComposite = true ∧ s.Defines kind name := by
  have hbase := mem_names_base s .object name
  simp only [names, reduceCtorEq, false_and, false_or] at hbase
  have htogether : ∀ kind : Kind, together kind .object = kind.isComposite := by
    intro kind
    cases kind <;> rfl
  simp only [htogether] at hbase
  rw [show (ofSchema s).outputTypes =
    (s.baseTypes.foldl addBase { scalarTypes := builtinScalars }).outputTypes from rfl, hbase]
  constructor
  · rintro ⟨t, ht, hkind, hname⟩
    exact ⟨t.kind, hkind, Or.inl ⟨t, ht, rfl, hname⟩⟩
  · rintro ⟨kind, hkind, ⟨t, ht, rfl, hname⟩ | ⟨rfl, -⟩ | ⟨rfl, -⟩⟩
    · exact ⟨t, ht, hkind, hname⟩
    · cases hkind
    · cases hkind

theorem mem_enumTypes (s : Schema) (name : String) :
    name ∈ (ofSchema s).enumTypes ↔ s.Defines .enum name := by
  have hbase := mem_names_base s .enum name
  simp only [names] at hbase
  rw [show (ofSchema s).enumTypes =
    (s.baseTypes.foldl addBase { scalarTypes := builtinScalars }).enumTypes from rfl, hbase]
  simp [together, Kind.isComposite, Schema.Defines]

theorem mem_scalarTypes (s : Schema) (name : String) :
    name ∈ (ofSchema s).scalarTypes ↔ isBuiltinScalar name = true ∨ s.Defines .scalar name := by
  have hbase := mem_names_base s .scalar name
  simp only [names] at hbase
  simp only [ofSchema, List.mem_append, hbase, Schema.Defines]
  simp [together, Kind.isComposite, or_assoc]

end NameDomains

/-! ## Checks -/

theorem checkInput_eq_none_iff {s : Schema} {name site : String}
    {location unknownLocation : Option SourceLocation} {unknown : Code} :
    checkInput (.ofSchema s) name site location unknown unknownLocation = none ↔
      s.TakesInput name := by
  have htakes : (NameDomains.ofSchema s).takesInput name = true ↔
      isBuiltinScalar name = true ∨ ∃ kind, kind.isComposite = false ∧ s.Defines kind name := by
    simp only [NameDomains.takesInput, Bool.or_eq_true, List.contains_iff_mem,
      NameDomains.mem_inputTypes, NameDomains.mem_enumTypes, NameDomains.mem_scalarTypes]
    constructor
    · rintro ((h | h) | h | h)
      · exact Or.inr ⟨_, rfl, h⟩
      · exact Or.inr ⟨_, rfl, h⟩
      · exact Or.inl h
      · exact Or.inr ⟨_, rfl, h⟩
    · rintro (h | ⟨kind, hkind, h⟩)
      · exact Or.inr (Or.inl h)
      · cases kind with
        | inputObject => exact Or.inl (Or.inl h)
        | enum => exact Or.inl (Or.inr h)
        | scalar => exact Or.inr (Or.inr h)
        | object => cases hkind
        | interface => cases hkind
        | union => cases hkind
  have hout : (NameDomains.ofSchema s).outputTypes.contains name = true ↔
      ∃ kind, kind.isComposite = true ∧ s.Defines kind name := by
    rw [List.contains_iff_mem, NameDomains.mem_outputTypes]
  unfold checkInput Schema.TakesInput
  rw [← htakes]
  split
  · rename_i h
    obtain ⟨kind, hkind, hdef⟩ := hout.mp h
    simp only [reduceCtorEq, false_iff]
    exact fun hfit => hfit.1 kind hkind hdef
  · rename_i h
    have hnone : ∀ kind : Kind, kind.isComposite = true → ¬ s.Defines kind name :=
      fun kind hkind hdef => h (hout.mpr ⟨kind, hkind, hdef⟩)
    split <;> simp_all

theorem checkOutput_eq_none_iff {s : Schema} {owner : String} {f : Field}
    {location : Option SourceLocation} :
    checkOutput (.ofSchema s) owner f location = none ↔ s.GivesOutput f.type.typeName := by
  have hgives : (NameDomains.ofSchema s).givesOutput f.type.typeName = true ↔
      s.GivesOutput f.type.typeName := by
    simp only [NameDomains.givesOutput, Bool.or_eq_true, List.contains_iff_mem,
      NameDomains.mem_outputTypes, NameDomains.mem_enumTypes, NameDomains.mem_scalarTypes]
    constructor
    · rintro ((⟨kind, hkind, h⟩ | h) | h | h)
      · exact Or.inr ⟨kind, fun heq => (by rw [heq] at hkind; cases hkind), h⟩
      · exact Or.inr ⟨.enum, by decide, h⟩
      · exact Or.inl h
      · exact Or.inr ⟨.scalar, by decide, h⟩
    · rintro (h | ⟨kind, hkind, h⟩)
      · exact Or.inr (Or.inl h)
      · cases kind with
        | inputObject => exact absurd rfl hkind
        | enum => exact Or.inl (Or.inr h)
        | scalar => exact Or.inr (Or.inr h)
        | object => exact Or.inl (Or.inl ⟨_, rfl, h⟩)
        | interface => exact Or.inl (Or.inl ⟨_, rfl, h⟩)
        | union => exact Or.inl (Or.inl ⟨_, rfl, h⟩)
  simp [checkOutput, hgives]

theorem checkMember_eq_none_iff {s : Schema} {t : TypeDef} {member : String} :
    checkMember (.ofSchema s) t member = none ↔
      ∃ kind, kind.isComposite = true ∧ s.Defines kind member := by
  simp [checkMember, ← NameDomains.mem_outputTypes]

/-! ## Reports -/

/-- Whether two diagnostics say the same of the same place. -/
def saysAgain (k d : Diagnostic) : Bool :=
  k.code == d.code && k.message == d.message && k.location == d.location

theorem dropRepeated_eq_foldl (ds : List Diagnostic) :
    dropRepeated ds = ds.foldl (addNew saysAgain) [] := rfl

/-- Two diagnostics say the same of the same place. -/
def Repeats (k d : Diagnostic) : Prop :=
  (k.code == d.code && k.message == d.message && k.location == d.location) = true

theorem Repeats.refl (d : Diagnostic) : Repeats d d := by simp [Repeats]

/-- Of every diagnostic one that says the same is kept. -/
theorem exists_mem_dropRepeated {ds : List Diagnostic} {d : Diagnostic} (h : d ∈ ds) :
    ∃ k ∈ dropRepeated ds, Repeats k d := by
  rw [dropRepeated_eq_foldl]
  exact exists_mem_foldl_addNew saysAgain Repeats.refl h

theorem mem_of_mem_dropRepeated {ds : List Diagnostic} {d : Diagnostic}
    (h : d ∈ dropRepeated ds) : d ∈ ds :=
  (foldl_addNew_sublist ds []).subset h

/-- Where only errors are reported, a report without errors is empty. -/
theorem hasErrors_dropRepeated_iff {ds : List Diagnostic} (hall : ∀ d ∈ ds, d.isError = true) :
    hasErrors (dropRepeated ds) = false ↔ ds = [] := by
  constructor
  · intro h
    have hnil := eq_nil_of_hasErrors_eq_false
      (fun d hd => hall d (mem_of_mem_dropRepeated hd)) h
    refine List.eq_nil_iff_forall_not_mem.mpr fun d hd => ?_
    obtain ⟨k, hk, -⟩ := exists_mem_dropRepeated hd
    rw [hnil] at hk
    cases hk
  · rintro rfl
    rfl

theorem isError_of_checkInput {d : NameDomains} {name site : String}
    {location unknownLocation : Option SourceLocation} {unknown : Code} {found : Diagnostic}
    (h : checkInput d name site location unknown unknownLocation = some found) :
    found.isError = true := by
  unfold checkInput at h
  split at h
  · cases h
    rfl
  · split at h
    · cases h
    · cases h
      rfl

theorem isError_of_checkOutput {d : NameDomains} {owner : String} {f : Field}
    {location : Option SourceLocation} {found : Diagnostic}
    (h : checkOutput d owner f location = some found) : found.isError = true := by
  unfold checkOutput at h
  simp only at h
  split at h
  · cases h
  · cases h
    rfl

theorem isError_of_checkMember {d : NameDomains} {t : TypeDef} {member : String}
    {found : Diagnostic} (h : checkMember d t member = some found) : found.isError = true := by
  unfold checkMember at h
  split at h
  · cases h
  · cases h
    rfl

theorem isError_circularReferences {inputs : List InputType} {d : Diagnostic}
    (h : d ∈ circularReferences inputs) : d.isError = true := by
  obtain ⟨c, -, rfl⟩ := List.mem_map.mp h
  rfl

/-- The faults of arguments and input objects, before repeated ones are dropped. -/
def inputFaults (extensions : List TypeExtension) (inputs : List InputType) (d : NameDomains) :
    List Diagnostic :=
  (extensions.flatMap fun e =>
      e.fields.flatMap fun f => f.field.args.filterMap (checkArgument d e.target f.field)) ++
    (inputs.flatMap fun t => t.fields.filterMap (checkInputField d t)) ++ circularReferences inputs

theorem validateArguments_eq (extensions : List TypeExtension) (inputs : List InputType)
    (d : NameDomains) :
    validateArguments extensions inputs d = dropRepeated (inputFaults extensions inputs d) := rfl

theorem mem_inputFaults_iff {extensions : List TypeExtension} {inputs : List InputType}
    {d : NameDomains} {found : Diagnostic} :
    found ∈ inputFaults extensions inputs d ↔
      (∃ e ∈ extensions, ∃ f ∈ e.fields, ∃ a ∈ f.field.args,
        checkArgument d e.target f.field a = some found) ∨
      (∃ t ∈ inputs, ∃ f ∈ t.fields, checkInputField d t f = some found) ∨
      found ∈ circularReferences inputs := by
  simp only [inputFaults, List.mem_append, List.mem_flatMap, List.mem_filterMap, or_assoc]

theorem isError_inputFaults {extensions : List TypeExtension} {inputs : List InputType}
    {d : NameDomains} {found : Diagnostic} (h : found ∈ inputFaults extensions inputs d) :
    found.isError = true := by
  rcases mem_inputFaults_iff.mp h with ⟨e, -, f, -, a, -, h⟩ | ⟨t, -, f, -, h⟩ | h
  · exact isError_of_checkInput h
  · exact isError_of_checkInput h
  · exact isError_circularReferences h

/-- Arguments and input fields have no faults when they name what fits an input. -/
theorem validateArguments_ok_iff {s : Schema} :
    hasErrors (validateArguments s.extensions s.inputTypes (.ofSchema s)) = false ↔
      (∀ e ∈ s.extensions, ∀ f ∈ e.fields, ∀ a ∈ f.field.args, s.TakesInput a.type.typeName) ∧
        (∀ t ∈ s.inputTypes, ∀ f ∈ t.fields, s.TakesInput f.type.typeName) ∧
        circularReferences s.inputTypes = [] := by
  rw [validateArguments_eq, hasErrors_dropRepeated_iff fun _ => isError_inputFaults]
  simp only [inputFaults, List.append_eq_nil_iff, List.flatMap_eq_nil_iff,
    List.filterMap_eq_nil_iff, checkArgument, checkInputField, checkInput_eq_none_iff, and_assoc]

/-- The faults of fields and union members, before repeated ones are dropped. -/
def outputFaults (s : Schema) (d : NameDomains) : List Diagnostic :=
  s.baseTypes.flatMap (checkBase d) ++ s.extensions.flatMap fun e =>
    e.fields.filterMap fun f => checkOutput d e.target f.field f.field.location

theorem validateOutputs_eq (s : Schema) (d : NameDomains) :
    validateOutputs s d = dropRepeated (outputFaults s d) := rfl

theorem isError_outputFaults {s : Schema} {domains : NameDomains} {d : Diagnostic}
    (h : d ∈ outputFaults s domains) : d.isError = true := by
  simp only [outputFaults, checkBase, List.mem_append, List.mem_flatMap, List.mem_filterMap] at h
  rcases h with ⟨t, -, h | ⟨m, -, h⟩⟩ | ⟨e, -, f, -, h⟩
  · split at h
    · obtain ⟨f, -, h⟩ := List.mem_filterMap.mp h
      exact isError_of_checkOutput h
    · cases h
  · exact isError_of_checkMember h
  · exact isError_of_checkOutput h

/-- Fields and union members without faults name what can be read. -/
theorem validateOutputs_ok {s : Schema}
    (h : hasErrors (validateOutputs s (.ofSchema s)) = false) :
    (∀ t ∈ s.baseTypes, t.kind = .object ∨ t.kind = .interface →
        ∀ f ∈ t.fields, s.GivesOutput f.type.typeName) ∧
      (∀ t ∈ s.baseTypes, ∀ m ∈ t.unionMembers,
        ∃ kind, kind.isComposite = true ∧ s.Defines kind m) ∧
      ∀ e ∈ s.extensions, ∀ f ∈ e.fields, s.GivesOutput f.field.type.typeName := by
  have hnil := (hasErrors_dropRepeated_iff fun d => isError_outputFaults).mp h
  simp only [outputFaults, checkBase, List.append_eq_nil_iff, List.flatMap_eq_nil_iff,
    List.filterMap_eq_nil_iff] at hnil
  obtain ⟨hbase, hextended⟩ := hnil
  refine ⟨fun t ht hkind f hf => ?_, fun t ht m hm => ?_, fun e he f hf => ?_⟩
  · have hfields := (hbase t ht).1
    rw [if_pos hkind, List.filterMap_eq_nil_iff] at hfields
    exact checkOutput_eq_none_iff.mp (hfields f hf)
  · exact checkMember_eq_none_iff.mp ((hbase t ht).2 m hm)
  · exact checkOutput_eq_none_iff.mp (hextended e he f hf)

end SchemaCompiler.GraphQL

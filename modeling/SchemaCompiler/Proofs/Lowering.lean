import SchemaCompiler.GraphQL.Types

/-!
# What lowering makes

Lowering runs over a growing list of types made for written-out objects, with a list of what was
reported. `Keeps I m Q` says that a run of `m` keeps `I` of that state and ends in a result with `Q`;
it is closed under the operations of lowering, so one statement per function says what all its runs
do. `Ensures P m Q` is the case where `I` says that all types have `P`. `Route` lists the runs that
an exported type can be lowered by, and what is said of it goes by these cases. From these:

* no field of a type has arguments;
* an input object has the name of one;
* a type that is made for a written-out object is an object or an input object without interfaces;
* an exported type keeps its name, which is never that of a built-in scalar;
* no two types have one name.
-/

namespace SchemaCompiler.GraphQL

/-- No field of a list takes arguments. -/
def Bare (fields : List Field) : Prop := ∀ f ∈ fields, f.args = []

theorem bare_nil : Bare [] := fun _ h => by cases h

theorem bare_cons {f : Field} {fs : List Field} (hf : f.args = []) (hfs : Bare fs) :
    Bare (f :: fs) := by
  intro g hg
  rcases List.mem_cons.mp hg with rfl | hg
  · exact hf
  · exact hfs g hg

/-- What holds of every type that lowering makes. -/
structure TypeDef.Lowered (t : TypeDef) : Prop where
  bare : Bare t.fields
  inputName : t.kind = .inputObject → isInputName t.name = true

/-- What holds of every type that is made for a written-out object. -/
structure TypeDef.Made (t : TypeDef) : Prop where
  kind : t.kind = .object ∨ t.kind = .inputObject
  interfaces : t.interfaces = []

theorem isInputName_iff (name : String) :
    isInputName name = true ↔ inputSuffix.toList <:+ name.toList := by
  rw [isInputName, String.endsWith, String.Slice.endsWith_string_iff, String.copy_toSlice]

theorem isInputName_append (hint : String) : isInputName (hint ++ inputSuffix) = true := by
  rw [isInputName_iff, String.toList_append]
  exact List.suffix_append _ _

namespace Lowering

variable {α β : Type} {P : TypeDef → Prop}

/-! ## Running -/

/-- Every run of `m` keeps `I` of the state, and ends in a result with `Q`. -/
def Keeps (I : Synthesis → Prop) (m : Lowering α) (Q : α → Prop) : Prop :=
  ∀ s : Synthesis, I s → I (m.run s).2 ∧ Q (m.run s).1

section Keeps

variable {I : Synthesis → Prop}

theorem Keeps.pure {Q : α → Prop} {a : α} (h : Q a) : Keeps I (pure a) Q :=
  fun _ hs => ⟨hs, h⟩

theorem Keeps.bind {Q : α → Prop} {R : β → Prop} {m : Lowering α} {f : α → Lowering β}
    (hm : Keeps I m Q) (hf : ∀ a, Q a → Keeps I (f a) R) : Keeps I (m >>= f) R := by
  intro s hs
  obtain ⟨hs', ha⟩ := hm s hs
  exact hf _ ha _ hs'

end Keeps

/-! ## Shapes and fields -/

/-- The type made for an object that is written out on one side. -/
def inlineType (side : Side) (hint : String) (location : Option SourceLocation)
    (fields : List Field) : TypeDef :=
  { name := (inlineName side hint).1, kind := (inlineName side hint).2, fields,
    sourceFile := location.map (·.file), location }

/-- Types other than lists are named after their shapes. -/
theorem fieldType_of_not_isArray {shape : TypeShape} (h : isArray shape = false) (side : Side)
    (hint : String) (location : Option SourceLocation) (optional nullable : Bool) :
    fieldType side hint location optional ⟨shape, nullable⟩ =
      typeName side hint location shape >>= fun name =>
        pure (.named name (nullable || optional)) := by
  cases shape <;> first | rfl | cases h

/-- The codes of what is reported of the type of a field. -/
def shapeCodes : List Code :=
  [.unsupportedSyntax, .duplicateTypeName, .outputOnlyScalarInInput, .inputOnlyScalarInOutput]

/-- What the type of a field can do to the state keeps `I`: faults are reported, and types are added
for written-out objects, each under a name that is new. -/
structure Stable (I : Synthesis → Prop) : Prop where
  report : ∀ {s : Synthesis} {d : Diagnostic}, I s → d.code ∈ shapeCodes →
    I { s with diagnostics := s.diagnostics ++ [d] }
  add : ∀ {s : Synthesis} {side : Side} {hint : String} {location : Option SourceLocation}
    {fields : List Field}, I s → Bare fields →
      s.types.find? (·.name == (inlineType side hint location fields).name) = none →
        I { s with types := s.types ++ [inlineType side hint location fields] }

section Stable

variable {I : Synthesis → Prop}

theorem keeps_report (hI : Stable I) {code : Code} (hcode : code ∈ shapeCodes) (message : String)
    (location : Option SourceLocation) :
    Keeps I (report (.error code message location)) fun _ => True :=
  fun _ hs => ⟨hI.report hs hcode, trivial⟩

theorem keeps_keep (hI : Stable I) (side : Side) (hint : String) (location : Option SourceLocation)
    {fields : List Field} (hfields : Bare fields) :
    Keeps I (keep (inlineType side hint location fields)) fun _ => True := by
  intro s hs
  refine ⟨?_, trivial⟩
  rw [keep, StateT.run_bind]
  cases hfind : s.types.find? (·.name == (inlineType side hint location fields).name) with
  | none =>
    simp only [StateT.run_get, pure_bind, hfind]
    exact hI.add hs hfields hfind
  | some existing =>
    simp only [StateT.run_get, pure_bind, hfind]
    split
    · exact hI.report hs (show Code.duplicateTypeName ∈ shapeCodes by decide)
    · exact hs

theorem keeps_checkSide (hI : Stable I) (side : Side) (location : Option SourceLocation)
    (use : ScalarUse) : Keeps I (checkSide side location use) fun _ => True := by
  unfold checkSide
  split
  · exact keeps_report hI (by decide) _ _
  · exact keeps_report hI (by decide) _ _
  · exact Keeps.pure trivial

mutual

theorem typeName_keeps (hI : Stable I) (side : Side) (hint : String)
    (location : Option SourceLocation) :
    ∀ shape, Keeps I (typeName side hint location shape) fun _ => True
  | .primitive _ => Keeps.pure trivial
  | .literal _ => Keeps.pure trivial
  | .reference _ => Keeps.pure trivial
  | .scalar use => (keeps_checkSide hI side location use).bind fun _ _ => Keeps.pure trivial
  | .array element => elementName_keeps hI side hint location element
  | .union members =>
    (keeps_report hI (by decide) _ _).bind fun _ _ =>
      firstName_keeps hI side hint location members
  | .inlineObject properties =>
    (fieldsOf_keeps hI side (inlineName side hint).1 properties).bind fun _ hfields =>
      (keeps_keep hI side hint location hfields).bind fun _ _ => Keeps.pure trivial

theorem elementName_keeps (hI : Stable I) (side : Side) (hint : String)
    (location : Option SourceLocation) :
    ∀ t, Keeps I (elementName side hint location t) fun _ => True
  | ⟨shape, _⟩ => typeName_keeps hI side hint location shape

theorem firstName_keeps (hI : Stable I) (side : Side) (hint : String)
    (location : Option SourceLocation) :
    ∀ members, Keeps I (firstName side hint location members) fun _ => True
  | [] => Keeps.pure trivial
  | t :: _ => elementName_keeps hI side hint location t

theorem fieldType_keeps (hI : Stable I) (side : Side) (hint : String)
    (location : Option SourceLocation) (optional : Bool) :
    ∀ t, Keeps I (fieldType side hint location optional t) fun _ => True
  | ⟨shape, _⟩ => by
    have hname := typeName_keeps hI side hint location shape
    cases harray : isArray shape with
    | false =>
      rw [fieldType_of_not_isArray harray]
      exact hname.bind fun _ _ => Keeps.pure trivial
    | true =>
      -- the element is named as the array is, after a complaint about a list of lists
      cases shape <;> cases harray
      rw [fieldType]
      split
      · refine (keeps_report hI (by decide) _ _).bind fun _ _ => ?_
        exact hname.bind fun _ _ => Keeps.pure trivial
      · exact hname.bind fun _ _ => Keeps.pure trivial

theorem fieldOf_keeps (hI : Stable I) (side : Side) (owner : String) :
    ∀ p, Keeps I (fieldOf side owner p) fun f => f.args = []
  | ⟨name, type, optional, _, _, location⟩ =>
    (fieldType_keeps hI side (fieldHint owner name) location optional type).bind fun _ _ =>
      Keeps.pure rfl

theorem fieldsOf_keeps (hI : Stable I) (side : Side) (owner : String) :
    ∀ properties, Keeps I (fieldsOf side owner properties) Bare
  | [] => Keeps.pure bare_nil
  | p :: rest =>
    (fieldOf_keeps hI side owner p).bind fun _ hf =>
      (fieldsOf_keeps hI side owner rest).bind fun _ hfs => Keeps.pure (bare_cons hf hfs)

end

end Stable

/-- Only faults with the codes of field types are reported. -/
def ReportsShapes (s : Synthesis) : Prop := ∀ d ∈ s.diagnostics, d.code ∈ shapeCodes

theorem stable_reportsShapes : Stable ReportsShapes where
  report hs hd e he := by
    rcases List.mem_append.mp he with he | he
    · exact hs e he
    · rw [List.mem_singleton] at he
      exact he ▸ hd
  add hs _ _ := hs

/-! ## Types that are made -/

/-- Every run of `m` makes only types with `P`, and ends in a result with `Q`. -/
def Ensures (P : TypeDef → Prop) (m : Lowering α) (Q : α → Prop) : Prop :=
  ∀ s : Synthesis, (∀ t ∈ s.types, P t) → (∀ t ∈ (m.run s).2.types, P t) ∧ Q (m.run s).1

theorem Ensures.pure {Q : α → Prop} {a : α} (h : Q a) : Ensures P (pure a) Q :=
  Keeps.pure h

theorem Ensures.bind {Q : α → Prop} {R : β → Prop} {m : Lowering α} {f : α → Lowering β}
    (hm : Ensures P m Q) (hf : ∀ a, Q a → Ensures P (f a) R) : Ensures P (m >>= f) R :=
  Keeps.bind hm hf

theorem ensures_report (d : Diagnostic) : Ensures P (report d) fun _ => True :=
  fun _ hs => ⟨hs, trivial⟩

theorem inlineType_lowered (side : Side) (hint : String) (location : Option SourceLocation)
    {fields : List Field} (h : Bare fields) : (inlineType side hint location fields).Lowered := by
  refine ⟨h, fun hkind => ?_⟩
  cases side with
  | output => cases hkind
  | input => exact isInputName_append hint

/-- `P` holds of every type that can be made for a written-out object. -/
def AdmitsInline (P : TypeDef → Prop) : Prop :=
  ∀ side hint location fields, Bare fields → P (inlineType side hint location fields)

theorem admitsInline_lowered : AdmitsInline TypeDef.Lowered :=
  fun side hint location _ h => inlineType_lowered side hint location h

theorem admitsInline_made : AdmitsInline TypeDef.Made := by
  intro side hint location fields _
  refine ⟨?_, rfl⟩
  cases side with
  | output => exact Or.inl rfl
  | input => exact Or.inr rfl

theorem stable_types (hP : AdmitsInline P) : Stable fun s => ∀ t ∈ s.types, P t where
  report hs _ := hs
  add hs hfields _ t ht := by
    rcases List.mem_append.mp ht with ht | ht
    · exact hs t ht
    · rw [List.mem_singleton] at ht
      exact ht ▸ hP _ _ _ _ hfields

theorem fieldOf_ensures (hP : AdmitsInline P) (side : Side) (owner : String)
    (p : Property (Nullable TypeShape)) : Ensures P (fieldOf side owner p) fun f => f.args = [] :=
  fieldOf_keeps (stable_types hP) side owner p

theorem fieldsOf_ensures (hP : AdmitsInline P) (side : Side) (owner : String)
    (properties : List (Property (Nullable TypeShape))) :
    Ensures P (fieldsOf side owner properties) Bare :=
  fieldsOf_keeps (stable_types hP) side owner properties

/-! ## Exported types -/

/-- What lowering an exported type comes down to, by its name and its kind. -/
inductive Route (t : ExportedType) : Lowering (Option TypeDef) → Prop where
  | inputObject (hname : isInputName t.name = true) (hkind : t.kind = .interface ∨ t.kind = .object) :
      Route t (inputObject t)
  | object (hname : isInputName t.name = false) (hkind : t.kind = .interface ∨ t.kind = .object) :
      Route t (outputObject t .object)
  | graphqlInterface (hname : isInputName t.name = false) (hkind : t.kind = .graphqlInterface) :
      Route t (outputObject t .interface)
  | enum (hname : isInputName t.name = false) (hkind : t.kind = .enum) : Route t (enumType t)
  | oneOf (hname : isInputName t.name = true) (hkind : t.kind = .union) : Route t (oneOfInput t)
  | union (hname : isInputName t.name = false) (hkind : t.kind = .union)
      (hmembers : t.inlineMembers = []) :
      Route t (pure (some { frame t .union with unionMembers := t.unionMembers }))
  | invalidInput (hname : isInputName t.name = true)
      (hkind : t.kind = .graphqlInterface ∨ t.kind = .enum ∨ t.kind = .union ∧ t.inlineMembers = []) :
      Route t (invalidInput t)
  | inlineUnion (hname : isInputName t.name = false) (hkind : t.kind = .union)
      (hmembers : t.inlineMembers ≠ []) : Route t (inlineUnionOutput t)

theorem typeDef_route (t : ExportedType) : Route t (typeDef t) := by
  rw [typeDef]
  cases hname : isInputName t.name with
  | true =>
    cases hkind : t.kind with
    | interface => exact .inputObject hname (Or.inl hkind)
    | object => exact .inputObject hname (Or.inr hkind)
    | graphqlInterface => exact .invalidInput hname (Or.inl hkind)
    | enum => exact .invalidInput hname (Or.inr (Or.inl hkind))
    | union =>
      simp only [if_true]
      split
      · exact .oneOf hname hkind
      · rename_i hnone
        exact .invalidInput hname (Or.inr (Or.inr ⟨hkind, by simpa using hnone⟩))
  | false =>
    cases hkind : t.kind with
    | interface => exact .object hname (Or.inl hkind)
    | object => exact .object hname (Or.inr hkind)
    | graphqlInterface => exact .graphqlInterface hname hkind
    | enum => exact .enum hname hkind
    | union =>
      simp only [Bool.false_eq_true, if_false]
      split
      · rename_i hsome
        exact .inlineUnion hname hkind (by simpa using hsome)
      · rename_i hnone
        exact .union hname hkind (by simpa using hnone)

/-- What an exported type becomes, if it becomes anything. -/
def Represents (t : ExportedType) (result : Option TypeDef) : Prop :=
  ∀ d, result = some d → d.name = t.name ∧ d.Lowered

theorem represents_none (t : ExportedType) : Represents t none := by
  intro d hd
  cases hd

theorem represents_some {t : ExportedType} {d : TypeDef} (hname : d.name = t.name)
    (hd : d.Lowered) : Represents t (some d) := by
  intro e he
  cases he
  exact ⟨hname, hd⟩

theorem invalidInput_ensures (t : ExportedType) : Ensures P (invalidInput t) (Represents t) :=
  (ensures_report _).bind fun _ _ => Ensures.pure (represents_none t)

theorem inlineUnionOutput_ensures (t : ExportedType) :
    Ensures P (inlineUnionOutput t) (Represents t) :=
  (ensures_report _).bind fun _ _ => Ensures.pure (represents_none t)

theorem inputObject_ensures (hP : AdmitsInline P) (t : ExportedType)
    (hname : isInputName t.name = true) : Ensures P (inputObject t) (Represents t) := by
  refine (fieldsOf_ensures hP .input t.name t.fields).bind fun fields hfields => ?_
  exact Ensures.pure (represents_some rfl ⟨hfields, fun _ => hname⟩)

theorem outputObject_ensures (hP : AdmitsInline P) (t : ExportedType) {kind : Kind}
    (hkind : kind ≠ .inputObject) : Ensures P (outputObject t kind) (Represents t) := by
  refine (fieldsOf_ensures hP .output t.name t.fields).bind fun fields hfields => ?_
  exact Ensures.pure (represents_some rfl ⟨hfields, fun h => absurd h hkind⟩)

theorem enumValues_ensures (t : ExportedType) (members : List EnumLiteral) :
    Ensures P (enumValues t members) fun _ => True := by
  induction members with
  | nil => exact Ensures.pure trivial
  | cons m rest ih =>
    rw [enumValues]
    split
    · exact ih.bind fun _ _ => Ensures.pure trivial
    · exact (ensures_report _).bind fun _ _ => ih

theorem enumType_ensures (t : ExportedType) : Ensures P (enumType t) (Represents t) := by
  refine (enumValues_ensures t t.enumMembers).bind fun values _ => ?_
  exact Ensures.pure (represents_some rfl ⟨bare_nil, fun h => by cases h⟩)

theorem oneOfFields_ensures (hP : AdmitsInline P) (t : ExportedType)
    (members : List (List SchemaCompiler.Field)) : Ensures P (oneOfFields t members) Bare := by
  fun_induction oneOfFields t members with
  | case1 => exact Ensures.pure bare_nil
  | case2 rest p ih =>
    refine (fieldOf_ensures hP .input t.name p).bind fun f hf => ?_
    exact ih.bind fun fs hfs => Ensures.pure (bare_cons hf hfs)
  | case3 rest other _ ih => exact (ensures_report _).bind fun _ _ => ih

theorem oneOfInput_ensures (hP : AdmitsInline P) (t : ExportedType)
    (hname : isInputName t.name = true) : Ensures P (oneOfInput t) (Represents t) := by
  refine (oneOfFields_ensures hP t t.inlineMembers).bind fun fields hfields => ?_
  exact Ensures.pure (represents_some rfl ⟨hfields, fun _ => hname⟩)

theorem Route.ensures (hP : AdmitsInline P) {t : ExportedType} {m : Lowering (Option TypeDef)}
    (h : Route t m) : Ensures P m (Represents t) := by
  cases h with
  | inputObject hname hkind => exact inputObject_ensures hP t hname
  | object hname hkind => exact outputObject_ensures hP t (by decide)
  | graphqlInterface hname hkind => exact outputObject_ensures hP t (by decide)
  | enum hname hkind => exact enumType_ensures t
  | oneOf hname hkind => exact oneOfInput_ensures hP t hname
  | union hname hkind hmembers =>
    exact Ensures.pure (represents_some rfl ⟨bare_nil, fun h => by cases h⟩)
  | invalidInput => exact invalidInput_ensures t
  | inlineUnion => exact inlineUnionOutput_ensures t

/-- What holds of every type that a declaration became. -/
def Declared (ds : List TypeDef) : Prop :=
  ∀ d ∈ ds, d.Lowered ∧ isBuiltinScalar d.name = false

theorem typeDefs_ensures (hP : AdmitsInline P) (types : List ExportedType) {done : List TypeDef}
    (hdone : Declared done) : Ensures P (typeDefs done types) Declared := by
  induction types generalizing done with
  | nil => exact Ensures.pure hdone
  | cons t rest ih =>
    rw [typeDefs]
    split
    · exact (ensures_report _).bind fun _ _ => ih hdone
    · rename_i hbuiltin
      split
      · exact (ensures_report _).bind fun _ _ => ih hdone
      · refine ((typeDef_route t).ensures hP).bind fun result hresult => ?_
        cases result with
        | none => exact ih hdone
        | some d =>
          apply ih
          intro e he
          rcases List.mem_append.mp he with he | he
          · exact hdone e he
          · rw [List.mem_singleton] at he
            subst he
            obtain ⟨hname, hlowered⟩ := hresult e rfl
            rw [hname]
            exact ⟨hlowered, Bool.eq_false_iff.mpr hbuiltin⟩

/-! ## Names of types -/

theorem nodup_snoc {types : List TypeDef} {t : TypeDef} (h : (types.map (·.name)).Nodup)
    (hnew : ∀ u ∈ types, u.name ≠ t.name) : ((types ++ [t]).map (·.name)).Nodup := by
  rw [List.map_append, List.nodup_append]
  exact ⟨h, by simp, by simpa using hnew⟩

/-- No name is declared twice. -/
theorem typeDefs_nodup (types : List ExportedType) {done : List TypeDef}
    (hdone : (done.map (·.name)).Nodup) :
    Ensures (fun _ => True) (typeDefs done types) fun result => (result.map (·.name)).Nodup := by
  induction types generalizing done with
  | nil => exact .pure hdone
  | cons t rest ih =>
    rw [typeDefs]
    split
    · exact (ensures_report _).bind fun _ _ => ih hdone
    · split
      · exact (ensures_report _).bind fun _ _ => ih hdone
      · rename_i hnew
        refine ((typeDef_route t).ensures fun _ _ _ _ _ => trivial).bind fun result hresult => ?_
        cases result with
        | none => exact ih hdone
        | some d => exact ih (nodup_snoc hdone (by simpa [(hresult d rfl).1] using hnew))

/-- Types are made under different names. -/
theorem stable_nodup : Stable fun s => (s.types.map (·.name)).Nodup where
  report hs _ := hs
  add hs _ hnew := nodup_snoc hs (by simpa using hnew)

end Lowering

/-! ## All exported types -/

/-- The types made for objects that are written out in exported types. -/
def inlineTypes (types : List ExportedType) : List TypeDef :=
  ((Lowering.typeDefs [] types).run {}).2.types

theorem mem_addInline {types more : List TypeDef} {t : TypeDef}
    (h : t ∈ (addInline types more).value) : t ∈ types ∨ t ∈ more := by
  induction more generalizing types with
  | nil => exact Or.inl h
  | cons first rest ih =>
    rw [addInline] at h
    split at h
    · rcases ih h with h | h
      · exact Or.inl h
      · exact Or.inr (List.mem_cons_of_mem _ h)
    · rcases ih h with h | h
      · rcases List.mem_append.mp h with h | h
        · exact Or.inl h
        · rw [List.mem_singleton] at h
          exact Or.inr (h ▸ List.mem_cons_self)
      · exact Or.inr (List.mem_cons_of_mem _ h)

theorem inlineTypes_admit {P : TypeDef → Prop} (hP : Lowering.AdmitsInline P)
    (types : List ExportedType) : ∀ t ∈ inlineTypes types, P t :=
  (Lowering.typeDefs_ensures hP types (fun _ h => by cases h) {} (fun _ h => by cases h)).1

theorem inlineTypes_lowered (types : List ExportedType) : ∀ t ∈ inlineTypes types, t.Lowered :=
  inlineTypes_admit Lowering.admitsInline_lowered types

/-- A type of the schema comes from a declaration or from a written-out object. -/
theorem lowerTypes_cases {types : List ExportedType} {t : TypeDef}
    (h : t ∈ (lowerTypes types).value) :
    (t.Lowered ∧ isBuiltinScalar t.name = false) ∨ t ∈ inlineTypes types := by
  rcases mem_addInline h with h | h
  · exact Or.inl ((Lowering.typeDefs_ensures Lowering.admitsInline_lowered types
      (fun _ h => by cases h) {} (fun _ h => by cases h)).2 t h)
  · exact Or.inr h

theorem lowerTypes_lowered (types : List ExportedType) :
    ∀ t ∈ (lowerTypes types).value, t.Lowered := by
  intro t ht
  rcases lowerTypes_cases ht with h | h
  · exact h.1
  · exact inlineTypes_lowered types t h

theorem addInline_nodup {types more : List TypeDef} (h : (types.map (·.name)).Nodup) :
    ((addInline types more).value.map (·.name)).Nodup := by
  induction more generalizing types with
  | nil => exact h
  | cons t rest ih =>
    rw [addInline]
    split
    · exact ih h
    · rename_i hnew
      exact ih (Lowering.nodup_snoc h (by simpa using hnew))

/-- No two schema types of exported types have one name. -/
theorem lowerTypes_nodup (types : List ExportedType) :
    ((lowerTypes types).value.map (·.name)).Nodup := by
  have hempty : (([] : List TypeDef).map (·.name)).Nodup := List.nodup_nil
  exact addInline_nodup (Lowering.typeDefs_nodup types hempty {} fun _ _ => trivial).2

end SchemaCompiler.GraphQL

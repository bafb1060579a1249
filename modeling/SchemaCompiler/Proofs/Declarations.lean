import SchemaCompiler.Proofs.Diagnostics
import SchemaCompiler.Proofs.Lists
import SchemaCompiler.Proofs.Lowering
import SchemaCompiler.Proofs.Scalars

/-!
# What exported types become without errors

Lowering goes on after an error and leaves out what it refused, so the types that it ends with say
little on their own. `Yields m Q` says that a run of `m` that ends without errors started without
errors and ends in a result with `Q`. A run over exported types without errors yields one type for
each of them, in order, and `Becomes` says what that type keeps: the name, the names of the fields
and the interfaces, while the kind follows from the name and from what was exported. It also says
that no scalar stands in it on a side that it is not bound to.
-/

namespace SchemaCompiler.GraphQL

/-! ## What is kept -/

/-- The kind of schema type that an exported type becomes. -/
def schemaKind (t : ExportedType) : Kind :=
  match t.kind with
  | .interface => if isInputName t.name then .inputObject else .object
  | .object => if isInputName t.name then .inputObject else .object
  | .graphqlInterface => .interface
  | .enum => .enum
  | .union => if isInputName t.name then .inputObject else .union

/-- The side that the fields of an exported type are on. -/
def sideOf (t : ExportedType) : Side := if isInputName t.name then .input else .output

theorem sideOf_input {t : ExportedType} (hname : isInputName t.name = true) : sideOf t = .input := by
  rw [sideOf, if_pos hname]

theorem sideOf_output {t : ExportedType} (hname : isInputName t.name = false) :
    sideOf t = .output := by
  simp [sideOf, hname]

def asOptional (p : SchemaCompiler.Field) : SchemaCompiler.Field := { p with optional := true }

/-- The properties that become the fields of an exported type. Of the objects that are written out
in a union one is given, so none of their properties is required. -/
def fieldProperties (t : ExportedType) : List SchemaCompiler.Field :=
  match t.kind with
  | .interface => t.fields
  | .object => t.fields
  | .graphqlInterface => t.fields
  | .enum => []
  | .union => t.inlineMembers.flatten.map asOptional

/-- The names of the fields that an exported type has in a schema. A union that becomes an input
object has those of the objects that are written out in it. -/
def fieldNames (t : ExportedType) : List String :=
  match t.kind with
  | .interface => t.fields.map (·.name)
  | .object => t.fields.map (·.name)
  | .graphqlInterface => t.fields.map (·.name)
  | .enum => []
  | .union =>
    if isInputName t.name then t.inlineMembers.flatMap fun member => member.map (·.name) else []

/-- The interfaces that an exported type implements in a schema. Input objects implement none. -/
def implemented (t : ExportedType) : List String :=
  match t.kind with
  | .interface => if isInputName t.name then [] else t.interfaces
  | .object => if isInputName t.name then [] else t.interfaces
  | .graphqlInterface => t.interfaces
  | .enum => []
  | .union => []

/-- Types that have fields are objects, interfaces and input objects. -/
theorem schemaKind_of_fieldNames {t : ExportedType} {name : String} (h : name ∈ fieldNames t) :
    schemaKind t = .object ∨ schemaKind t = .interface ∨ schemaKind t = .inputObject := by
  unfold fieldNames at h
  unfold schemaKind
  cases hkind : t.kind <;> cases hname : isInputName t.name <;> simp_all

/-- Types that implement something are objects and interfaces. -/
theorem schemaKind_of_implemented {t : ExportedType} {name : String} (h : name ∈ implemented t) :
    schemaKind t = .object ∨ schemaKind t = .interface := by
  unfold implemented at h
  unfold schemaKind
  cases hkind : t.kind <;> cases hname : isInputName t.name <;> simp_all

mutual

/-- The scalars in a shape, at any depth. -/
def scalarsIn : TypeShape → List ScalarUse
  | .scalar use => [use]
  | .array element => scalarsInElement element
  | .union members => scalarsInMembers members
  | .inlineObject properties => scalarsInFields properties
  | _ => []

def scalarsInElement : Nullable TypeShape → List ScalarUse
  | ⟨shape, _⟩ => scalarsIn shape

def scalarsInMembers : List (Nullable TypeShape) → List ScalarUse
  | [] => []
  | t :: rest => scalarsInElement t ++ scalarsInMembers rest

def scalarsInField : Property (Nullable TypeShape) → List ScalarUse
  | ⟨_, type, _, _, _, _⟩ => scalarsInElement type

def scalarsInFields : List (Property (Nullable TypeShape)) → List ScalarUse
  | [] => []
  | p :: rest => scalarsInField p ++ scalarsInFields rest

end

theorem scalarsInField_asOptional (p : SchemaCompiler.Field) :
    scalarsInField (asOptional p) = scalarsInField p := by
  cases p
  rfl

/-- All scalars may be used on a side. -/
def Admitted (side : Side) (uses : List ScalarUse) : Prop :=
  ∀ use ∈ uses, admits use.only side = true

theorem Admitted.nil {side : Side} : Admitted side [] := List.forall_mem_nil _

theorem Admitted.append {side : Side} {uses more : List ScalarUse} (h : Admitted side uses)
    (h' : Admitted side more) : Admitted side (uses ++ more) :=
  List.forall_mem_append.mpr ⟨h, h'⟩

/-- A schema type is what an exported type becomes. -/
structure Becomes (t : ExportedType) (d : TypeDef) : Prop where
  name : d.name = t.name
  kind : d.kind = schemaKind t
  fields : d.fields.map (·.name) = fieldNames t
  interfaces : d.interfaces = implemented t
  values : ∀ name ∈ d.enumValues.map (·.name), isName name = true
  scalars : Admitted (sideOf t) (scalarsInFields (fieldProperties t))

namespace Lowering

variable {α β : Type}

/-! ## Runs without errors -/

/-- A run of `m` that ends without errors started without errors, and its result has `Q`. -/
def Yields (m : Lowering α) (Q : α → Prop) : Prop :=
  ∀ s : Synthesis, hasErrors (m.run s).2.diagnostics = false →
    hasErrors s.diagnostics = false ∧ Q (m.run s).1

theorem Yields.pure {Q : α → Prop} {a : α} (h : Q a) : Yields (pure a) Q :=
  fun _ hs => ⟨hs, h⟩

/-- What the first part yields is known where the second part ends, for only then it is known that
the first part had no errors. -/
theorem Yields.bind {Q : α → Prop} {R : β → Prop} {m : Lowering α} {f : α → Lowering β}
    (hm : Yields m Q) (hf : ∀ a, Yields (f a) fun b => Q a → R b) : Yields (m >>= f) R := by
  intro s h
  obtain ⟨hmiddle, hresult⟩ := hf (m.run s).1 (m.run s).2 h
  obtain ⟨hstart, ha⟩ := hm s hmiddle
  exact ⟨hstart, hresult ha⟩

theorem Yields.mono {Q R : α → Prop} {m : Lowering α} (h : Yields m Q) (himp : ∀ a, Q a → R a) :
    Yields m R :=
  fun s hs => ⟨(h s hs).1, himp _ (h s hs).2⟩

/-- Nothing ends without errors behind a reported error. -/
theorem yields_report {d : Diagnostic} (hd : d.isError = true) :
    Yields (report d) fun _ => False := by
  intro s h
  have happend : hasErrors (s.diagnostics ++ [d]) = false := h
  simp [hasErrors, hd] at happend

theorem Yields.behind_report {Q R : β → Prop} {m : Lowering β} (h : Yields m Q) {d : Diagnostic}
    (hd : d.isError = true) : Yields (report d >>= fun _ => m) R :=
  (yields_report hd).bind fun _ => h.mono fun _ _ hfalse => hfalse.elim

theorem yields_keep (t : TypeDef) : Yields (keep t) fun _ => True := by
  intro s h
  refine ⟨?_, trivial⟩
  rw [keep, StateT.run_bind] at h
  cases hfind : s.types.find? (·.name == t.name) with
  | none =>
    simp only [StateT.run_get, pure_bind, hfind] at h
    exact h
  | some existing =>
    simp only [StateT.run_get, pure_bind, hfind] at h
    split at h
    · exact absurd (yields_report rfl s h).2 id
    · exact h

theorem yields_checkSide (side : Side) (location : Option SourceLocation) (use : ScalarUse) :
    Yields (checkSide side location use) fun _ => admits use.only side = true := by
  obtain ⟨scalar, typeName, base, custom, only⟩ := use
  rcases side with _ | _ <;> rcases only with _ | _ | _
  case input.some.output => exact (yields_report rfl).mono fun _ h => h.elim
  case output.some.input => exact (yields_report rfl).mono fun _ h => h.elim
  all_goals exact .pure rfl

/-! ## Shapes and fields -/

mutual

theorem typeName_yields (side : Side) (hint : String) (location : Option SourceLocation) :
    ∀ shape, Yields (typeName side hint location shape) fun _ => Admitted side (scalarsIn shape)
  | .primitive _ => .pure .nil
  | .literal _ => .pure .nil
  | .reference _ => .pure .nil
  | .scalar use =>
    (yields_checkSide side location use).bind fun _ => .pure fun h => by
      simpa [Admitted, scalarsIn] using h
  | .array element => elementName_yields side hint location element
  | .union members => (firstName_yields side hint location members).behind_report rfl
  | .inlineObject properties =>
    (fieldsOf_yields side (inlineName side hint).1 properties).bind fun _ =>
      (yields_keep _).bind fun _ => .pure fun _ h => h.2

theorem elementName_yields (side : Side) (hint : String) (location : Option SourceLocation) :
    ∀ t, Yields (elementName side hint location t) fun _ => Admitted side (scalarsInElement t)
  | ⟨shape, _⟩ => typeName_yields side hint location shape

theorem firstName_yields (side : Side) (hint : String) (location : Option SourceLocation) :
    ∀ members, Yields (firstName side hint location members) fun _ => True
  | [] => .pure trivial
  | t :: _ => (elementName_yields side hint location t).mono fun _ _ => trivial

theorem fieldType_yields (side : Side) (hint : String) (location : Option SourceLocation)
    (optional : Bool) :
    ∀ t, Yields (fieldType side hint location optional t) fun _ =>
      Admitted side (scalarsInElement t)
  | ⟨shape, _⟩ => by
    have hname := typeName_yields side hint location shape
    cases harray : isArray shape with
    | false =>
      rw [fieldType_of_not_isArray harray]
      exact hname.bind fun _ => .pure id
    | true =>
      cases shape <;> cases harray
      rw [fieldType]
      split
      · exact (hname.bind fun _ => .pure id).behind_report rfl
      · exact hname.bind fun _ => .pure id

theorem fieldOf_yields (side : Side) (owner : String) :
    ∀ p, Yields (fieldOf side owner p) fun f =>
      f.name = p.name ∧ Admitted side (scalarsInField p)
  | ⟨name, type, optional, _, _, location⟩ =>
    (fieldType_yields side (fieldHint owner name) location optional type).bind fun _ =>
      .pure fun h => ⟨rfl, h⟩

theorem fieldsOf_yields (side : Side) (owner : String) :
    ∀ properties, Yields (fieldsOf side owner properties) fun fields =>
      fields.map (·.name) = properties.map (·.name) ∧ Admitted side (scalarsInFields properties)
  | [] => .pure ⟨rfl, .nil⟩
  | p :: rest =>
    (fieldOf_yields side owner p).bind fun _ =>
      (fieldsOf_yields side owner rest).bind fun _ => .pure fun hrest hfirst => by
        refine ⟨?_, hfirst.2.append hrest.2⟩
        rw [List.map_cons, List.map_cons, hfirst.1, hrest.1]

end

/-! ## Exported types -/

/-- What an exported type becomes without errors. -/
def YieldsType (t : ExportedType) (m : Lowering (Option TypeDef)) : Prop :=
  Yields m fun result => ∃ d, result = some d ∧ Becomes t d

theorem invalidInput_refused (t : ExportedType) {Q : Option TypeDef → Prop} :
    Yields (invalidInput t) Q :=
  (yields_report rfl).bind fun _ => .pure fun h => h.elim

theorem inlineUnionOutput_refused (t : ExportedType) {Q : Option TypeDef → Prop} :
    Yields (inlineUnionOutput t) Q :=
  (yields_report rfl).bind fun _ => .pure fun h => h.elim

/-- The fields of an exported type are its own properties. -/
structure HasFields (t : ExportedType) : Prop where
  names : fieldNames t = t.fields.map (·.name)
  properties : fieldProperties t = t.fields

theorem hasFields {t : ExportedType} (hkind : t.kind ≠ .enum) (hunion : t.kind ≠ .union) :
    HasFields t := by
  constructor
  · cases h : t.kind <;> simp_all [fieldNames]
  · cases h : t.kind <;> simp_all [fieldProperties]

theorem inputObject_yields {t : ExportedType} (hkind : schemaKind t = .inputObject)
    (hside : sideOf t = .input) (hfields : HasFields t) (hnone : implemented t = []) :
    YieldsType t (inputObject t) := by
  refine (fieldsOf_yields .input t.name t.fields).bind fun fields => .pure fun h => ?_
  refine ⟨_, rfl, rfl, hkind.symm, h.1.trans hfields.names.symm, hnone.symm, by simp [frame], ?_⟩
  rw [hside, hfields.properties]
  exact h.2

theorem outputObject_yields {t : ExportedType} {kind : Kind} (hkind : schemaKind t = kind)
    (hside : sideOf t = .output) (hfields : HasFields t)
    (hinterfaces : implemented t = t.interfaces) : YieldsType t (outputObject t kind) := by
  refine (fieldsOf_yields .output t.name t.fields).bind fun fields => .pure fun h => ?_
  refine ⟨_, rfl, rfl, hkind.symm, h.1.trans hfields.names.symm, hinterfaces.symm,
    by simp [frame], ?_⟩
  rw [hside, hfields.properties]
  exact h.2

theorem enumValues_yields (t : ExportedType) (members : List EnumLiteral) :
    Yields (enumValues t members) fun values =>
      ∀ name ∈ values.map (·.name), isName name = true := by
  induction members with
  | nil => exact .pure (by simp)
  | cons m rest ih =>
    rw [enumValues]
    split
    · rename_i hname
      refine ih.bind fun values => .pure fun hvalues name hmem => ?_
      rcases List.mem_cons.mp hmem with rfl | hmem
      · exact hname
      · exact hvalues name hmem
    · exact ih.behind_report rfl

theorem enumType_yields {t : ExportedType} (hkind : t.kind = .enum) :
    YieldsType t (enumType t) := by
  refine (enumValues_yields t t.enumMembers).bind fun values => .pure fun h => ?_
  refine ⟨_, rfl, rfl, ?_, ?_, ?_, h, ?_⟩
  · simp [schemaKind, hkind, frame]
  · simp [fieldNames, hkind, frame]
  · simp [implemented, hkind, frame]
  · rw [fieldProperties, hkind]
    exact .nil

/-- A field that may be left out is the field of a property that may. -/
theorem fieldOf_asOptional (side : Side) (owner : String) (p : SchemaCompiler.Field) :
    (fieldOf side owner p >>= fun f => pure { f with type := { f.type with nullable := true } }) =
      fieldOf side owner (asOptional p) := by
  obtain ⟨name, ⟨shape, nullable⟩, optional, description, deprecated, location⟩ := p
  cases shape with
  | array element =>
    rw [asOptional, fieldOf, fieldOf, fieldType, fieldType]
    split <;> simp [FieldType.listOf]
  | _ => simp [asOptional, fieldOf, fieldType, FieldType.named]

theorem oneOfFields_cons (t : ExportedType) (p : SchemaCompiler.Field)
    (rest : List (List SchemaCompiler.Field)) :
    oneOfFields t ([p] :: rest) =
      fieldOf .input t.name (asOptional p) >>= fun f =>
        oneOfFields t rest >>= fun fs => pure (f :: fs) := by
  rw [oneOfFields, ← fieldOf_asOptional, bind_assoc]
  rfl

theorem oneOfFields_yields (t : ExportedType) (members : List (List SchemaCompiler.Field)) :
    Yields (oneOfFields t members) fun fields =>
      fields.map (·.name) = members.flatMap (fun member => member.map (·.name)) ∧
        Admitted .input (scalarsInFields (members.flatten.map asOptional)) := by
  fun_induction oneOfFields t members with
  | case1 => exact .pure ⟨rfl, .nil⟩
  | case2 rest p ih =>
    refine (fieldOf_yields .input t.name p).bind fun f => ih.bind fun fs => ?_
    refine .pure fun hrest hfirst => ⟨?_, ?_⟩
    · rw [List.map_cons, hrest.1]
      exact congrArg (· :: _) hfirst.1
    · rw [← scalarsInField_asOptional] at hfirst
      exact hfirst.2.append hrest.2
  | case3 rest other _ ih => exact ih.behind_report rfl

theorem oneOfInput_yields {t : ExportedType} (hkind : t.kind = .union)
    (hname : isInputName t.name = true) : YieldsType t (oneOfInput t) := by
  refine (oneOfFields_yields t t.inlineMembers).bind fun fields => .pure fun h => ?_
  refine ⟨_, rfl, rfl, ?_, ?_, ?_, by simp [frame], ?_⟩
  · simp [schemaKind, hname, hkind, frame]
  · simpa [fieldNames, hname, hkind] using h.1
  · simp [implemented, hkind, frame]
  · rw [sideOf_input hname, fieldProperties, hkind]
    exact h.2

theorem union_yields {t : ExportedType} (hkind : t.kind = .union)
    (hname : isInputName t.name = false) (hmembers : t.inlineMembers = []) :
    YieldsType t (pure (some { frame t .union with unionMembers := t.unionMembers })) := by
  refine .pure ⟨_, rfl, rfl, ?_, ?_, ?_, by simp [frame], ?_⟩
  · simp [schemaKind, hname, hkind, frame]
  · simp [fieldNames, hname, hkind, frame]
  · simp [implemented, hkind, frame]
  · rw [fieldProperties, hkind, hmembers]
    exact .nil

theorem Route.yields {t : ExportedType} {m : Lowering (Option TypeDef)} (h : Route t m) :
    YieldsType t m := by
  cases h with
  | inputObject hname hkind =>
    rcases hkind with hkind | hkind
    all_goals
      exact inputObject_yields (by simp [schemaKind, hname, hkind]) (sideOf_input hname)
        (hasFields (by simp [hkind]) (by simp [hkind])) (by simp [implemented, hname, hkind])
  | object hname hkind =>
    rcases hkind with hkind | hkind
    all_goals
      exact outputObject_yields (by simp [schemaKind, hname, hkind]) (sideOf_output hname)
        (hasFields (by simp [hkind]) (by simp [hkind])) (by simp [implemented, hname, hkind])
  | graphqlInterface hname hkind =>
    exact outputObject_yields (by simp [schemaKind, hkind]) (sideOf_output hname)
      (hasFields (by simp [hkind]) (by simp [hkind])) (by simp [implemented, hkind])
  | enum hname hkind => exact enumType_yields hkind
  | oneOf hname hkind => exact oneOfInput_yields hkind hname
  | union hname hkind hmembers => exact union_yields hkind hname hmembers
  | invalidInput => exact invalidInput_refused t
  | inlineUnion => exact inlineUnionOutput_refused t

/-- Without errors every exported type becomes one type, in order. -/
theorem typeDefs_yields (types : List ExportedType) (done : List TypeDef) :
    Yields (typeDefs done types) fun result =>
      ∃ declared, result = done ++ declared ∧ List.Forall₂ Becomes types declared := by
  induction types generalizing done with
  | nil => exact .pure ⟨[], (List.append_nil done).symm, .nil⟩
  | cons t rest ih =>
    rw [typeDefs]
    split
    · exact (ih done).behind_report rfl
    · split
      · exact (ih done).behind_report rfl
      · refine (typeDef_route t).yields.bind fun result => ?_
        cases result with
        | none =>
          refine (ih done).mono fun _ _ h => ?_
          obtain ⟨d, hd, -⟩ := h
          cases hd
        | some d =>
          refine (ih (done ++ [d])).mono fun result h hfirst => ?_
          obtain ⟨declared, rfl, hdeclared⟩ := h
          obtain ⟨d', hd', hbecomes⟩ := hfirst
          cases hd'
          exact ⟨d :: declared, List.append_assoc done [d] declared, .cons hbecomes hdeclared⟩

end Lowering

/-! ## All exported types -/

/-- Types that are added without errors are all added. -/
theorem addInline_eq_append {types more : List TypeDef}
    (h : hasErrors (addInline types more).diagnostics = false) :
    (addInline types more).value = types ++ more := by
  induction more generalizing types with
  | nil => exact (List.append_nil types).symm
  | cons t rest ih =>
    rw [addInline] at h ⊢
    split at h
    · simp [Reported.report, hasErrors] at h
    · rename_i hnew
      rw [if_neg hnew, ih h, List.append_assoc, List.singleton_append]

/-- Without errors, the schema types of exported types are one for each of them and those made for
written-out objects. -/
theorem lowerTypes_ok {types : List ExportedType}
    (h : hasErrors (lowerTypes types).diagnostics = false) :
    ∃ declared, List.Forall₂ Becomes types declared ∧
      (lowerTypes types).value = declared ++ inlineTypes types := by
  have hsplit : hasErrors (((Lowering.typeDefs [] types).run {}).2.diagnostics ++
      (addInline ((Lowering.typeDefs [] types).run {}).1 (inlineTypes types)).diagnostics) = false :=
    h
  rw [hasErrors_append, Bool.or_eq_false_iff] at hsplit
  obtain ⟨-, declared, hdeclared, hbecomes⟩ := Lowering.typeDefs_yields types [] {} hsplit.1
  refine ⟨declared, hbecomes, ?_⟩
  rw [List.nil_append] at hdeclared
  exact hdeclared ▸ addInline_eq_append hsplit.2

end SchemaCompiler.GraphQL

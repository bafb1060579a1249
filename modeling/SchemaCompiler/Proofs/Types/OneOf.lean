import Mathlib
import SchemaCompiler.Proofs.Sample
import SchemaCompiler.Proofs.Types.Reports

/-!
# Input objects of which one field is given

A union of written-out objects becomes an input object with one field for each of them. Elsewhere the
properties of an object have names of their own, since properties of one name are merged; the objects
of a union may repeat a name, and nothing is reported of it. So the input object has no field twice
exactly when no two of the objects share the name of a property.
-/

namespace SchemaCompiler.GraphQL

/-- An input object asks for one of the objects that are written out in a union. -/
structure AsksForOne (t : ExportedType) (d : TypeDef) : Prop where
  name : d.name = t.name
  kind : d.kind = .inputObject
  oneOf : d.oneOf = true
  fields : List.Forall₂ Lowering.FieldForMember t.inlineMembers d.fields
  nullable : ∀ f ∈ d.fields, f.type.nullable = true

/-- No two of the properties have one name. -/
def NamedApart (members : List (List SchemaCompiler.Field)) : Prop :=
  (members.flatten.map (·.name)).Nodup

instance (members : List (List SchemaCompiler.Field)) : Decidable (NamedApart members) :=
  inferInstanceAs (Decidable (List.Nodup _))

namespace Lowering

variable {members : List (List SchemaCompiler.Field)} {fields : List Field}

theorem FieldForMember.nullable {member : List SchemaCompiler.Field} {f : Field}
    (h : FieldForMember member f) : f.type.nullable = true := by
  obtain ⟨p, -, hfield⟩ := h
  rw [hfield.nullable, asOptional, Bool.or_true]

theorem names_of_members (h : List.Forall₂ FieldForMember members fields) :
    fields.map (·.name) = members.flatten.map (·.name) := by
  induction h with
  | nil => rfl
  | cons hfirst _ ih =>
    obtain ⟨p, rfl, hfield⟩ := hfirst
    rw [List.map_cons, ih, hfield.name]
    rfl

/-- A union of written-out objects of which nothing is reported asks for one of them. -/
theorem Route.oneOf_quiet {t : ExportedType} {m : Lowering (Option TypeDef)} (h : Route t m)
    (hkind : t.kind = .union) (hmembers : t.inlineMembers ≠ []) :
    Quiet m fun result => ∃ d, result = some d ∧ AsksForOne t d := by
  cases h with
  | oneOf =>
    refine (oneOfFields_quiet t t.inlineMembers).bind fun fields => .pure fun hfields => ?_
    refine ⟨_, rfl, rfl, rfl, rfl, hfields, fun f hf => ?_⟩
    obtain ⟨member, -, hfield⟩ := exists_of_forall₂ hfields.flip hf
    exact FieldForMember.nullable hfield
  | invalidInput => exact invalidInput_quiet t
  | inlineUnion => exact inlineUnionOutput_quiet t
  | _ => simp_all

end Lowering

/-- A union of written-out objects of which nothing was reported asks for one of them, and does so by
names that differ exactly when no two properties of the objects have one name. -/
theorem oneOf_names_nodup_iff (t : ExportedType) (s : Synthesis) (hkind : t.kind = .union)
    (hmembers : t.inlineMembers ≠ [])
    (hquiet : ((Lowering.typeDef t).run s).2.diagnostics = s.diagnostics) :
    ∃ d, ((Lowering.typeDef t).run s).1 = some d ∧ AsksForOne t d ∧
      ((d.fields.map (·.name)).Nodup ↔ NamedApart t.inlineMembers) := by
  have hrun := (Lowering.typeDef_route t).oneOf_quiet hkind hmembers
  obtain ⟨d, hresult, hone⟩ := hrun.result hquiet
  refine ⟨d, hresult, hone, ?_⟩
  rw [Lowering.names_of_members hone.fields, NamedApart]

/-- A property that is written out with a primitive type. -/
def primitiveProperty (name : String) (kind : Primitive) : SchemaCompiler.Field :=
  ⟨name, .primitive kind, false, none, none, none⟩

open Sample in
theorem oneOf_names_nodup_contact :
    let t := { exportedType "ContactInput" .union with
      inlineMembers := [[primitiveProperty "email" .string], [primitiveProperty "phone" .string]] }
    t.kind = .union ∧ t.inlineMembers ≠ [] ∧ ((Lowering.typeDef t).run {}).2.diagnostics = [] ∧
      ∃ d, ((Lowering.typeDef t).run {}).1 = some d ∧ AsksForOne t d ∧
        (d.fields.map (·.name)).Nodup := by
  intro t
  have hmembers : t.inlineMembers ≠ [] := List.cons_ne_nil _ _
  have hquiet : ((Lowering.typeDef t).run {}).2.diagnostics = [] := by decide +kernel
  obtain ⟨d, hd, hone, hnames⟩ := oneOf_names_nodup_iff t {} rfl hmembers hquiet
  exact ⟨rfl, hmembers, hquiet, d, hd, hone, hnames.mpr (by decide)⟩

open Sample in
/-- Both objects have the property `id`, and so have two fields of the input object. -/
theorem contact_field_repeated :
    let t := { exportedType "ContactInput" .union with
      inlineMembers := [[primitiveProperty "id" .string], [primitiveProperty "id" .number]] }
    t.kind = .union ∧ t.inlineMembers ≠ [] ∧ ((Lowering.typeDef t).run {}).2.diagnostics = [] ∧
      ∃ d, ((Lowering.typeDef t).run {}).1 = some d ∧ ¬ (d.fields.map (·.name)).Nodup := by
  intro t
  have hmembers : t.inlineMembers ≠ [] := List.cons_ne_nil _ _
  have hquiet : ((Lowering.typeDef t).run {}).2.diagnostics = [] := by decide +kernel
  have hrun := (Lowering.typeDef_route t).oneOf_quiet rfl hmembers
  obtain ⟨d, hd, hone⟩ := hrun.result (s := {}) hquiet
  refine ⟨rfl, hmembers, hquiet, d, hd, ?_⟩
  rw [Lowering.names_of_members hone.fields]
  decide

end SchemaCompiler.GraphQL

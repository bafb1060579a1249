import SchemaCompiler.Proofs.Reexport.Syntax
import SchemaCompiler.Proofs.Shape.Origins

/-!
# What is known but for places

What is read of a program says where it stands. Two readings are the same but for places when they
give the same without their locations, and report the same without theirs.
-/

namespace SchemaCompiler

/-! ## Values -/

mutual

/-- A shape without the locations of its properties. -/
def TypeShape.unplaced : TypeShape → TypeShape
  | .primitive kind => .primitive kind
  | .reference name => .reference name
  | .scalar use => .scalar use
  | .array element => .array (TypeRef.unplaced element)
  | .union members => .union (TypeRef.unplacedAll members)
  | .literal value => .literal value
  | .inlineObject properties => .inlineObject (Field.unplacedAll properties)

def TypeRef.unplaced : Nullable TypeShape → Nullable TypeShape
  | ⟨shape, nullable⟩ => ⟨shape.unplaced, nullable⟩

def TypeRef.unplacedAll : List (Nullable TypeShape) → List (Nullable TypeShape)
  | [] => []
  | t :: rest => TypeRef.unplaced t :: TypeRef.unplacedAll rest

def Field.unplaced : Property (Nullable TypeShape) → Property (Nullable TypeShape)
  | ⟨name, type, optional, description, deprecated, _⟩ =>
    ⟨name, TypeRef.unplaced type, optional, description, deprecated, none⟩

def Field.unplacedAll : List (Property (Nullable TypeShape)) → List (Property (Nullable TypeShape))
  | [] => []
  | p :: rest => Field.unplaced p :: Field.unplacedAll rest

end

theorem TypeRef.unplacedAll_eq_map (types : List TypeRef) :
    TypeRef.unplacedAll types = types.map TypeRef.unplaced := by
  induction types with
  | nil => rfl
  | cons t rest ih => rw [unplacedAll, ih, List.map_cons]

theorem Field.unplacedAll_eq_map (fields : List Field) :
    Field.unplacedAll fields = fields.map Field.unplaced := by
  induction fields with
  | nil => rfl
  | cons f rest ih => rw [unplacedAll, ih, List.map_cons]

theorem TypeRef.unplaced_orNullable (t : TypeRef) (nullable : Bool) :
    TypeRef.unplaced (t.orNullable nullable) =
      TypeRef.orNullable (TypeRef.unplaced t) nullable := by
  cases t
  rfl

theorem Field.unplaced_eq (f : Field) :
    Field.unplaced f = ⟨f.name, TypeRef.unplaced f.type, f.optional, f.description, f.deprecated,
      none⟩ := by
  cases f
  rfl

theorem Field.name_unplaced (f : Field) : (Field.unplaced f).name = f.name := by
  rw [unplaced_eq]

namespace PropertySet

def unplaced (set : PropertySet) : PropertySet := set.mapFields Field.unplaced

theorem unplaced_merge (a b : PropertySet) :
    (a.merge b).unplaced = a.unplaced.merge b.unplaced :=
  mapFields_merge Field.name_unplaced a b

theorem unplaced_applyUtility (u : Utility) (keys : List String) (set : PropertySet) :
    (Classifier.applyUtility u keys set).unplaced =
      Classifier.applyUtility u keys set.unplaced :=
  mapFields_applyUtility Field.name_unplaced
    (fun optional p => by
      rw [Classifier.setOptional, Classifier.setOptional, Field.unplaced_eq, Field.unplaced_eq])
    u keys set

end PropertySet

def Diagnostic.unplaced (d : Diagnostic) : Diagnostic := { d with location := none }

/-! ## Readings -/

/-- Two readings give related values and report the same, but for places. -/
structure Agree {α β : Type} (R : α → β → Prop) (r : Reported α) (r' : Reported β) : Prop where
  value : R r.value r'.value
  diagnostics : r.diagnostics.map Diagnostic.unplaced = r'.diagnostics.map Diagnostic.unplaced

namespace Agree

variable {α β γ δ : Type} {R : α → β → Prop} {Q : γ → δ → Prop}

theorem pure {a : α} {b : β} (h : R a b) : Agree R (pure a) (pure b) := ⟨h, rfl⟩

theorem bind {r : Reported α} {r' : Reported β} (h : Agree R r r') {f : α → Reported γ}
    {f' : β → Reported δ} (hf : ∀ a b, R a b → Agree Q (f a) (f' b)) :
    Agree Q (r >>= f) (r' >>= f') := by
  have hnext := hf _ _ h.value
  refine ⟨hnext.value, ?_⟩
  rw [Reported.diagnostics_bind, Reported.diagnostics_bind, List.map_append, List.map_append,
    h.diagnostics, hnext.diagnostics]

theorem report {d d' : Diagnostic} (h : d.unplaced = d'.unplaced) :
    Agree (fun _ _ => True) (Reported.report d) (Reported.report d') :=
  ⟨trivial, by simp [Reported.report, h]⟩

theorem each {f : α → Reported γ} {f' : β → Reported δ} {xs : List α} {ys : List β}
    (h : List.Forall₂ (fun x y => Agree Q (f x) (f' y)) xs ys) :
    Agree (List.Forall₂ Q) (Reported.each f xs) (Reported.each f' ys) := by
  induction h with
  | nil => exact .pure .nil
  | cons hfirst _ ih =>
    rw [Reported.each, Reported.each]
    exact hfirst.bind fun _ _ hvalue => ih.bind fun _ _ hvalues => .pure (.cons hvalue hvalues)

theorem eachSome {f : α → Reported (Option γ)} {f' : β → Reported (Option δ)} {xs : List α}
    {ys : List β} (h : List.Forall₂ (fun x y => Agree (Option.Rel Q) (f x) (f' y)) xs ys) :
    Agree (List.Forall₂ Q) (Reported.eachSome f xs) (Reported.eachSome f' ys) := by
  refine (Agree.each h).bind fun found found' hfound => .pure ?_
  induction hfound with
  | nil => exact .nil
  | cons hfirst _ ih =>
    cases hfirst with
    | none => exact ih
    | some hvalue => exact .cons hvalue ih

end Agree

/-- The same type but for places. -/
def SameRef (t t' : TypeRef) : Prop := TypeRef.unplaced t = TypeRef.unplaced t'

def SameFields (fields fields' : List Field) : Prop :=
  fields.map Field.unplaced = fields'.map Field.unplaced

def SameSet (set set' : PropertySet) : Prop := set.unplaced = set'.unplaced

theorem SameRef.orNullable {t t' : TypeRef} (h : SameRef t t') (nullable : Bool) :
    SameRef (t.orNullable nullable) (t'.orNullable nullable) := by
  rw [SameRef, TypeRef.unplaced_orNullable, h, TypeRef.unplaced_orNullable]

theorem SameRef.array {t t' : TypeRef} (h : SameRef t t') :
    SameRef (TypeRef.plain (.array t)) (TypeRef.plain (.array t')) :=
  congrArg (fun t => TypeRef.plain (.array t)) h

theorem SameRef.union {types types' : List TypeRef} (h : List.Forall₂ SameRef types types') :
    SameRef (TypeRef.plain (.union types)) (TypeRef.plain (.union types')) := by
  have htypes := map_eq_map_of_forall₂ h fun _ _ => id
  simp only [SameRef, TypeRef.plain, TypeRef.unplaced, TypeShape.unplaced,
    TypeRef.unplacedAll_eq_map, htypes]

theorem SameFields.inlineObject {fields fields' : List Field} (h : SameFields fields fields') :
    SameRef (TypeRef.plain (.inlineObject fields)) (TypeRef.plain (.inlineObject fields')) := by
  have hfields : fields.map Field.unplaced = fields'.map Field.unplaced := h
  simp only [SameRef, TypeRef.plain, TypeRef.unplaced, TypeShape.unplaced,
    Field.unplacedAll_eq_map, hfields]

theorem SameFields.append {fields fields' more more' : List Field} (h : SameFields fields fields')
    (hmore : SameFields more more') : SameFields (fields ++ more) (fields' ++ more') := by
  rw [SameFields, List.map_append, List.map_append, h, hmore]

theorem SameSet.merge {a a' b b' : PropertySet} (ha : SameSet a a') (hb : SameSet b b') :
    SameSet (a.merge b) (a'.merge b') := by
  rw [SameSet, PropertySet.unplaced_merge, ha, hb, PropertySet.unplaced_merge]

theorem SameSet.foldl_merge {sets sets' : List PropertySet} (h : List.Forall₂ SameSet sets sets')
    {set set' : PropertySet} (hset : SameSet set set') :
    SameSet (sets.foldl PropertySet.merge set) (sets'.foldl PropertySet.merge set') := by
  induction h generalizing set set' with
  | nil => exact hset
  | cons hfirst _ ih => exact ih (hset.merge hfirst)

theorem SameSet.applyUtility {set set' : PropertySet} (h : SameSet set set') (u : Utility)
    (keys : List String) :
    SameSet (Classifier.applyUtility u keys set) (Classifier.applyUtility u keys set') := by
  rw [SameSet, PropertySet.unplaced_applyUtility, h, PropertySet.unplaced_applyUtility]

theorem SameSet.fields {set set' : PropertySet} (h : SameSet set set') :
    SameFields set.fields set'.fields :=
  congrArg PropertySet.fields h

theorem SameSet.interfaces {set set' : PropertySet} (h : SameSet set set') :
    set.interfaces = set'.interfaces := by
  have hinterfaces : set.unplaced.interfaces = set'.unplaced.interfaces :=
    congrArg PropertySet.interfaces h
  exact hinterfaces

end SchemaCompiler

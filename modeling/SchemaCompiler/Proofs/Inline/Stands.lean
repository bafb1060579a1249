import Mathlib.Data.List.Nodup
import SchemaCompiler.Proofs.Declarations
import SchemaCompiler.Proofs.Path.Order
import SchemaCompiler.Proofs.ResolverFields
import SchemaCompiler.Proofs.Schema.Contents

/-!
# What names of written-out objects stand for

An object that is written out in the place of a type becomes a type, with a name from where it
stands. `StandsFor` says, whatever the names are, which name may stand in such a place: one type has
it, of the kind of its side, and its fields are those that are written out. `objectsIn` lists the
names and kinds that lowering asks for. Where a type has the fields that were asked for, its name
stands for the object exactly when there are types of the right kinds for the object and for all that
is written out in it.
-/

namespace SchemaCompiler.GraphQL

/-! ## What names stand for -/

/-- The kind of a written-out object on one side. -/
def objectKind : Side → Kind
  | .input => .inputObject
  | .output => .object

section Stands

variable (ts : List TypeDef) (side : Side)

mutual

/-- A name stands for a shape in a schema with the given types. -/
def StandsFor : TypeShape → String → Prop
  | .primitive kind, name => name = Lowering.primitiveName kind
  | .literal value, name => name = Lowering.literalName value
  | .reference target, name => name = target
  | .scalar use, name => name = use.scalar
  | .array element, name => ElementStands element name
  | .union _, _ => False
  | .inlineObject properties, name =>
    ∃ t, ts.filter (·.name = name) = [t] ∧ t.kind = objectKind side ∧
      FieldsStand properties t.fields

def ElementStands : Nullable TypeShape → String → Prop
  | ⟨shape, _⟩, name => StandsFor shape name

/-- The type of a field stands for a type that is written in a program. There are no lists of
lists. -/
def TypeStands (optional : Bool) : Nullable TypeShape → FieldType → Prop
  | ⟨.array element, nullable⟩, type =>
    Lowering.isArray element.shape = false ∧
      ∃ name, ElementStands element name ∧
        type = .listOf name (nullable || optional) element.nullable
  | ⟨shape, nullable⟩, type =>
    ∃ name, StandsFor shape name ∧ type = .named name (nullable || optional)

/-- A field stands for a property. -/
def FieldStands : Property (Nullable TypeShape) → Field → Prop
  | ⟨name, type, optional, description, deprecated, location⟩, f =>
    f.name = name ∧ TypeStands optional type f.type ∧ f.args = [] ∧
      f.description = description ∧ f.deprecated = deprecated ∧ (f.location == location) = true

def FieldsStand : List (Property (Nullable TypeShape)) → List Field → Prop
  | [], [] => True
  | p :: properties, f :: fields => FieldStands p f ∧ FieldsStand properties fields
  | _, _ => False

end

end Stands

/-- Every exported type has a schema type of its name whose fields stand for its properties. -/
def TypesStand (types : List ExportedType) (ts : List TypeDef) : Prop :=
  ∀ t ∈ types, ∃ d ∈ ts, d.name = t.name ∧
    FieldsStand ts (sideOf t) (fieldProperties t) d.fields

/-- An argument of a field stands for an argument of a resolver. -/
def ArgumentStands (ts : List TypeDef) (a : SchemaCompiler.Field) (v : InputValue) : Prop :=
  v.name = a.name ∧ TypeStands ts .input a.optional a.type v.type

/-- A field stands for a resolver, by its arguments and by its type. -/
def ResolverStands (ts : List TypeDef) (r : Resolver) (f : ResolvedField) : Prop :=
  List.Forall₂ (ArgumentStands ts) (r.args.getD []) f.field.args ∧
    TypeStands ts .output false r.returnType f.field.type

/-! ## What is written out -/

section WrittenOut

open Lowering (inlineName fieldHint)

variable (side : Side)

mutual

/-- The names and kinds of the types for what is written out in a shape. -/
def objectsIn (hint : String) : TypeShape → List (String × Kind)
  | .array element => objectsInElement hint element
  | .inlineObject properties =>
    objectsInFields (inlineName side hint).1 properties ++ [inlineName side hint]
  | _ => []

def objectsInElement (hint : String) : Nullable TypeShape → List (String × Kind)
  | ⟨shape, _⟩ => objectsIn hint shape

def objectsInField (owner : String) : Property (Nullable TypeShape) → List (String × Kind)
  | ⟨name, type, _, _, _, _⟩ => objectsInElement (fieldHint owner name) type

def objectsInFields (owner : String) : List (Property (Nullable TypeShape)) → List (String × Kind)
  | [] => []
  | p :: properties => objectsInField owner p ++ objectsInFields owner properties

end

end WrittenOut

/-- The names and kinds of the types for what is written out in an exported type. -/
def objectsInType (t : ExportedType) : List (String × Kind) :=
  objectsInFields (sideOf t) t.name (fieldProperties t)

/-- The names and kinds of the types for what is written out in arguments. -/
def objectsInArguments (hint : String) (args : List SchemaCompiler.Field) : List (String × Kind) :=
  args.flatMap fun a => objectsInElement .input (hint ++ Text.pascal a.name) a.type

/-- The names and kinds of the types for what is written out in a resolver. -/
def objectsInResolver (r : Resolver) : List (String × Kind) :=
  match ResolverFields.owner? r with
  | none => []
  | some owner =>
    objectsInArguments (ResolverFields.argumentHint owner r) (r.args.getD []) ++
      objectsInElement .output (ResolverFields.returnHint owner r) r.returnType

/-- Objects of one name are of one kind. -/
def OneKind (objects : List (String × Kind)) : Prop :=
  ∀ x ∈ objects, ∀ y ∈ objects, x.1 = y.1 → x.2 = y.2

instance (objects : List (String × Kind)) : Decidable (OneKind objects) :=
  inferInstanceAs (Decidable (∀ x ∈ objects, ∀ y ∈ objects, x.1 = y.1 → x.2 = y.2))

/-- For every object there is a type of its name and its kind. -/
def Realized (ts : List TypeDef) (objects : List (String × Kind)) : Prop :=
  ∀ x ∈ objects, ∃ t ∈ ts, t.name = x.1 ∧ t.kind = x.2

theorem realized_nil {ts : List TypeDef} : Realized ts [] := List.forall_mem_nil _

theorem realized_append {ts : List TypeDef} {objects more : List (String × Kind)} :
    Realized ts (objects ++ more) ↔ Realized ts objects ∧ Realized ts more :=
  List.forall_mem_append

theorem realized_flatMap {α : Type} {ts : List TypeDef} {items : List α}
    {objects : α → List (String × Kind)} :
    Realized ts (items.flatMap objects) ↔ ∀ a ∈ items, Realized ts (objects a) := by
  simp only [Realized, List.mem_flatMap]
  exact ⟨fun h a ha x hx => h x ⟨a, ha, hx⟩, fun h x ⟨a, ha, hx⟩ => h a ha x hx⟩

/-! ## Fields that are equal -/

theorem location_beq_congr {a b : Option SourceLocation} (h : (a == b) = true)
    (c : Option SourceLocation) : (a == c) = (b == c) := by
  rw [SourceLocation.option_beq_iff] at h
  rw [Bool.eq_iff_iff, SourceLocation.option_beq_iff, SourceLocation.option_beq_iff, h]

instance : ReflBEq InputValue where
  rfl {a} := by
    show (a.name == a.name && (a.type == a.type && (a.description == a.description &&
      (a.deprecated == a.deprecated && a.location == a.location)))) = true
    simp

instance : ReflBEq Field := ⟨@fun f => by simp [Field.beq_def]⟩

/-- Equal fields stand for the same property: a field is compared by all that it has, and a location
by the components of its path. -/
theorem fieldStands_of_beq {ts : List TypeDef} {side : Side} {p : Property (Nullable TypeShape)}
    {f g : Field} (h : (f == g) = true) :
    FieldStands ts side p f ↔ FieldStands ts side p g := by
  simp only [Field.beq_def, Bool.and_eq_true, beq_iff_eq] at h
  obtain ⟨hname, htype, hargs, hdescription, hdeprecated, hlocation⟩ := h
  have hnone : f.args = [] ↔ g.args = [] := by
    cases hf : f.args <;> cases hg : g.args <;> simp_all
  rw [FieldStands, FieldStands, hname, htype, hnone, hdescription, hdeprecated,
    location_beq_congr hlocation]

theorem fieldsStand_of_beq {ts : List TypeDef} {side : Side}
    (properties : List (Property (Nullable TypeShape))) {fs gs : List Field}
    (h : (fs == gs) = true) :
    FieldsStand ts side properties fs ↔ FieldsStand ts side properties gs := by
  induction properties generalizing fs gs with
  | nil => cases fs <;> cases gs <;> first | rfl | cases h
  | cons p rest ih =>
    cases fs <;> cases gs
    · rfl
    · cases h
    · cases h
    · rw [List.cons_beq_cons, Bool.and_eq_true] at h
      rw [FieldsStand, FieldsStand, fieldStands_of_beq h.1, ih h.2]

/-! ## What stands for objects -/

section Realized

open Lowering (inlineName)

variable {ts : List TypeDef} {objects : List (String × Kind)}

/-- Where no name stands twice, a name selects one type. -/
theorem filter_name_eq_singleton (hts : (ts.map (·.name)).Nodup) {t : TypeDef} (ht : t ∈ ts)
    {name : String} (hname : t.name = name) : ts.filter (·.name = name) = [t] := by
  have hpairwise : ts.Pairwise fun a b => ¬ (a.name == b.name) = true :=
    (List.pairwise_map.mp hts).imp fun hne heq => hne (eq_of_beq heq)
  simpa only [Bool.beq_eq_decide_eq] using
    filter_key_eq_singleton hpairwise ht (beq_iff_eq.mpr hname)

theorem inlineName_kind (side : Side) (hint : String) :
    (inlineName side hint).2 = objectKind side := by
  cases side <;> rfl

/-- The name of a type with the fields of an object stands for the object if it is of its kind and
the fields stand for its properties. -/
theorem standsFor_inlineObject_iff (hts : (ts.map (·.name)).Nodup) {side : Side} {hint : String}
    {properties : List (Property (Nullable TypeShape))} {fields : List Field}
    (hkept : ∃ t ∈ ts, t.name = (inlineName side hint).1 ∧ (t.fields == fields) = true)
    (hfields : FieldsStand ts side properties fields ↔ Realized ts objects) :
    StandsFor ts side (.inlineObject properties) (inlineName side hint).1 ↔
      Realized ts (objects ++ [inlineName side hint]) := by
  obtain ⟨t, ht, hname, hsame⟩ := hkept
  have honly : ts.filter (·.name = (inlineName side hint).1) = [t] :=
    filter_name_eq_singleton hts ht hname
  rw [realized_append, ← hfields, ← fieldsStand_of_beq properties hsame, StandsFor, honly, and_comm]
  constructor
  · rintro ⟨u, hu, hkind, hstand⟩
    obtain rfl : t = u := List.singleton_inj.mp hu
    refine ⟨?_, hstand⟩
    intro x hx
    rw [List.mem_singleton.mp hx]
    exact ⟨t, ht, hname, hkind.trans (inlineName_kind side hint).symm⟩
  · rintro ⟨hrealized, hstand⟩
    obtain ⟨u, hu, huname, hukind⟩ := hrealized _ List.mem_cons_self
    obtain rfl : t = u := List.inj_on_of_nodup_map hts ht hu (hname.trans huname.symm)
    exact ⟨t, rfl, hukind.trans (inlineName_kind side hint), hstand⟩

theorem typeStands_named_iff {shape : TypeShape} (h : Lowering.isArray shape = false) {side : Side}
    {optional nullable : Bool} {name : String} :
    TypeStands ts side optional ⟨shape, nullable⟩ (.named name (nullable || optional)) ↔
      StandsFor ts side shape name := by
  have hiff : (∃ other, StandsFor ts side shape other ∧
      FieldType.named name (nullable || optional) = .named other (nullable || optional)) ↔
        StandsFor ts side shape name := by
    simp [FieldType.named]
  cases shape <;> first | exact hiff | cases h

theorem typeStands_listOf_iff {element : Nullable TypeShape}
    (h : Lowering.isArray element.shape = false) {side : Side} {optional nullable : Bool}
    {name : String} :
    TypeStands ts side optional ⟨.array element, nullable⟩
        (.listOf name (nullable || optional) element.nullable) ↔
      ElementStands ts side element name := by
  simp [TypeStands, h, FieldType.listOf]

theorem fieldsStand_cons_iff {side : Side} {owner : String} {p : Property (Nullable TypeShape)}
    {rest : List (Property (Nullable TypeShape))} {f : Field} {fields : List Field}
    (hfirst : FieldStands ts side p f ↔ Realized ts (objectsInField side owner p))
    (hrest : FieldsStand ts side rest fields ↔ Realized ts (objectsInFields side owner rest)) :
    FieldsStand ts side (p :: rest) (f :: fields) ↔
      Realized ts (objectsInFields side owner (p :: rest)) := by
  rw [FieldsStand, hfirst, hrest, objectsInFields, realized_append]

end Realized

end SchemaCompiler.GraphQL

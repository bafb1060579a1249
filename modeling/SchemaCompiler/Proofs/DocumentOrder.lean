import Mathlib
import SchemaCompiler.Proofs.Document
import SchemaCompiler.Proofs.Lists

/-!
# The order of a document

A document lists custom scalars, base types, input objects and extensions, each group sorted by
name, and the fields of each definition sorted by name too. Where no name stands twice in a list,
there is only one way to sort it, so the document depends on what the lists of a schema hold and not
on the order in which they hold it. Union members and interfaces may stand there any number of
times. What means something by its order is left alone: the arguments of a field and the values of
an enum.
-/

namespace SchemaCompiler.GraphQL

/-! ## Sorted lists -/

/-- The nodes are those given, sorted by a name that none of them shares with another. -/
structure Arranged {ν : Type} (name : ν → String) (given nodes : List ν) : Prop where
  perm : nodes.Perm given
  increasing : (nodes.map name).Pairwise (· < ·)

section Arranged

variable {α ν : Type} {name : ν → String} {given given' nodes nodes' : List ν}

/-- There is one way to sort a list. -/
theorem Arranged.unique (h : Arranged name given nodes) (h' : Arranged name given' nodes')
    (hperm : given.Perm given') : nodes = nodes' := by
  have hsame : nodes.Perm nodes' := h.perm.trans (hperm.trans h'.perm.symm)
  refine hsame.eq_of_pairwise ?_ (List.pairwise_map.mp h.increasing)
    (List.pairwise_map.mp h'.increasing)
  intro a b _ _ hab hba
  exact absurd (hab.trans hba) (lt_irrefl _)

theorem pairwise_le_sortByName (key : α → String) (items : List α) :
    ((sortByName key items).map key).Pairwise (· ≤ ·) := by
  rw [List.pairwise_map]
  refine (List.pairwise_mergeSort ?_ ?_ items).imp of_decide_eq_true
  · intro a b c hab hbc
    exact decide_eq_true ((of_decide_eq_true hab).trans (of_decide_eq_true hbc))
  · intro a b
    rw [← Bool.decide_or]
    exact decide_eq_true (le_total (key a) (key b))

theorem pairwise_lt_of_nodup {names : List String} (hsorted : names.Pairwise (· ≤ ·))
    (hnodup : names.Nodup) : names.Pairwise (· < ·) :=
  (hsorted.and hnodup).imp fun h => lt_of_le_of_ne h.1 h.2

/-- Nodes made of sorted items are sorted, when they take the names of the items. -/
theorem arranged_sortByName {node : α → ν} {key : α → String} {items : List α}
    (hname : ∀ a, name (node a) = key a) (hnodup : (items.map key).Nodup) :
    Arranged name (items.map node) ((sortByName key items).map node) := by
  have hperm : (sortByName key items).Perm items := List.mergeSort_perm items _
  have hnames : ((sortByName key items).map node).map name = (sortByName key items).map key := by
    rw [List.map_map]
    exact List.map_congr_left fun a _ => hname a
  refine ⟨hperm.map node, ?_⟩
  rw [hnames]
  exact pairwise_lt_of_nodup (pairwise_le_sortByName key items)
    ((hperm.map key).nodup_iff.mpr hnodup)

/-- Sorted nodes do not depend on the order of the items that they are made of. -/
theorem sortByName_congr {node : α → ν} {key : α → String} {items items' : List α}
    (hname : ∀ a, name (node a) = key a) (hnodup : (items.map key).Nodup)
    (hperm : (items.map node).Perm (items'.map node)) :
    (sortByName key items).map node = (sortByName key items').map node := by
  have hkeys : ∀ list : List α, list.map key = (list.map node).map name := by
    intro list
    rw [List.map_map]
    exact List.map_congr_left fun a _ => (hname a).symm
  have hnodup' : (items'.map key).Nodup := by
    rw [hkeys] at hnodup ⊢
    exact (hperm.map name).nodup_iff.mp hnodup
  exact (arranged_sortByName hname hnodup).unique (arranged_sortByName hname hnodup') hperm

theorem pairwise_lt_sortedNames (names : List String) : (sortedNames names).Pairwise (· < ·) :=
  pairwise_lt_of_nodup
    ((List.pairwise_mergeSort' (· ≤ ·) names).sublist (eraseDups_sublist _)) (nodup_eraseDups _)

/-- Sorted names depend on which names there are. -/
theorem sortedNames_congr {names names' : List String}
    (h : ∀ name, name ∈ names ↔ name ∈ names') : sortedNames names = sortedNames names' := by
  refine (pairwise_lt_sortedNames names).eq_of_mem_iff (pairwise_lt_sortedNames names') ?_
  intro name
  rw [mem_sortedNames, mem_sortedNames, h]

end Arranged

/-! ## Schemas in another order -/

/-- The items of one list correspond to those of the other one, in some order. -/
def Rearranges {α : Type} (same : α → α → Prop) (items items' : List α) : Prop :=
  ∃ moved, items.Perm moved ∧ List.Forall₂ same moved items'

theorem Rearranges.map_perm {α β : Type} {same : α → α → Prop} {items items' : List α}
    (h : Rearranges same items items') {f : α → β}
    (hsame : ∀ a ∈ items, ∀ b, same a b → f a = f b) : (items.map f).Perm (items'.map f) := by
  obtain ⟨moved, hperm, hmoved⟩ := h
  have heq : moved.map f = items'.map f := by
    have hall : ∀ a ∈ moved, ∀ b, same a b → f a = f b := fun a ha =>
      hsame a (hperm.mem_iff.mpr ha)
    clear hperm
    induction hmoved with
    | nil => rfl
    | cons hfirst _ ih =>
      rw [List.map_cons, List.map_cons, hall _ List.mem_cons_self _ hfirst,
        ih fun a ha => hall a (List.mem_cons_of_mem _ ha)]
  exact heq ▸ hperm.map f

theorem Rearranges.exists_mem {α : Type} {same : α → α → Prop} {items items' : List α}
    (h : Rearranges same items items') {a : α} (ha : a ∈ items) : ∃ b ∈ items', same a b := by
  obtain ⟨moved, hperm, hmoved⟩ := h
  exact exists_of_forall₂ hmoved (hperm.mem_iff.mp ha)

theorem Rearranges.exists_mem_left {α : Type} {same : α → α → Prop} {items items' : List α}
    (h : Rearranges same items items') {b : α} (hb : b ∈ items') : ∃ a ∈ items, same a b := by
  obtain ⟨moved, hperm, hmoved⟩ := h
  obtain ⟨a, ha, hsame⟩ := exists_of_forall₂ hmoved.flip hb
  exact ⟨a, hperm.mem_iff.mpr ha, hsame⟩

/-- A base type with its fields in another order, and with union members and interfaces in another
order or number. -/
structure TypeDef.Reorders (t t' : TypeDef) : Prop where
  rest : { t with
    fields := t'.fields, unionMembers := t'.unionMembers, interfaces := t'.interfaces } = t'
  fields : t.fields.Perm t'.fields
  unionMembers : ∀ name, name ∈ t.unionMembers ↔ name ∈ t'.unionMembers
  interfaces : ∀ name, name ∈ t.interfaces ↔ name ∈ t'.interfaces

structure InputType.Reorders (t t' : InputType) : Prop where
  rest : { t with fields := t'.fields } = t'
  fields : t.fields.Perm t'.fields

structure TypeExtension.Reorders (e e' : TypeExtension) : Prop where
  target : e.target = e'.target
  fields : e.fields.Perm e'.fields

theorem TypeExtension.Reorders.symm {e e' : TypeExtension} (h : e.Reorders e') : e'.Reorders e :=
  ⟨h.target.symm, h.fields.symm⟩

namespace Schema

/-- The lists of two schemas hold the same, in another order. -/
structure Reorders (s s' : Schema) : Prop where
  customScalars : s.customScalars.Perm s'.customScalars
  baseTypes : Rearranges TypeDef.Reorders s.baseTypes s'.baseTypes
  inputTypes : Rearranges InputType.Reorders s.inputTypes s'.inputTypes
  extensions : Rearranges TypeExtension.Reorders s.extensions s'.extensions

/-- No list of the schema has a name twice. -/
structure NamedOnce (s : Schema) : Prop extends s.Distinct where
  scalars : s.scalarNames.Nodup
  extensions : (s.extensions.map (·.target)).Nodup
  baseFields : ∀ t ∈ s.baseTypes, (t.fields.map (·.name)).Nodup
  inputFields : ∀ t ∈ s.inputTypes, (t.fields.map (·.name)).Nodup
  extensionFields : ∀ e ∈ s.extensions, (e.fields.map (·.field.name)).Nodup

end Schema

/-! ## Definitions -/

namespace Definition

/-- The name of what is defined or extended. -/
def name : Definition → String
  | scalar head => head.name
  | object head _ _ => head.name
  | interface head _ _ => head.name
  | union head _ => head.name
  | enum head _ => head.name
  | inputObject head _ => head.name
  | extension name _ => name

def enumValues : Definition → List EnumValueNode
  | enum _ values => values
  | scalar _ => []
  | object _ _ _ => []
  | interface _ _ _ => []
  | union _ _ => []
  | inputObject _ _ => []
  | extension _ _ => []

theorem name_ofScalar (c : ScalarDefinition) : (ofScalar c).name = c.name := rfl

theorem name_ofBase (t : TypeDef) : (ofBase t).name = t.name := by
  unfold ofBase
  cases t.kind <;> rfl

theorem name_ofInput (t : InputType) : (ofInput t).name = t.name := rfl

theorem name_ofExtension (e : TypeExtension) : (ofExtension e).name = e.target := rfl

end Definition

theorem names_fields (e : TypeExtension) :
    (e.fields.map (·.field)).map (·.name) = e.fields.map (·.field.name) :=
  List.map_map

theorem name_fieldNode (f : Field) : (FieldNode.of f).name = f.name := rfl

theorem name_inputValueNode (v : InputValue) : (InputValueNode.of v).name = v.name := rfl

theorem fieldNodes_congr {fields fields' : List Field} (hnodup : (fields.map (·.name)).Nodup)
    (hperm : fields.Perm fields') : fieldNodes fields = fieldNodes fields' :=
  sortByName_congr name_fieldNode hnodup (hperm.map _)

theorem TypeDef.Reorders.ofBase_eq {t t' : TypeDef} (h : t.Reorders t')
    (hnodup : (t.fields.map (·.name)).Nodup) : Definition.ofBase t = Definition.ofBase t' := by
  have hfields := fieldNodes_congr hnodup h.fields
  have hmembers := sortedNames_congr h.unionMembers
  have hinterfaces := sortedNames_congr h.interfaces
  rw [← h.rest]
  simp only [Definition.ofBase, Definition.head, hfields, hmembers, hinterfaces]

theorem InputType.Reorders.ofInput_eq {t t' : InputType} (h : t.Reorders t')
    (hnodup : (t.fields.map (·.name)).Nodup) : Definition.ofInput t = Definition.ofInput t' := by
  have hfields := sortByName_congr name_inputValueNode hnodup (h.fields.map _)
  rw [← h.rest]
  simp only [Definition.ofInput, hfields]

theorem TypeExtension.Reorders.ofExtension_eq {e e' : TypeExtension} (h : e.Reorders e')
    (hnodup : (e.fields.map (·.field.name)).Nodup) :
    Definition.ofExtension e = Definition.ofExtension e' := by
  have hfields := fieldNodes_congr (names_fields e ▸ hnodup) (h.fields.map (·.field))
  rw [Definition.ofExtension, Definition.ofExtension, h.target, hfields]

/-! ## Documents -/

/-- Fields are shown sorted by name, each with its arguments in the order in which it has them. -/
structure ShowsFields (fields : List Field) (nodes : List FieldNode) : Prop where
  sorted : Arranged (·.name) (fields.map FieldNode.of) nodes
  arguments : ∀ f ∈ fields, ∃ node ∈ nodes,
    node.name = f.name ∧ node.arguments = f.args.map InputValueNode.of

/-- Scalars, base types, input objects and extensions come in this order, each group and the fields
of each definition sorted by name. The values of an enum stay as they are. -/
structure Document.Presents (d : Document) (s : Schema) : Prop where
  groups : ∃ scalars bases inputs extensions : List Definition,
    d.definitions = scalars ++ bases ++ inputs ++ extensions ∧
      Arranged (·.name) (s.customScalars.map .ofScalar) scalars ∧
      Arranged (·.name) (s.baseTypes.map .ofBase) bases ∧
      Arranged (·.name) (s.inputTypes.map .ofInput) inputs ∧
      Arranged (·.name) (s.extensions.map .ofExtension) extensions
  baseFields : ∀ t ∈ s.baseTypes, t.kind ∈ [Kind.object, .interface, .inputObject] →
    ShowsFields t.fields (Definition.ofBase t).outputFields
  inputFields : ∀ t ∈ s.inputTypes,
    Arranged (·.name) (t.fields.map InputValueNode.of) (Definition.ofInput t).inputFields
  extensionFields : ∀ e ∈ s.extensions,
    ShowsFields (e.fields.map (·.field)) (Definition.ofExtension e).outputFields
  enumValues : ∀ t ∈ s.baseTypes, t.kind = .enum →
    (Definition.ofBase t).enumValues = t.enumValues.map EnumValueNode.of

theorem showsFields_fieldNodes {fields : List Field} (hnodup : (fields.map (·.name)).Nodup) :
    ShowsFields fields (fieldNodes fields) := by
  refine ⟨arranged_sortByName (fun _ => rfl) hnodup, fun f hf => ?_⟩
  exact ⟨FieldNode.of f, mem_fieldNodes.mpr ⟨f, hf, rfl⟩, rfl, rfl⟩

theorem presents_ofSchema {s : Schema} (h : s.NamedOnce) : (Document.ofSchema s).Presents s where
  groups :=
    ⟨_, _, _, _, rfl, arranged_sortByName (fun _ => rfl) h.scalars,
      arranged_sortByName Definition.name_ofBase h.base, arranged_sortByName (fun _ => rfl) h.input,
      arranged_sortByName (fun _ => rfl) h.extensions⟩
  baseFields t ht hkind := by
    have hshows := showsFields_fieldNodes (h.baseFields t ht)
    unfold Definition.ofBase
    cases hcase : t.kind with
    | object => exact hshows
    | interface => exact hshows
    | inputObject => exact hshows
    | union => simp [hcase] at hkind
    | enum => simp [hcase] at hkind
    | scalar => simp [hcase] at hkind
  inputFields t ht := arranged_sortByName (fun _ => rfl) (h.inputFields t ht)
  extensionFields e he := showsFields_fieldNodes (names_fields e ▸ h.extensionFields e he)
  enumValues t _ hkind := by
    unfold Definition.ofBase
    rw [hkind]
    rfl

theorem Schema.Reorders.ofSchema_eq {s s' : Schema} (h : s.Reorders s') (hnamed : s.NamedOnce) :
    Document.ofSchema s = Document.ofSchema s' := by
  have hscalars := sortByName_congr Definition.name_ofScalar hnamed.scalars
    (h.customScalars.map _)
  have hbases := sortByName_congr Definition.name_ofBase hnamed.base
    (h.baseTypes.map_perm fun t ht _ hsame => hsame.ofBase_eq (hnamed.baseFields t ht))
  have hinputs := sortByName_congr Definition.name_ofInput hnamed.input
    (h.inputTypes.map_perm fun t ht _ hsame => hsame.ofInput_eq (hnamed.inputFields t ht))
  have hextensions := sortByName_congr Definition.name_ofExtension hnamed.extensions
    (h.extensions.map_perm fun e he _ hsame => hsame.ofExtension_eq (hnamed.extensionFields e he))
  rw [Document.ofSchema, Document.ofSchema, hscalars, hbases, hinputs, hextensions]

/-- Where no list of a schema has a name twice, its document sorts what it shows, and every schema
that holds the same in another order has the same document. -/
theorem ofSchema_sorts {s : Schema} (h : s.NamedOnce) :
    (Document.ofSchema s).Presents s ∧
      ∀ s', s.Reorders s' → Document.ofSchema s = Document.ofSchema s' :=
  ⟨presents_ofSchema h, fun _ hreorders => hreorders.ofSchema_eq h⟩

namespace Schema

private def shopField (name : String) (args : List InputValue) : Field :=
  ⟨name, .named "ID" false, args, none, none, none⟩

private def shopInput (name : String) : InputValue := ⟨name, .named "ID" true, none, none, none⟩

private def shopValue (name : String) : EnumValue := ⟨name, name, none, none⟩

/-- A schema of every kind of definition, in no order. -/
def shop : Schema where
  customScalars := [⟨"Url", none, [], none⟩, ⟨"Date", none, [], none⟩]
  baseTypes :=
    [{ name := "Thing", kind := .union, unionMembers := ["Shoe", "Hat"] },
      { name := "Hat", kind := .object, interfaces := ["Priced", "Named"],
        fields := [shopField "price" [shopInput "in", shopInput "at"], shopField "name" []] },
      { name := "Size", kind := .enum, enumValues := [shopValue "SMALL", shopValue "LARGE"] }]
  inputTypes := [⟨"Order", [shopInput "size", shopInput "hat"], false, none, none, none, none⟩]
  extensions :=
    [⟨queryType, [⟨shopField "shoes" [], none, none⟩, ⟨shopField "hats" [], none, none⟩]⟩]

/-- The same schema with each list turned around, and with names that are said again. -/
def shopTurned : Schema where
  customScalars := [⟨"Date", none, [], none⟩, ⟨"Url", none, [], none⟩]
  baseTypes :=
    [{ name := "Size", kind := .enum, enumValues := [shopValue "SMALL", shopValue "LARGE"] },
      { name := "Hat", kind := .object, interfaces := ["Named", "Priced", "Named"],
        fields := [shopField "name" [], shopField "price" [shopInput "in", shopInput "at"]] },
      { name := "Thing", kind := .union, unionMembers := ["Hat", "Hat", "Shoe"] }]
  inputTypes := [⟨"Order", [shopInput "hat", shopInput "size"], false, none, none, none, none⟩]
  extensions :=
    [⟨queryType, [⟨shopField "hats" [], none, none⟩, ⟨shopField "shoes" [], none, none⟩]⟩]

theorem namedOnce_shop : shop.NamedOnce where
  base := by decide
  input := by decide
  scalars := by decide
  extensions := by decide
  baseFields := by decide
  inputFields := by decide
  extensionFields := by decide

theorem reorders_shop : shop.Reorders shopTurned where
  customScalars := List.Perm.swap _ _ _
  baseTypes := by
    refine ⟨shop.baseTypes.reverse, (List.reverse_perm _).symm, ?_⟩
    have hsize : TypeDef.Reorders shop.baseTypes[2] shopTurned.baseTypes[0] :=
      ⟨rfl, .rfl, fun _ => Iff.rfl, fun _ => Iff.rfl⟩
    have hhat : TypeDef.Reorders shop.baseTypes[1] shopTurned.baseTypes[1] := by
      refine ⟨rfl, List.Perm.swap _ _ _, fun _ => Iff.rfl, fun name => ?_⟩
      simp [shop, shopTurned, or_comm]
    have hthing : TypeDef.Reorders shop.baseTypes[0] shopTurned.baseTypes[2] := by
      refine ⟨rfl, .rfl, fun name => ?_, fun _ => Iff.rfl⟩
      simp [shop, shopTurned, or_comm]
    exact .cons hsize (.cons hhat (.cons hthing .nil))
  inputTypes := ⟨_, .rfl, .cons ⟨rfl, List.Perm.swap _ _ _⟩ .nil⟩
  extensions := ⟨_, .rfl, .cons ⟨rfl, List.Perm.swap _ _ _⟩ .nil⟩

theorem ofSchema_shop :
    shop.NamedOnce ∧ shop.Reorders shopTurned ∧ (Document.ofSchema shop).Presents shop ∧
      Document.ofSchema shop = Document.ofSchema shopTurned :=
  ⟨namedOnce_shop, reorders_shop, (ofSchema_sorts namedOnce_shop).1,
    (ofSchema_sorts namedOnce_shop).2 shopTurned reorders_shop⟩

end Schema

end SchemaCompiler.GraphQL

import Mathlib
import SchemaCompiler.GraphQL.Document.Basic
import SchemaCompiler.GraphQL.Document.Printer
import SchemaCompiler.Proofs.Json.Same

/-!
# What the tree of a document holds

The tree of a document holds all of it. A reader that looks for the fields of each node by name gets
the document back, and two documents have the same tree only when they are the same. That is so even
though the order of fields says nothing in a value: every node names each of its fields once, and no
two kinds of nodes have one name. A document that is made of a schema defines types and extends
objects, and its directives have texts for arguments, so the tree leaves nothing out.
-/

namespace SchemaCompiler.GraphQL

open Json

/-! ## Trees that are the same -/

namespace Tree

variable {kind kind' : String} {fields fields' : List (String × Json)}

theorem not_same_of_kind_ne (hne : kind ≠ kind') :
    ¬ (node kind fields).same (node kind' fields') = true := by
  intro h
  rw [node, node, same, Bool.and_eq_true, sameFields, List.lookup_cons_self, Bool.and_eq_true,
    same_string_iff] at h
  exact hne h.2.1

/-- Nodes with fields of the same names. -/
theorem same_node_iff (names : List String) (hnodup : ("kind" :: names).Nodup)
    (hfields : fields.map (·.1) = names) (hfields' : fields'.map (·.1) = names) :
    (node kind fields).same (node kind' fields') = true ↔
      kind = kind' ∧ SameValues fields fields' := by
  have hnames : (("kind", string kind) :: fields).map (·.1) =
      (("kind", string kind') :: fields').map (·.1) := by
    rw [List.map_cons, List.map_cons, hfields, hfields']
  have hnodup' : ((("kind", string kind') :: fields').map (·.1)).Nodup := by
    rwa [List.map_cons, hfields']
  rw [node, node, same_object_iff hnames hnodup', sameValues_cons, same_string_iff]

theorem same_name_iff {a b : String} : (name a).same (name b) = true ↔ a = b := by
  refine Iff.trans (same_node_iff ["value"] (by decide) rfl rfl) ?_
  simp [same_string_iff]

theorem same_namedType_iff {a b : String} : (namedType a).same (namedType b) = true ↔ a = b := by
  refine Iff.trans (same_node_iff ["name"] (by decide) rfl rfl) ?_
  simp [same_name_iff]

theorem same_stringValue_iff {a b : String} :
    (stringValue a).same (stringValue b) = true ↔ a = b := by
  refine Iff.trans (same_node_iff ["value", "block"] (by decide) rfl rfl) ?_
  simp [same_string_iff, same_bool_iff]

/-- Both nodes have a description or neither has, and then it is the same one. -/
theorem same_described_iff {description description' : Option String} (names : List String)
    (hnodup : ("kind" :: "description" :: names).Nodup) (hfields : fields.map (·.1) = names)
    (hfields' : fields'.map (·.1) = names) :
    (described kind description fields).same (described kind' description' fields') = true ↔
      kind = kind' ∧ description = description' ∧ SameValues fields fields' := by
  have hlength : fields.length = fields'.length := by
    simpa using congrArg List.length (hfields.trans hfields'.symm)
  cases description with
  | none =>
    cases description' with
    | none =>
      have hplain : ("kind" :: names).Nodup :=
        hnodup.sublist ((List.sublist_cons_self _ _).cons_cons _)
      simp [described, same_node_iff names hplain hfields hfields']
    | some d' => simp [described, node, same, hlength]
  | some d =>
    cases description' with
    | none => simp [described, node, same, hlength]
    | some d' =>
      have hnode :
          (described kind (some d) fields).same (described kind' (some d') fields') = true ↔
            kind = kind' ∧ SameValues (("description", stringValue d) :: fields)
              (("description", stringValue d') :: fields') :=
        same_node_iff ("description" :: names) hnodup (by simp [hfields]) (by simp [hfields'])
      rw [hnode, sameValues_cons, same_stringValue_iff, Option.some_inj]

end Tree

theorem TypeNode.same_tree_iff {t u : TypeNode} : t.tree.same u.tree = true ↔ t = u := by
  induction t generalizing u with
  | named name =>
    cases u with
    | named name' => simp [tree, Tree.same_namedType_iff]
    | list item' => exact iff_of_false (Tree.not_same_of_kind_ne (by decide)) nofun
    | nonNull inner' => exact iff_of_false (Tree.not_same_of_kind_ne (by decide)) nofun
  | list item ih =>
    cases u with
    | named name' => exact iff_of_false (Tree.not_same_of_kind_ne (by decide)) nofun
    | list item' =>
      refine Iff.trans (Tree.same_node_iff ["type"] (by decide) rfl rfl) ?_
      simp [ih]
    | nonNull inner' => exact iff_of_false (Tree.not_same_of_kind_ne (by decide)) nofun
  | nonNull inner ih =>
    cases u with
    | named name' => exact iff_of_false (Tree.not_same_of_kind_ne (by decide)) nofun
    | list item' => exact iff_of_false (Tree.not_same_of_kind_ne (by decide)) nofun
    | nonNull inner' =>
      refine Iff.trans (Tree.same_node_iff ["type"] (by decide) rfl rfl) ?_
      simp [ih]

namespace Directive

/-- The node of an argument. -/
def argumentTree (a : String × String) : Json :=
  Tree.node "Argument" [("name", Tree.name a.1), ("value", Tree.stringValue a.2)]

theorem tree_eq (d : Directive) :
    d.tree = Tree.node "Directive"
      [("name", Tree.name d.name), ("arguments", .array (d.arguments.map argumentTree))] := rfl

theorem same_argumentTree_iff (a b : String × String) :
    (argumentTree a).same (argumentTree b) = true ↔ a = b := by
  refine Iff.trans (Tree.same_node_iff ["name", "value"] (by decide) rfl rfl) ?_
  simp [Tree.same_name_iff, Tree.same_stringValue_iff, Prod.ext_iff]

theorem same_tree_iff (d e : Directive) : d.tree.same e.tree = true ↔ d = e := by
  obtain ⟨name, arguments⟩ := d
  obtain ⟨name', arguments'⟩ := e
  have harguments := same_array_map_iff same_argumentTree_iff arguments arguments'
  rw [tree_eq, tree_eq, Tree.same_node_iff ["name", "arguments"] (by decide) rfl rfl]
  simp [Tree.same_name_iff, harguments]

end Directive

theorem same_directivesTree_iff (ds es : List Directive) :
    (directivesTree ds).same (directivesTree es) = true ↔ ds = es :=
  same_array_map_iff Directive.same_tree_iff ds es

theorem InputValueNode.same_tree_iff (v w : InputValueNode) :
    v.tree.same w.tree = true ↔ v = w := by
  obtain ⟨description, name, type, directives⟩ := v
  obtain ⟨description', name', type', directives'⟩ := w
  refine Iff.trans (Tree.same_described_iff ["name", "type", "directives"] (by decide) rfl rfl) ?_
  simp [Tree.same_name_iff, TypeNode.same_tree_iff, same_directivesTree_iff]

theorem FieldNode.same_tree_iff (f g : FieldNode) : f.tree.same g.tree = true ↔ f = g := by
  obtain ⟨description, name, arguments, type, directives⟩ := f
  obtain ⟨description', name', arguments', type', directives'⟩ := g
  have harguments := same_array_map_iff InputValueNode.same_tree_iff arguments arguments'
  refine Iff.trans
    (Tree.same_described_iff ["name", "arguments", "type", "directives"] (by decide) rfl rfl) ?_
  simp [Tree.same_name_iff, TypeNode.same_tree_iff, same_directivesTree_iff, harguments]

theorem EnumValueNode.same_tree_iff (v w : EnumValueNode) :
    v.tree.same w.tree = true ↔ v = w := by
  obtain ⟨description, name, directives⟩ := v
  obtain ⟨description', name', directives'⟩ := w
  refine Iff.trans (Tree.same_described_iff ["name", "directives"] (by decide) rfl rfl) ?_
  simp [Tree.same_name_iff, same_directivesTree_iff]

namespace Definition

theorem same_namesTree_iff (names names' : List String) :
    (namesTree names).same (namesTree names') = true ↔ names = names' :=
  same_array_map_iff (fun _ _ => Tree.same_namedType_iff) names names'

theorem same_fieldsTree_iff (fields fields' : List FieldNode) :
    (fieldsTree fields).2.same (fieldsTree fields').2 = true ↔ fields = fields' :=
  same_array_map_iff FieldNode.same_tree_iff fields fields'

theorem same_headTree_iff {kind : String} {head head' : TypeHead}
    {before before' after after' : List (String × Json)} (front back : List String)
    (hnodup : ("kind" :: "description" :: "name" :: (front ++ "directives" :: back)).Nodup)
    (hbefore : before.map (·.1) = front) (hbefore' : before'.map (·.1) = front)
    (hafter : after.map (·.1) = back) (hafter' : after'.map (·.1) = back) :
    (headTree kind head before after).same (headTree kind head' before' after') = true ↔
      head = head' ∧ SameValues before before' ∧ SameValues after after' := by
  obtain ⟨description, name, directives⟩ := head
  obtain ⟨description', name', directives'⟩ := head'
  have hlength : before.length = before'.length := by
    simpa using congrArg List.length (hbefore.trans hbefore'.symm)
  refine Iff.trans (Tree.same_described_iff ("name" :: (front ++ "directives" :: back)) hnodup
    (by simp [hbefore, hafter]) (by simp [hbefore', hafter'])) ?_
  rw [List.cons_append, List.cons_append, sameValues_cons, Tree.same_name_iff,
    sameValues_append_iff hlength, sameValues_cons, same_directivesTree_iff, TypeHead.mk.injEq]
  tauto

theorem same_tree_iff (d e : Definition) : d.tree.same e.tree = true ↔ d = e := by
  cases d with
  | scalar head =>
    cases e with
    | scalar head' =>
      refine Iff.trans (same_headTree_iff [] [] (by decide) rfl rfl rfl rfl) ?_
      simp
    | _ => exact iff_of_false (Tree.not_same_of_kind_ne (by decide)) nofun
  | object head interfaces fields =>
    cases e with
    | object head' interfaces' fields' =>
      refine Iff.trans (same_headTree_iff ["interfaces"] ["fields"] (by decide) rfl rfl rfl rfl) ?_
      simp [same_namesTree_iff, same_fieldsTree_iff]
    | _ => exact iff_of_false (Tree.not_same_of_kind_ne (by decide)) nofun
  | interface head interfaces fields =>
    cases e with
    | interface head' interfaces' fields' =>
      refine Iff.trans (same_headTree_iff ["interfaces"] ["fields"] (by decide) rfl rfl rfl rfl) ?_
      simp [same_namesTree_iff, same_fieldsTree_iff]
    | _ => exact iff_of_false (Tree.not_same_of_kind_ne (by decide)) nofun
  | union head members =>
    cases e with
    | union head' members' =>
      refine Iff.trans (same_headTree_iff [] ["types"] (by decide) rfl rfl rfl rfl) ?_
      simp [same_namesTree_iff]
    | _ => exact iff_of_false (Tree.not_same_of_kind_ne (by decide)) nofun
  | enum head values =>
    cases e with
    | enum head' values' =>
      have hvalues := same_array_map_iff EnumValueNode.same_tree_iff values values'
      refine Iff.trans (same_headTree_iff [] ["values"] (by decide) rfl rfl rfl rfl) ?_
      simp [hvalues]
    | _ => exact iff_of_false (Tree.not_same_of_kind_ne (by decide)) nofun
  | inputObject head fields =>
    cases e with
    | inputObject head' fields' =>
      have hfields := same_array_map_iff InputValueNode.same_tree_iff fields fields'
      refine Iff.trans (same_headTree_iff [] ["fields"] (by decide) rfl rfl rfl rfl) ?_
      simp [hfields]
    | _ => exact iff_of_false (Tree.not_same_of_kind_ne (by decide)) nofun
  | extension name fields =>
    cases e with
    | extension name' fields' =>
      refine Iff.trans (Tree.same_node_iff ["name", "interfaces", "directives", "fields"]
        (by decide) rfl rfl) ?_
      simp [Tree.same_name_iff, same_fieldsTree_iff]
    | _ => exact iff_of_false (Tree.not_same_of_kind_ne (by decide)) nofun

end Definition

theorem Document.same_tree_iff (d e : Document) : d.tree.same e.tree = true ↔ d = e := by
  obtain ⟨definitions⟩ := d
  obtain ⟨definitions'⟩ := e
  have hdefinitions := same_array_map_iff Definition.same_tree_iff definitions definitions'
  refine Iff.trans (Tree.same_node_iff ["definitions"] (by decide) rfl rfl) ?_
  simp [hdefinitions]

/-! ## Reading trees -/

namespace Tree

/-- Reads a field of a node. -/
def field? {α : Type} (read : Json → Option α) (name : String) (j : Json) : Option α :=
  (j.get? name).bind read

def items? {α : Type} (read : Json → Option α) (j : Json) : Option (List α) :=
  j.array?.bind (List.mapM read)

def kind? : Json → Option String := field? Json.string? "kind"

/-- Reads the text of a node of a kind. -/
def text? (kind : String) (j : Json) : Option String := do
  guard (kind? j = some kind)
  field? Json.string? "value" j

def name? : Json → Option String := field? (text? "Name") "name"

def namedType? (j : Json) : Option String := do
  guard (kind? j = some "NamedType")
  name? j

/-- Reads a description, which need not be there. -/
def description? (j : Json) : Option (Option String) :=
  match j.get? "description" with
  | none => some none
  | some d => (text? "StringValue" d).map some

end Tree

namespace TypeNode

mutual

def ofTree? : Json → Option TypeNode
  | .object fields =>
    let kind := Tree.kind? (.object fields)
    if kind = some "NamedType" then (Tree.name? (.object fields)).map named
    else if kind = some "ListType" then (ofFields? fields).map list
    else if kind = some "NonNullType" then (ofFields? fields).map nonNull
    else none
  | _ => none

/-- Reads the type under a list or non-null mark. -/
def ofFields? : List (String × Json) → Option TypeNode
  | [] => none
  | (name, value) :: fields => if name = "type" then ofTree? value else ofFields? fields

end

end TypeNode

def Directive.argument? (j : Json) : Option (String × String) := do
  guard (Tree.kind? j = some "Argument")
  let name ← Tree.name? j
  let value ← Tree.field? (Tree.text? "StringValue") "value" j
  pure (name, value)

def Directive.ofTree? (j : Json) : Option Directive := do
  guard (Tree.kind? j = some "Directive")
  let name ← Tree.name? j
  let arguments ← Tree.field? (Tree.items? argument?) "arguments" j
  pure ⟨name, arguments⟩

def Tree.directives? : Json → Option (List Directive) :=
  field? (items? Directive.ofTree?) "directives"

def InputValueNode.ofTree? (j : Json) : Option InputValueNode := do
  guard (Tree.kind? j = some "InputValueDefinition")
  let description ← Tree.description? j
  let name ← Tree.name? j
  let type ← Tree.field? TypeNode.ofTree? "type" j
  let directives ← Tree.directives? j
  pure ⟨description, name, type, directives⟩

def FieldNode.ofTree? (j : Json) : Option FieldNode := do
  guard (Tree.kind? j = some "FieldDefinition")
  let description ← Tree.description? j
  let name ← Tree.name? j
  let arguments ← Tree.field? (Tree.items? InputValueNode.ofTree?) "arguments" j
  let type ← Tree.field? TypeNode.ofTree? "type" j
  let directives ← Tree.directives? j
  pure ⟨description, name, arguments, type, directives⟩

def EnumValueNode.ofTree? (j : Json) : Option EnumValueNode := do
  guard (Tree.kind? j = some "EnumValueDefinition")
  let description ← Tree.description? j
  let name ← Tree.name? j
  let directives ← Tree.directives? j
  pure ⟨description, name, directives⟩

def TypeHead.ofTree? (j : Json) : Option TypeHead := do
  let description ← Tree.description? j
  let name ← Tree.name? j
  let directives ← Tree.directives? j
  pure ⟨description, name, directives⟩

namespace Definition

def names? : String → Json → Option (List String) := Tree.field? (Tree.items? Tree.namedType?)

def fields? : Json → Option (List FieldNode) :=
  Tree.field? (Tree.items? FieldNode.ofTree?) "fields"

def ofTree? (j : Json) : Option Definition := do
  let kind ← Tree.kind? j
  if kind = "ScalarTypeDefinition" then
    pure (scalar (← TypeHead.ofTree? j))
  else if kind = "ObjectTypeDefinition" then
    pure (object (← TypeHead.ofTree? j) (← names? "interfaces" j) (← fields? j))
  else if kind = "InterfaceTypeDefinition" then
    pure (interface (← TypeHead.ofTree? j) (← names? "interfaces" j) (← fields? j))
  else if kind = "UnionTypeDefinition" then
    pure (union (← TypeHead.ofTree? j) (← names? "types" j))
  else if kind = "EnumTypeDefinition" then
    pure (enum (← TypeHead.ofTree? j)
      (← Tree.field? (Tree.items? EnumValueNode.ofTree?) "values" j))
  else if kind = "InputObjectTypeDefinition" then
    pure (inputObject (← TypeHead.ofTree? j)
      (← Tree.field? (Tree.items? InputValueNode.ofTree?) "fields" j))
  else if kind = "ObjectTypeExtension" then
    pure (extension (← Tree.name? j) (← fields? j))
  else none

end Definition

def Document.ofTree? (j : Json) : Option Document := do
  guard (Tree.kind? j = some "Document")
  let definitions ← Tree.field? (Tree.items? Definition.ofTree?) "definitions" j
  pure ⟨definitions⟩

/-! ### What is read of a tree -/

namespace Tree

variable {α : Type} {read : Json → Option α} {kind : String} {fields : List (String × Json)}

@[simp]
theorem field?_cons (name key : String) (value : Json) :
    field? read name (.object ((key, value) :: fields)) =
      if name = key then read value else field? read name (.object fields) := by
  simp only [field?, get?, lookup_cons]
  split <;> rfl

@[simp]
theorem kind?_node : kind? (node kind fields) = some kind := by
  simp [kind?, node, Json.string?]

@[simp]
theorem field?_node {name : String} (hname : name ≠ "kind") :
    field? read name (node kind fields) = field? read name (.object fields) := by
  rw [node, field?_cons, if_neg hname]

@[simp]
theorem kind?_described (description : Option String) :
    kind? (described kind description fields) = some kind :=
  kind?_node

@[simp]
theorem field?_described {name : String} (hname : name ≠ "kind") (hname' : name ≠ "description")
    (description : Option String) :
    field? read name (described kind description fields) = field? read name (.object fields) := by
  rw [described, field?_node hname]
  cases description with
  | none => rfl
  | some d => exact (field?_cons name "description" _).trans (if_neg hname')

theorem items?_map {tree : α → Json} (h : ∀ a, read (tree a) = some a) (as : List α) :
    items? read (.array (as.map tree)) = some as := by
  have hitems : (as.map tree).mapM read = some as := by
    induction as with
    | nil => rfl
    | cons a as ih => simp [List.mapM_cons, h, ih]
  exact hitems

@[simp]
theorem text?_name (value : String) : text? "Name" (name value) = some value := by
  simp [text?, name, Json.string?]

@[simp]
theorem text?_stringValue (value : String) :
    text? "StringValue" (stringValue value) = some value := by
  simp [text?, stringValue, Json.string?]

theorem namedType?_namedType (value : String) : namedType? (namedType value) = some value := by
  simp [namedType?, namedType, name?]

theorem description?_described (description : Option String)
    (h : fields.lookup "description" = none) :
    description? (described kind description fields) = some description := by
  cases description with
  | none => simp [description?, described, node, get?, lookup_cons, h]
  | some d => simp [description?, described, node, get?, lookup_cons]

end Tree

theorem TypeNode.ofTree?_tree (t : TypeNode) : ofTree? t.tree = some t := by
  induction t with
  | named name =>
    simp [tree, Tree.namedType, Tree.node, ofTree?, Tree.kind?, Json.string?, Tree.name?]
  | list item ih => simp [tree, Tree.node, ofTree?, Tree.kind?, Json.string?, ofFields?, ih]
  | nonNull inner ih => simp [tree, Tree.node, ofTree?, Tree.kind?, Json.string?, ofFields?, ih]

namespace Directive

theorem argument?_argumentTree (a : String × String) : argument? (argumentTree a) = some a := by
  simp [argument?, argumentTree, Tree.name?]

theorem ofTree?_tree (d : Directive) : ofTree? d.tree = some d := by
  rw [tree_eq]
  simp [ofTree?, Tree.name?, Tree.items?_map argument?_argumentTree]

end Directive

theorem items?_directivesTree (ds : List Directive) :
    Tree.items? Directive.ofTree? (directivesTree ds) = some ds :=
  Tree.items?_map Directive.ofTree?_tree ds

theorem InputValueNode.ofTree?_tree (v : InputValueNode) : ofTree? v.tree = some v := by
  have hdescription : Tree.description? v.tree = some v.description :=
    Tree.description?_described v.description rfl
  rw [ofTree?, hdescription, tree]
  simp [Tree.name?, Tree.directives?, TypeNode.ofTree?_tree, items?_directivesTree]

theorem FieldNode.ofTree?_tree (f : FieldNode) : ofTree? f.tree = some f := by
  have hdescription : Tree.description? f.tree = some f.description :=
    Tree.description?_described f.description rfl
  have harguments := Tree.items?_map InputValueNode.ofTree?_tree f.arguments
  rw [ofTree?, hdescription, tree]
  simp [Tree.name?, Tree.directives?, TypeNode.ofTree?_tree, items?_directivesTree, harguments]

theorem EnumValueNode.ofTree?_tree (v : EnumValueNode) : ofTree? v.tree = some v := by
  have hdescription : Tree.description? v.tree = some v.description :=
    Tree.description?_described v.description rfl
  rw [ofTree?, hdescription, tree]
  simp [Tree.name?, Tree.directives?, items?_directivesTree]

namespace Definition

section Head

variable {kind : String} {head : TypeHead} {before after : List (String × Json)}

@[simp]
theorem kind?_headTree : Tree.kind? (headTree kind head before after) = some kind :=
  Tree.kind?_described _

theorem field?_append {α : Type} {read : Json → Option α} {name : String}
    (h : before.lookup name = none) :
    Tree.field? read name (.object (before ++ after)) = Tree.field? read name (.object after) := by
  simp [Tree.field?, get?, List.lookup_append, h]

/-- A field that no head has is found around the directives. -/
@[simp]
theorem field?_headTree {α : Type} {read : Json → Option α} {name : String}
    (hhead : name ∉ ["kind", "description", "name", "directives"]) :
    Tree.field? read name (headTree kind head before after) =
      Tree.field? read name (.object (before ++ after)) := by
  simp only [List.mem_cons, List.not_mem_nil, or_false, not_or] at hhead
  obtain ⟨hkind, hdescription, hname, hdirectives⟩ := hhead
  rw [headTree, Tree.field?_described hkind hdescription, List.cons_append, Tree.field?_cons,
    if_neg hname]
  simp [Tree.field?, get?, List.lookup_append, lookup_cons, hdirectives]

/-- A head is read where what stands around its directives has fields of other names. -/
theorem ofTree?_headTree (hdescription : (before ++ after).lookup "description" = none)
    (hdirectives : before.lookup "directives" = none) :
    TypeHead.ofTree? (headTree kind head before after) = some head := by
  rw [List.lookup_append, Option.or_eq_none_iff] at hdescription
  have hdescribed : Tree.description? (headTree kind head before after) = some head.description :=
    Tree.description?_described head.description
      (by simp [List.lookup_append, lookup_cons, hdescription])
  have hdirected : Tree.directives? (headTree kind head before after) = some head.directives := by
    rw [Tree.directives?, headTree, Tree.field?_described (by decide) (by decide), List.cons_append,
      Tree.field?_cons, if_neg (by decide), field?_append hdirectives, Tree.field?_cons,
      if_pos rfl, items?_directivesTree]
  have hnamed : Tree.name? (headTree kind head before after) = some head.name := by
    simp [Tree.name?, headTree]
  rw [TypeHead.ofTree?, hdescribed, hdirected, hnamed]
  rfl

theorem ofTree?_headTree_nil (hdescription : after.lookup "description" = none) :
    TypeHead.ofTree? (headTree kind head [] after) = some head :=
  ofTree?_headTree hdescription rfl

end Head

theorem items?_namesTree (names : List String) :
    Tree.items? Tree.namedType? (namesTree names) = some names :=
  Tree.items?_map Tree.namedType?_namedType names

theorem items?_fields (fields : List FieldNode) :
    Tree.items? FieldNode.ofTree? (.array (fields.map FieldNode.tree)) = some fields :=
  Tree.items?_map FieldNode.ofTree?_tree fields

theorem ofTree?_tree (d : Definition) : ofTree? d.tree = some d := by
  cases d with
  | scalar head =>
    have hhead : TypeHead.ofTree? (headTree "ScalarTypeDefinition" head [] []) = some head :=
      ofTree?_headTree_nil rfl
    simp [ofTree?, tree, hhead]
  | object head interfaces fields =>
    simp [ofTree?, tree, ofTree?_headTree, lookup_cons, names?, fields?, fieldsTree,
      items?_namesTree, items?_fields]
  | interface head interfaces fields =>
    simp [ofTree?, tree, ofTree?_headTree, lookup_cons, names?, fields?, fieldsTree,
      items?_namesTree, items?_fields]
  | union head members =>
    simp [ofTree?, tree, ofTree?_headTree_nil, lookup_cons, names?, items?_namesTree]
  | enum head values =>
    simp [ofTree?, tree, ofTree?_headTree_nil, lookup_cons,
      Tree.items?_map EnumValueNode.ofTree?_tree]
  | inputObject head fields =>
    simp [ofTree?, tree, ofTree?_headTree_nil, lookup_cons,
      Tree.items?_map InputValueNode.ofTree?_tree]
  | extension name fields => simp [ofTree?, tree, Tree.name?, fields?, fieldsTree, items?_fields]

end Definition

theorem Document.ofTree?_tree (d : Document) : ofTree? d.tree = some d := by
  simp [ofTree?, tree, Tree.items?_map Definition.ofTree?_tree]

end SchemaCompiler.GraphQL

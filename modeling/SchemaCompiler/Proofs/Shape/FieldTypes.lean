import Mathlib
import SchemaCompiler.GraphQL.Document.Basic
import SchemaCompiler.GraphQL.Inline
import SchemaCompiler.Proofs.Sample
import SchemaCompiler.Proofs.Shape.Classify

/-!
# The field types of plain types

A plain type is a keyword or the name of an interface, or a list of these, with `null` and
`undefined` beside it in unions. `Denotes` says which type of a schema it stands for, form by form.
Classifying, lowering and rendering it gives that type: the null of a list stays with the list and
the null of its items with the items. The one thing in the way is a configured scalar, which goes
before the meaning that `Array` and `ReadonlyArray` have of their own.
-/

namespace SchemaCompiler

open TypeScript

/-! ## Null in unions -/

namespace TypeScript.TypeExpr

/-- The type has nothing but `null` and `undefined` in it. -/
inductive OnlyNull : TypeExpr → Prop where
  | keyword {s : Span} {word : Keyword} (hword : word = .null ∨ word = .undefined) :
      OnlyNull (.keyword s word)
  | paren {s : Span} {t : TypeExpr} (ht : OnlyNull t) : OnlyNull (.paren s t)
  | union {s : Span} {types : List TypeExpr} (hsome : types ≠ [])
      (htypes : ∀ t ∈ types, OnlyNull t) : OnlyNull (.union s types)

/-- The type is `core` in parentheses and in unions that have no other member but `null` and
`undefined`; `nullish` tells whether there are any of these. -/
inductive Around (core : TypeExpr) : TypeExpr → Bool → Prop where
  | core : Around core core false
  | paren {s : Span} {t : TypeExpr} {nullish : Bool} (ht : Around core t nullish) :
      Around core (.paren s t) nullish
  | alone {s : Span} {t : TypeExpr} {nullish : Bool} (ht : Around core t nullish) :
      Around core (.union s [t]) nullish
  | beside {s : Span} {t : TypeExpr} {nullish : Bool} {before after : List TypeExpr}
      (hnulls : ∀ n ∈ before ++ after, OnlyNull n) (hsome : before ++ after ≠ [])
      (ht : Around core t nullish) : Around core (.union s (before ++ t :: after)) true

/-- The type is one member of a union, and not `null` or `undefined`. -/
def IsMember (t : TypeExpr) : Prop := members t = ([t], false)

theorem splitNullable_append (before after : List TypeExpr) :
    splitNullable (before ++ after) =
      ((splitNullable before).1 ++ (splitNullable after).1,
        (splitNullable before).2 || (splitNullable after).2) := by
  induction before with
  | nil => simp [splitNullable]
  | cons t rest ih => simp [splitNullable, ih, Bool.or_assoc]

theorem splitNullable_of_nulls {types : List TypeExpr}
    (h : ∀ t ∈ types, members t = ([], true)) : splitNullable types = ([], !types.isEmpty) := by
  induction types with
  | nil => rfl
  | cons t rest ih =>
    simp [splitNullable, h t List.mem_cons_self, ih fun u hu => h u (List.mem_cons_of_mem t hu)]

theorem OnlyNull.members_eq {t : TypeExpr} (h : OnlyNull t) : members t = ([], true) := by
  induction h with
  | keyword hword => rw [members, if_pos hword]
  | paren ht ih => rw [members, ih]
  | union hsome htypes ih =>
    rw [members, splitNullable_of_nulls ih]
    simpa using hsome

theorem Around.members_eq {core t : TypeExpr} {nullish : Bool} (h : Around core t nullish)
    (hcore : core.IsMember) : members t = ([core], nullish) := by
  induction h with
  | core => exact hcore
  | paren ht ih => rw [members, ih]
  | alone ht ih => simp [members, splitNullable, ih]
  | @beside s t nullish before after hnulls hsome ht ih =>
    have hbefore := splitNullable_of_nulls fun n hn =>
      (hnulls n (List.mem_append_left after hn)).members_eq
    have hafter := splitNullable_of_nulls fun n hn =>
      (hnulls n (List.mem_append_right before hn)).members_eq
    rw [members, splitNullable_append, splitNullable, ih, hbefore, hafter]
    simp only [List.nil_append, List.append_nil, Prod.mk.injEq, true_and]
    cases before with
    | cons => simp
    | nil =>
      cases after with
      | cons => simp
      | nil => exact absurd rfl hsome

theorem Around.splitNullable_eq {core : TypeExpr} {types : List TypeExpr} {nullish : Bool}
    (h : Around core (.union ⟨0, 0⟩ types) nullish) (hcore : core.IsMember) :
    splitNullable types = ([core], nullish) := by
  rw [← h.members_eq hcore, members]

end TypeScript.TypeExpr

open TypeExpr

/-! ## Plain types -/

namespace Classifier

variable {c : Classifier} {m : SourceModule}

/-- A keyword or the name of an interface, with the name of the schema type that it stands for. -/
inductive Leaf (c : Classifier) (m : SourceModule) : TypeExpr → String → Prop where
  | string {s : Span} : Leaf c m (.keyword s .string) "String"
  | number {s : Span} : Leaf c m (.keyword s .number) "Float"
  | boolean {s : Span} : Leaf c m (.keyword s .boolean) "Boolean"
  | interface {s : Span} {entity : EntityName} {arguments : List TypeExpr} {d : TypeDecl}
      {i : Interface} (hname : c.resolveEntity m entity = .declared d)
      (hnode : d.node = .interface i) (hscalar : c.scalarMeaning? m entity (.declared d) = none) :
      Leaf c m (.reference s entity arguments) d.name

/-- A list of an element, and the name that it is written with if it is written with one. -/
inductive Lists (m : SourceModule) : Option String → TypeExpr → TypeExpr → Prop where
  | array {s : Span} {element : TypeExpr} : Lists m none (.array s element) element
  | readonly {s s' : Span} {element : TypeExpr} :
      Lists m none (.readonly s (.array s' element)) element
  | named {s : Span} {name : String} {element : TypeExpr}
      (hname : name = "Array" ∨ name = "ReadonlyArray") (hdeclared : Program.declares m name = false)
      (himported : m.symbols.imports.get? name = none) :
      Lists m (some name) (.reference s (.ident name) [element]) element

end Classifier

/-- A type that is there when it is not nullable. -/
def GraphQL.TypeNode.orNull (t : GraphQL.TypeNode) (nullable : Bool) : GraphQL.TypeNode :=
  if nullable then t else .nonNull t

namespace Classifier

variable {c : Classifier} {m : SourceModule}

/-- The schema type that a plain type stands for as the type of a property. The first argument tells
whether the property is optional, the second one is the name that a list is written with. -/
inductive Denotes (c : Classifier) (m : SourceModule) (optional : Bool) :
    Option String → TypeExpr → GraphQL.TypeNode → Prop where
  | single {core t : TypeExpr} {name : String} {nullish : Bool} (hleaf : Leaf c m core name)
      (ht : Around core t nullish) :
      Denotes c m optional none t ((GraphQL.TypeNode.named name).orNull (nullish || optional))
  | list {leaf element core t : TypeExpr} {name : String} {written : Option String}
      {itemNullish nullish : Bool} (hleaf : Leaf c m leaf name)
      (helement : Around leaf element itemNullish) (hlist : Lists m written core element)
      (ht : Around core t nullish) :
      Denotes c m optional written t
        ((GraphQL.TypeNode.list ((GraphQL.TypeNode.named name).orNull itemNullish)).orNull
          (nullish || optional))

theorem Leaf.isMember {core : TypeExpr} {name : String} (h : Leaf c m core name) :
    core.IsMember := by
  cases h <;> rfl

theorem Lists.isMember {written : Option String} {core element : TypeExpr}
    (h : Lists m written core element) : core.IsMember := by
  cases h <;> rfl

/-! ## Classifying -/

/-- The shapes of leaves, with the names that they get in a schema. -/
inductive PlainShape : TypeShape → String → Prop where
  | primitive (kind : Primitive) : PlainShape (.primitive kind) (GraphQL.Lowering.primitiveName kind)
  | reference (name : String) : PlainShape (.reference name) name

theorem Leaf.classifyAt_eq {core : TypeExpr} {name : String} (h : Leaf c m core name) :
    ∃ shape, PlainShape shape name ∧
      ∀ depth ≤ maxDepth, c.classifyAt m core depth = ⟨⟨shape, false⟩, []⟩ := by
  cases h with
  | string =>
    refine ⟨_, .primitive .string, fun depth hdepth => ?_⟩
    rw [classifyAt_keyword hdepth]
    rfl
  | number =>
    refine ⟨_, .primitive .number, fun depth hdepth => ?_⟩
    rw [classifyAt_keyword hdepth]
    rfl
  | boolean =>
    refine ⟨_, .primitive .boolean, fun depth hdepth => ?_⟩
    rw [classifyAt_keyword hdepth]
    rfl
  | @interface s entity arguments d i hname hnode hscalar =>
    refine ⟨_, .reference d.name, fun depth hdepth => ?_⟩
    have hmeaning : c.meaning m entity arguments depth = .type (.reference d.name) := by
      simp only [meaning, hname, hscalar, plainMeaning, hnode]
    rw [classifyAt_reference hdepth, hmeaning]
    rfl

/-- A type is read as the only member that its unions have, with the null beside it. -/
theorem classifyAt_around {core t : TypeExpr} {nullish : Bool} (h : Around core t nullish)
    (hcore : core.IsMember) {shape : TypeShape} {depth : Nat} (hdepth : depth + 1 ≤ maxDepth)
    (hread : ∀ d ≤ depth + 1, c.classifyAt m core d = ⟨⟨shape, false⟩, []⟩) :
    c.classifyAt m t depth = ⟨⟨shape, nullish⟩, []⟩ := by
  have hunion : ∀ (s : Span) (types : List TypeExpr) (flag : Bool),
      TypeExpr.splitNullable types = ([core], flag) →
        c.classifyAt m (.union s types) depth = ⟨⟨shape, flag⟩, []⟩ := by
    intro s types flag hsplit
    rw [classifyAt_union_single (Nat.le_of_succ_le hdepth) s hsplit, hread _ (Nat.le_refl _)]
    exact congrArg (fun b => (⟨⟨shape, b⟩, []⟩ : Reported TypeRef)) (Bool.false_or flag)
  induction h with
  | core => exact hread depth (Nat.le_succ depth)
  | paren ht ih => rw [classifyAt_paren (Nat.le_of_succ_le hdepth), ih]
  | alone ht =>
    exact hunion _ _ _ ((Around.alone ht).splitNullable_eq hcore)
  | beside hnulls hsome ht =>
    exact hunion _ _ _ ((Around.beside hnulls hsome ht).splitNullable_eq hcore)

theorem resolveEntity_unknown {name : String} (hm : c.program.module? m.path = some m)
    (hdeclared : Program.declares m name = false) (himported : m.symbols.imports.get? name = none)
    (hruntime : name ∉ runtimeTypes) : c.resolveEntity m (.ident name) = .unknown name := by
  have hresolve : c.program.resolveName m.path name = none := by
    simp [Program.resolveName, Program.resolveNameWith, hm, hdeclared, himported]
  simp [resolveEntity, resolveLocal, hresolve, hruntime]

theorem not_mem_runtimeTypes {name : String} (hname : name = "Array" ∨ name = "ReadonlyArray") :
    name ∉ runtimeTypes := by
  rcases hname with rfl | rfl <;> decide

theorem meaning_list {name : String} (hm : c.program.module? m.path = some m)
    (hname : name = "Array" ∨ name = "ReadonlyArray") (hdeclared : Program.declares m name = false)
    (himported : m.symbols.imports.get? name = none)
    (hmapped : c.mappedScalar? m (.ident name) (.unknown name) = none) (element : TypeExpr)
    (depth : Nat) : c.meaning m (.ident name) [element] depth = .list element := by
  have hlist : (name == "Array" || name == "ReadonlyArray") = true := by
    rcases hname with rfl | rfl <;> decide
  simp only [meaning, resolveEntity_unknown hm hdeclared himported (not_mem_runtimeTypes hname),
    scalarMeaning?, hmapped, Option.or_none, Option.map_none, plainMeaning, hlist, if_true]

theorem Lists.classifyAt_eq {written : Option String} {core element : TypeExpr}
    (h : Lists m written core element) (hm : c.program.module? m.path = some m)
    (hmapped : ∀ name ∈ written, c.mappedScalar? m (.ident name) (.unknown name) = none)
    {depth : Nat} (hdepth : depth ≤ maxDepth) {shape : TypeShape} {itemNullish : Bool}
    (helement : c.classifyAt m element (depth + 1) = ⟨⟨shape, itemNullish⟩, []⟩) :
    c.classifyAt m core depth = ⟨⟨.array ⟨shape, itemNullish⟩, false⟩, []⟩ := by
  cases h with
  | array =>
    rw [classifyAt_array hdepth, helement]
    rfl
  | readonly =>
    rw [classifyAt_readonly hdepth, classifyAt_array hdepth, helement]
    rfl
  | named hname hdeclared himported =>
    rw [classifyAt_reference hdepth,
      meaning_list hm hname hdeclared himported (hmapped _ rfl), follow, helement]
    rfl

/-! ## Lowering -/

section Lower

open GraphQL GraphQL.Lowering

variable {shape : TypeShape} {name : String} (h : PlainShape shape name) (side : Side)
  (hint : String) (location : Option SourceLocation)

include h

theorem PlainShape.typeName_eq : typeName side hint location shape = pure name := by
  cases h with
  | primitive kind => rw [typeName]
  | reference name => rw [typeName]

theorem PlainShape.fieldType_single (optional nullish : Bool) :
    fieldType side hint location optional ⟨shape, nullish⟩ =
      pure (.named name (nullish || optional)) := by
  have hname := h.typeName_eq side hint location
  cases h with
  | primitive kind => rw [fieldType, hname, pure_bind]; simp
  | reference name => rw [fieldType, hname, pure_bind]; simp

theorem PlainShape.fieldType_list (optional itemNullish nullish : Bool) :
    fieldType side hint location optional ⟨.array ⟨shape, itemNullish⟩, nullish⟩ =
      pure (.listOf name (nullish || optional) itemNullish) := by
  have hflat : isArray shape = false := by cases h <;> rfl
  rw [fieldType, hflat, elementName, h.typeName_eq]
  rfl

end Lower

/-! ## Rendering -/

theorem ofFieldType_named (name : String) (nullable : Bool) :
    GraphQL.TypeNode.ofFieldType (.named name nullable) =
      (GraphQL.TypeNode.named name).orNull nullable := by
  cases nullable <;> rfl

theorem ofFieldType_listOf (name : String) (nullable itemNullable : Bool) :
    GraphQL.TypeNode.ofFieldType (.listOf name nullable itemNullable) =
      (GraphQL.TypeNode.list ((GraphQL.TypeNode.named name).orNull itemNullable)).orNull
        nullable := by
  cases nullable <;> cases itemNullable <;> rfl

/-! ## All stages -/

/-- What classifying at some depth, zero for `classify`, lowering and rendering make of the type of a
property: nothing is reported or made on the way, and `node` comes out. -/
def GivesType (c : Classifier) (m : SourceModule) (depth : Nat) (optional : Bool) (t : TypeExpr)
    (node : GraphQL.TypeNode) : Prop :=
  (c.classifyAt m t depth).diagnostics = [] ∧
    ∀ (side : Side) (hint : String) (location : Option SourceLocation),
      ∃ type, GraphQL.Lowering.fieldType side hint location optional
        (c.classifyAt m t depth).value = pure type ∧ GraphQL.TypeNode.ofFieldType type = node

theorem givesType_single {optional nullish : Bool} {core t : TypeExpr} {name : String}
    {depth : Nat} (hdepth : depth + 1 ≤ maxDepth) (hleaf : Leaf c m core name)
    (ht : Around core t nullish) :
    GivesType c m depth optional t ((GraphQL.TypeNode.named name).orNull (nullish || optional)) := by
  obtain ⟨shape, hshape, hread⟩ := hleaf.classifyAt_eq
  have hclassify : c.classifyAt m t depth = ⟨⟨shape, nullish⟩, []⟩ :=
    classifyAt_around ht hleaf.isMember hdepth fun d hd => hread d (by omega)
  rw [GivesType, hclassify]
  refine ⟨rfl, fun side hint location => ⟨.named name (nullish || optional), ?_, ?_⟩⟩
  · exact hshape.fieldType_single side hint location optional nullish
  · exact ofFieldType_named name (nullish || optional)

theorem givesType_list {optional itemNullish nullish : Bool} {leaf element core t : TypeExpr}
    {name : String} {written : Option String} {depth : Nat} (hdepth : depth + 3 ≤ maxDepth)
    (hm : c.program.module? m.path = some m)
    (hmapped : ∀ name ∈ written, c.mappedScalar? m (.ident name) (.unknown name) = none)
    (hleaf : Leaf c m leaf name) (helement : Around leaf element itemNullish)
    (hlist : Lists m written core element) (ht : Around core t nullish) :
    GivesType c m depth optional t
      ((GraphQL.TypeNode.list ((GraphQL.TypeNode.named name).orNull itemNullish)).orNull
        (nullish || optional)) := by
  obtain ⟨shape, hshape, hread⟩ := hleaf.classifyAt_eq
  have hitem : ∀ d ≤ depth + 2, c.classifyAt m element d = ⟨⟨shape, itemNullish⟩, []⟩ :=
    fun d hd => classifyAt_around helement hleaf.isMember (by omega)
      fun d' hd' => hread d' (by omega)
  have hcore : ∀ d ≤ depth + 1,
      c.classifyAt m core d = ⟨⟨.array ⟨shape, itemNullish⟩, false⟩, []⟩ :=
    fun d hd => hlist.classifyAt_eq hm hmapped (by omega) (hitem (d + 1) (by omega))
  have hclassify : c.classifyAt m t depth = ⟨⟨.array ⟨shape, itemNullish⟩, nullish⟩, []⟩ :=
    classifyAt_around ht hlist.isMember (by omega) hcore
  rw [GivesType, hclassify]
  refine ⟨rfl, fun side hint location => ⟨.listOf name (nullish || optional) itemNullish, ?_, ?_⟩⟩
  · exact hshape.fieldType_list side hint location optional itemNullish nullish
  · exact ofFieldType_listOf name (nullish || optional) itemNullish

/-- A plain type gives the schema type that it denotes, unless it is a list written with a name that
is configured as a scalar. -/
theorem givesType_of_denotes {optional : Bool} {written : Option String} {t : TypeExpr}
    {node : GraphQL.TypeNode} (hm : c.program.module? m.path = some m)
    (h : Denotes c m optional written t node)
    (hmapped : ∀ name ∈ written, c.mappedScalar? m (.ident name) (.unknown name) = none) :
    ∀ depth, depth + 3 ≤ maxDepth → GivesType c m depth optional t node := by
  intro depth hdepth
  cases h with
  | single hleaf ht => exact givesType_single (by omega) hleaf ht
  | list hleaf helement hlist ht => exact givesType_list hdepth hm hmapped hleaf helement hlist ht

end Classifier

/-! ## Lists by name -/

namespace Sample

attribute [local irreducible] String.decEq

/-- A classifier for one module under a configuration. -/
def configured (mappings : List ScalarMapping) (m : SourceModule) : Classifier :=
  ⟨⟨[m]⟩, (ScalarRegistry.build ⟨[m]⟩ mappings).value⟩

def userModule : SourceModule := sourceModule [interface "User" []] []

def userDecl : TypeDecl := ⟨userModule, "User", .interface ⟨span, "User", false, [], []⟩, 0⟩

/-- A list that is written with the name `Array`. -/
def texts : TypeExpr := applied "Array" [keyword .string]

/-- A configuration that maps the name `Array` to a scalar. -/
def arrayMapping : ScalarMapping := ⟨"Arr", "Array", none, none, none⟩

def textsRun : Outcome ((configured [arrayMapping] userModule).classify userModule texts) :=
  ⟨⟨Classifier.scalarType ⟨"Arr", "Array", none, true, none⟩, []⟩, by cbv⟩

/-- A list of users of which each may be missing, and which may be missing itself. -/
def users : TypeExpr :=
  union [.paren span (applied "Array" [union [keyword .null, named "User"]]), keyword .undefined]

theorem leaf_user : (configured [] userModule).Leaf userModule (named "User") "User" :=
  .interface (show (configured [] userModule).resolveEntity userModule (.ident "User") =
    .declared userDecl by cbv) rfl (by cbv)

theorem onlyNull_keyword {word : Keyword} (h : word = .null ∨ word = .undefined) :
    ∀ n ∈ [keyword word], n.OnlyNull := by
  simpa using .keyword h

theorem denotes_users :
    (configured [] userModule).Denotes userModule false (some "Array") users
      (.list (.named "User")) := by
  have hitem : Around (named "User") (union ([keyword .null] ++ [named "User"])) true :=
    .beside (onlyNull_keyword (Or.inl rfl)) (by simp) .core
  have hlist : Around (applied "Array" [union [keyword .null, named "User"]])
      (union ([] ++ .paren span (applied "Array" [union [keyword .null, named "User"]]) ::
        [keyword .undefined])) true :=
    .beside (onlyNull_keyword (Or.inr rfl)) (by simp) (.paren .core)
  exact .list leaf_user hitem (.named (Or.inl rfl) (by cbv) (by cbv)) hlist

theorem denotes_texts :
    (configured [arrayMapping] userModule).Denotes userModule false (some "Array") texts
      (.nonNull (.list (.nonNull (.named "String")))) :=
  .list .string .core (.named (Or.inl rfl) (by cbv) (by cbv)) .core

theorem classify_texts :
    (configured [arrayMapping] userModule).classify userModule texts =
      ⟨Classifier.scalarType ⟨"Arr", "Array", none, true, none⟩, []⟩ :=
  textsRun.eq

end Sample

open Sample

/-- Users may be missing one by one and all together. -/
theorem givesType_users :
    (configured [] userModule).program.module? userModule.path = some userModule ∧
      (configured [] userModule).Denotes userModule false (some "Array") users
        (.list (.named "User")) ∧
        (configured [] userModule).GivesType userModule 0 false users (.list (.named "User")) := by
  have hmodule : (configured [] userModule).program.module? userModule.path = some userModule := by
    cbv
  have hmapped : ∀ name ∈ some "Array",
      (configured [] userModule).mappedScalar? userModule (.ident name) (.unknown name) = none := by
    rintro name ⟨⟩
    cbv
  refine ⟨hmodule, denotes_users, ?_⟩
  exact Classifier.givesType_of_denotes hmodule denotes_users hmapped 0 (by decide)

/-- Where the configuration maps `Array` to a scalar, a list that is written with this name becomes
the scalar. -/
theorem list_becomes_scalar :
    (configured [arrayMapping] userModule).program.module? userModule.path = some userModule ∧
      (configured [arrayMapping] userModule).Denotes userModule false (some "Array") texts
        (.nonNull (.list (.nonNull (.named "String")))) ∧
        ¬ (configured [arrayMapping] userModule).GivesType userModule 0 false texts
          (.nonNull (.list (.nonNull (.named "String")))) := by
  refine ⟨by cbv, denotes_texts, ?_⟩
  rintro ⟨-, hgives⟩
  obtain ⟨type, hrun, hnode⟩ := hgives .output "" none
  rw [show (configured [arrayMapping] userModule).classifyAt userModule texts 0 = _ from
    classify_texts] at hrun
  have htype : .named "Arr" false = type := congrArg (fun run => (run {}).1) hrun
  subst htype
  cases hnode

end SchemaCompiler

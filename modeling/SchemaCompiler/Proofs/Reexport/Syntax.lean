import Mathlib
import SchemaCompiler.Exported.Collect
import SchemaCompiler.Proofs.Lists

/-!
# The same syntax in another place

Two syntax trees of two modules are the same when they differ in nothing but their places, and the
modules say the same there: the same text stands at a place, and the same comment in front of it.
Both use only names of some kind.
-/

namespace SchemaCompiler

open TypeScript

/-- What is compared: two modules, and the names that may stand in them. -/
structure Comparison where
  here : SourceModule
  there : SourceModule
  Known : String → Prop

namespace Comparison

variable (k : Comparison)

/-- Comments say the same in front of two places. -/
def SameDoc (offset offset' : Nat) : Prop := k.here.docAt offset = k.there.docAt offset'

structure SamePlace (s s' : Span) : Prop where
  snippet : k.here.snippet s = k.there.snippet s'
  doc : k.SameDoc s.lo s'.lo

def KnownEntity : EntityName → Prop
  | .ident name => k.Known name
  | .qualified left right => KnownEntity left ∧ k.Known right

/-! ## Types -/

mutual

inductive SameType : TypeExpr → TypeExpr → Prop where
  | keyword {s s' : Span} (hs : k.SamePlace s s') (word : Keyword) :
    SameType (.keyword s word) (.keyword s' word)
  | literal {s s' : Span} (hs : k.SamePlace s s') (value : TypeLiteral) :
    SameType (.literal s value) (.literal s' value)
  | reference {s s' : Span} (hs : k.SamePlace s s') {name : EntityName} (hname : k.KnownEntity name)
    {arguments arguments' : List TypeExpr}
    (harguments : List.Forall₂ SameType arguments arguments') :
    SameType (.reference s name arguments) (.reference s' name arguments')
  | object {s s' : Span} (hs : k.SamePlace s s') {members members' : List Member}
    (hmembers : List.Forall₂ SameMember members members') :
    SameType (.object s members) (.object s' members')
  | array {s s' : Span} (hs : k.SamePlace s s') {element element' : TypeExpr}
    (helement : SameType element element') : SameType (.array s element) (.array s' element')
  | union {s s' : Span} (hs : k.SamePlace s s') {types types' : List TypeExpr}
    (htypes : List.Forall₂ SameType types types') : SameType (.union s types) (.union s' types')
  | intersection {s s' : Span} (hs : k.SamePlace s s') {types types' : List TypeExpr}
    (htypes : List.Forall₂ SameType types types') :
    SameType (.intersection s types) (.intersection s' types')
  | paren {s s' : Span} (hs : k.SamePlace s s') {inner inner' : TypeExpr}
    (hinner : SameType inner inner') : SameType (.paren s inner) (.paren s' inner')
  | readonly {s s' : Span} (hs : k.SamePlace s s') {inner inner' : TypeExpr}
    (hinner : SameType inner inner') : SameType (.readonly s inner) (.readonly s' inner')
  | other {s s' : Span} (hs : k.SamePlace s s') : SameType (.other s) (.other s')

inductive SameMember : Member → Member → Prop where
  | typed {s s' : Span} (hs : k.SamePlace s s') (key : PropertyKey) (optional : Bool)
    {t t' : TypeExpr} (ht : SameType t t') :
    SameMember (.property s key optional (some t)) (.property s' key optional (some t'))
  | untyped {s s' : Span} (hs : k.SamePlace s s') (key : PropertyKey) (optional : Bool) :
    SameMember (.property s key optional none) (.property s' key optional none)
  | index {s s' : Span} (hs : k.SamePlace s s') : SameMember (.index s) (.index s')
  | method {s s' : Span} (hs : k.SamePlace s s') : SameMember (.method s) (.method s')
  | other : SameMember .other .other

end

variable {k}

section Types

variable {t t' : TypeExpr} {types types' : List TypeExpr}

namespace SameType

theorem span (h : k.SameType t t') : k.SamePlace t.span t'.span := by
  cases h <;> assumption

theorem stripParens (h : k.SameType t t') : k.SameType t.stripParens t'.stripParens := by
  fun_induction TypeExpr.stripParens t generalizing t' with
  | case1 s inner ih =>
    cases h with
    | paren _ hinner =>
      rw [TypeExpr.stripParens]
      exact ih hinner
  | case2 t hparen =>
    have hself : t'.stripParens = t' := by
      cases h with
      | paren _ _ => exact absurd rfl (hparen _ _)
      | _ => rfl
    rw [hself]
    exact h

theorem stringLiteral? (h : k.SameType t t') : t.stringLiteral? = t'.stringLiteral? := by
  have hstrip := h.stripParens
  rw [TypeExpr.stringLiteral?, TypeExpr.stringLiteral?]
  generalize t.stripParens = u, t'.stripParens = u' at hstrip
  cases hstrip with
  | literal _ value => cases value <;> rfl
  | _ => rfl

theorem isBooleanLiteral (h : k.SameType t t') : t.isBooleanLiteral = t'.isBooleanLiteral := by
  have hstrip := h.stripParens
  rw [TypeExpr.isBooleanLiteral, TypeExpr.isBooleanLiteral]
  generalize t.stripParens = u, t'.stripParens = u' at hstrip
  cases hstrip with
  | literal _ value => cases value <;> rfl
  | _ => rfl

theorem mapM_stringLiteral? (h : List.Forall₂ k.SameType types types') :
    types.mapM TypeExpr.stringLiteral? = types'.mapM TypeExpr.stringLiteral? := by
  induction h with
  | nil => rfl
  | cons hfirst _ ih => rw [List.mapM_cons, List.mapM_cons, hfirst.stringLiteral?, ih]

theorem literalKeys? (h : k.SameType t t') : t.literalKeys? = t'.literalKeys? := by
  have hstrip := h.stripParens
  rw [TypeExpr.literalKeys?, TypeExpr.literalKeys?]
  generalize t.stripParens = u, t'.stripParens = u' at hstrip
  have hsingle := congrArg (Option.map ([·])) hstrip.stringLiteral?
  cases hstrip with
  | union _ htypes => exact mapM_stringLiteral? htypes
  | _ => exact hsingle

theorem alternatives (h : k.SameType t t') :
    List.Forall₂ k.SameType t.alternatives t'.alternatives := by
  have hstrip := h.stripParens
  rw [TypeExpr.alternatives, TypeExpr.alternatives]
  generalize t.stripParens = u, t'.stripParens = u' at hstrip
  have hsingle : List.Forall₂ k.SameType [u] [u'] := .cons hstrip .nil
  cases hstrip with
  | union _ htypes => exact htypes
  | _ => exact hsingle

mutual

/-- The same members, and `null` is among both or neither. -/
theorem members {t t' : TypeExpr} (h : k.SameType t t') :
    List.Forall₂ k.SameType (TypeExpr.members t).1 (TypeExpr.members t').1 ∧
      (TypeExpr.members t).2 = (TypeExpr.members t').2 :=
  match t, t', h with
  | .paren _ inner, .paren _ inner', .paren _ hinner => by
    rw [TypeExpr.members, TypeExpr.members]
    exact SameType.members hinner
  | .union _ types, .union _ types', .union _ htypes => by
    rw [TypeExpr.members, TypeExpr.members]
    exact SameType.splitNullable htypes
  | _, _, .keyword hs word => by
    rw [TypeExpr.members, TypeExpr.members]
    split
    · exact ⟨.nil, rfl⟩
    · exact ⟨.cons (.keyword hs word) .nil, rfl⟩
  | _, _, .literal hs value => ⟨.cons (.literal hs value) .nil, rfl⟩
  | _, _, .reference hs hname harguments => ⟨.cons (.reference hs hname harguments) .nil, rfl⟩
  | _, _, .object hs hmembers => ⟨.cons (.object hs hmembers) .nil, rfl⟩
  | _, _, .array hs helement => ⟨.cons (.array hs helement) .nil, rfl⟩
  | _, _, .intersection hs htypes => ⟨.cons (.intersection hs htypes) .nil, rfl⟩
  | _, _, .readonly hs hinner => ⟨.cons (.readonly hs hinner) .nil, rfl⟩
  | _, _, .other hs => ⟨.cons (.other hs) .nil, rfl⟩

theorem splitNullable {types types' : List TypeExpr} (h : List.Forall₂ k.SameType types types') :
    List.Forall₂ k.SameType (TypeExpr.splitNullable types).1 (TypeExpr.splitNullable types').1 ∧
      (TypeExpr.splitNullable types).2 = (TypeExpr.splitNullable types').2 :=
  match types, types', h with
  | [], [], _ => ⟨.nil, rfl⟩
  | t :: rest, t' :: rest', .cons hfirst hrest => by
    rw [TypeExpr.splitNullable, TypeExpr.splitNullable]
    obtain ⟨hmembers, hflag⟩ := SameType.members hfirst
    obtain ⟨hmore, hflags⟩ := SameType.splitNullable hrest
    exact ⟨List.rel_append hmembers hmore, by rw [hflag, hflags]⟩

end

theorem mergeQueue (h : List.Forall₂ k.SameType types types') :
    List.Forall₂ k.SameType (TypeExpr.mergeQueue types) (TypeExpr.mergeQueue types') := by
  fun_induction TypeExpr.mergeQueue types generalizing types' with
  | case1 =>
    cases h
    rw [TypeExpr.mergeQueue]
    exact .nil
  | case2 s inner queue ih =>
    obtain _ | ⟨hfirst, hrest⟩ := h
    cases hfirst with
    | paren _ hinner =>
      rw [TypeExpr.mergeQueue]
      exact ih (forall₂_snoc hrest hinner)
  | case3 s parts queue ih =>
    obtain _ | ⟨hfirst, hrest⟩ := h
    cases hfirst with
    | intersection _ hparts =>
      rw [TypeExpr.mergeQueue]
      exact ih (List.rel_append hrest hparts)
  | case4 t queue hparen hintersection ih =>
    obtain _ | ⟨hfirst, hrest⟩ := h
    have hkept : ∀ t' queue', k.SameType t t' →
        TypeExpr.mergeQueue (t' :: queue') = t' :: TypeExpr.mergeQueue queue' := by
      intro t' queue' h
      cases h with
      | paren _ _ => exact absurd rfl (hparen _ _)
      | intersection _ _ => exact absurd rfl (hintersection _ _)
      | _ => rw [TypeExpr.mergeQueue] <;> simp
    rw [hkept _ _ hfirst]
    exact .cons hfirst (ih hrest)

theorem mergeOrder (h : k.SameType t t') :
    List.Forall₂ k.SameType t.mergeOrder t'.mergeOrder :=
  mergeQueue (.cons h .nil)

end SameType

end Types

/-! ## Declarations -/

variable (k)

structure SameHeritage (a b : Heritage) : Prop where
  place : k.SamePlace a.span b.span
  name : a.name = b.name
  known : ∀ name ∈ a.name, k.Known name

structure SameInterface (a b : Interface) : Prop where
  place : k.SamePlace a.span b.span
  name : a.name = b.name
  generic : a.generic = b.generic
  parents : List.Forall₂ k.SameHeritage a.parents b.parents
  members : List.Forall₂ k.SameMember a.members b.members

structure SameAlias (a b : Alias) : Prop where
  place : k.SamePlace a.span b.span
  name : a.name = b.name
  generic : a.generic = b.generic
  body : k.SameType a.body b.body

/-- Of the value of a member only what is known of it counts. -/
structure SameEnumMember (a b : EnumMember) : Prop where
  place : k.SamePlace a.span b.span
  name : a.name = b.name
  value : EnumLiteral.valueOf a.init = EnumLiteral.valueOf b.init

structure SameEnum (a b : Enum) : Prop where
  place : k.SamePlace a.span b.span
  name : a.name = b.name
  isConst : a.isConst = b.isConst
  members : List.Forall₂ k.SameEnumMember a.members b.members

inductive SameNode : TypeNode → TypeNode → Prop where
  | ofInterface {a b : Interface} (h : k.SameInterface a b) : SameNode (.interface a) (.interface b)
  | ofAlias {a b : Alias} (h : k.SameAlias a b) : SameNode (.alias a) (.alias b)
  | ofEnum {a b : Enum} (h : k.SameEnum a b) : SameNode (.enum a) (.enum b)

variable {k}

theorem SameNode.span {a b : TypeNode} (h : k.SameNode a b) : k.SamePlace a.span b.span := by
  cases h with
  | ofInterface h => exact h.place
  | ofAlias h => exact h.place
  | ofEnum h => exact h.place

theorem SameNode.isGeneric {a b : TypeNode} (h : k.SameNode a b) : a.isGeneric = b.isGeneric := by
  cases h with
  | ofInterface h => exact h.generic
  | ofAlias h => exact h.generic
  | ofEnum h => rfl

/-- The first comment in front of two places is the same. -/
theorem docAtAny_eq {x x' y y' : Nat} (hx : k.SameDoc x x') (hy : k.SameDoc y y') :
    k.here.docAtAny [x, y] = k.there.docAtAny [x', y'] := by
  have hdocs : [x, y].map k.here.docAt = [x', y'].map k.there.docAt := by
    simp only [List.map_cons, List.map_nil, show k.here.docAt x = _ from hx,
      show k.here.docAt y = _ from hy]
  exact congrArg (fun docs => (docs.find? (!·.isEmpty)).getD Doc.empty) hdocs

/-! ## A module and itself -/

variable (k) in
/-- A module is compared with itself, and any name may stand in it. -/
structure Trivial : Prop where
  same : k.here = k.there
  known : ∀ name, k.Known name

theorem Trivial.doc (h : k.Trivial) (offset : Nat) : k.SameDoc offset offset := by
  rw [SameDoc, h.same]

theorem Trivial.place (h : k.Trivial) (s : Span) : k.SamePlace s s :=
  ⟨by rw [h.same], h.doc s.lo⟩

theorem Trivial.entity (h : k.Trivial) (name : EntityName) : k.KnownEntity name := by
  induction name with
  | ident name => exact h.known name
  | qualified left right ih => exact ⟨ih, h.known right⟩

mutual

theorem Trivial.type (h : k.Trivial) (t : TypeExpr) : k.SameType t t :=
  match t with
  | .keyword s word => .keyword (h.place s) word
  | .literal s value => .literal (h.place s) value
  | .reference s name arguments => .reference (h.place s) (h.entity name) (h.types arguments)
  | .object s members => .object (h.place s) (h.members members)
  | .array s element => .array (h.place s) (h.type element)
  | .union s types => .union (h.place s) (h.types types)
  | .intersection s types => .intersection (h.place s) (h.types types)
  | .paren s inner => .paren (h.place s) (h.type inner)
  | .readonly s inner => .readonly (h.place s) (h.type inner)
  | .other s => .other (h.place s)

theorem Trivial.types (h : k.Trivial) (types : List TypeExpr) :
    List.Forall₂ k.SameType types types :=
  match types with
  | [] => .nil
  | t :: rest => .cons (h.type t) (h.types rest)

theorem Trivial.member (h : k.Trivial) (member : Member) : k.SameMember member member :=
  match member with
  | .property s key optional (some t) => .typed (h.place s) key optional (h.type t)
  | .property s key optional none => .untyped (h.place s) key optional
  | .index s => .index (h.place s)
  | .method s => .method (h.place s)
  | .other => .other

theorem Trivial.members (h : k.Trivial) (members : List Member) :
    List.Forall₂ k.SameMember members members :=
  match members with
  | [] => .nil
  | member :: rest => .cons (h.member member) (h.members rest)

end

theorem Trivial.node (h : k.Trivial) (node : TypeNode) : k.SameNode node node := by
  rcases node with decl | decl | decl
  · have hparents : List.Forall₂ k.SameHeritage decl.parents decl.parents :=
      List.forall₂_same.mpr fun parent _ => ⟨h.place _, rfl, fun name _ => h.known name⟩
    exact .ofInterface ⟨h.place _, rfl, rfl, hparents, h.members _⟩
  · exact .ofAlias ⟨h.place _, rfl, rfl, h.type _⟩
  · have hmembers : List.Forall₂ k.SameEnumMember decl.members decl.members :=
      List.forall₂_same.mpr fun member _ => ⟨h.place _, rfl, rfl⟩
    exact .ofEnum ⟨h.place _, rfl, rfl, hmembers⟩

end Comparison

end SchemaCompiler

import SchemaCompiler.Shape.Names

/-!
# From type expressions to shapes

`Classifier.classify` gives every type expression a shape. What a schema cannot express is reported
and becomes a string, so that later stages can go on.

Names are followed into other declarations; `depth` counts how far. Every step into another
declaration goes one deeper and stops behind `maxDepth`, and every other step goes into a part of the
type at hand, so reading ends on cyclic programs too.
-/

namespace SchemaCompiler

open TypeScript

namespace Classifier

/-! ## What cannot be expressed -/

def refuse (m : SourceModule) (span : Span) (message : String) : Reported TypeRef :=
  ⟨.primitive .string, [.error .unsupportedSyntax message (some (m.location span))]⟩

/-- Refuses a type and quotes it. -/
def unsupported (m : SourceModule) (t : TypeExpr) (reason : String) : Reported TypeRef :=
  refuse m t.span ("unsupported type `" ++ m.snippet t.span ++ "`: " ++ reason)

/-! ## References -/

/-- What a reference to a type comes to, before the types that it leads to are looked at. -/
inductive Meaning where
  | type (t : TypeRef)
  | refused (message : String)
  | list (element : TypeExpr)
  | utility (u : Utility)
  /-- An alias that is only another name for its body. -/
  | alias (m : SourceModule) (body : TypeExpr)

def scalarType (use : ScalarUse) : TypeRef := .plain (.scalar use)

/-- A name of the runtime package that has a meaning of its own. -/
def runtimeMeaning? (m : SourceModule) (arguments : List TypeExpr) (name : String) :
    Option Meaning :=
  match runtimeScalars.lookup name with
  | some graphql => some (.type (scalarType ⟨graphql, name, none, false, none⟩))
  | none =>
    if name == "DefineScalar" then
      match ScalarArguments.read m arguments with
      | .ok a => some (.type (scalarType ⟨a.scalar, a.scalar, some a.base, true, a.only⟩))
      | .error message => some (.refused message)
    else if name == "DefineInterface" then
      some (.refused "DefineInterface must be given a name with a type alias")
    else none

/-- A declared or configured scalar. -/
def scalarMeaning? (c : Classifier) (m : SourceModule) (entity : EntityName) (named : Named) :
    Option Meaning :=
  let declared :=
    match named with
    | .declared decl => c.scalars.declared? decl.symbol
    | _ => none
  (declared.or (c.mappedScalar? m entity named)).map fun b => .type (scalarType b.use)

/-- Every other name. -/
def plainMeaning (c : Classifier) (arguments : List TypeExpr) (depth : Nat) : Named → Meaning
  | .unknown name =>
    match arguments with
    | [element] =>
      if name == "Array" || name == "ReadonlyArray" then .list element
      else byName name
    | _ => byName name
  | .declared decl =>
    match decl.node with
    | .interface _ => .type (.reference decl.name)
    | .enum _ => .type (.reference decl.name)
    | .alias a =>
      if c.aliasKind decl (depth + 1) = .transparent then .alias decl.module a.body
      else .type (.reference decl.name)
  | .runtime name => .refused ("`" ++ name ++ "` cannot be used as a field type")
  | .external _ name => .type (.reference name)
where
  byName (name : String) : Meaning :=
    match Utility.ofName? name with
    | some u => .utility u
    | none => .type (.reference name)

def meaning (c : Classifier) (m : SourceModule) (entity : EntityName) (arguments : List TypeExpr)
    (depth : Nat) : Meaning :=
  let named := c.resolveEntity m entity
  let runtime :=
    match named with
    | .runtime name => runtimeMeaning? m arguments name
    | _ => none
  match runtime with
  | some found => found
  | none =>
    match c.scalarMeaning? m entity named with
    | some found => found
    | none => c.plainMeaning arguments depth named

/-! ## Properties -/

/-- What a reference contributes to an object. -/
inductive Source where
  | declaration (decl : TypeDecl)
  /-- The body of an interface of the schema, which is the first argument. -/
  | interfaceBody
  | utility (u : Utility)
  | refused

def source (c : Classifier) (m : SourceModule) (entity : EntityName) : Source :=
  match c.resolveEntity m entity with
  | .declared decl => .declaration decl
  | .runtime name =>
    if name == "DefineInterface" then .interfaceBody else .refused
  | .unknown name =>
    match Utility.ofName? name with
    | some u => .utility u
    | none => .refused
  | .external _ _ => .refused

/-- The interface that a declaration stands for, when it is one. -/
def ownInterface (c : Classifier) (decl : TypeDecl) (depth : Nat) : PropertySet :=
  if c.aliasKind decl depth = .graphqlInterface then ⟨[], [decl.name]⟩ else {}

def setOptional (optional : Bool) (f : Field) : Field := { f with optional := optional }

/-- Applies a utility type to properties; `keys` are the names that it keeps or drops. -/
def applyUtility (u : Utility) (keys : List String) (set : PropertySet) : PropertySet :=
  match u with
  | .allOptional => { set with fields := set.fields.map (setOptional true) }
  | .allRequired => { set with fields := set.fields.map (setOptional false) }
  | .unchanged => set
  | .keep => { set with fields := set.fields.filter fun f => keys.contains f.name }
  | .drop => { set with fields := set.fields.filter fun f => !keys.contains f.name }

def wrongArity (m : SourceModule) (s : Span) (u : Utility) : Reported PropertySet := do
  let _ ← refuse m s
    ("`" ++ u.name ++ "` expects " ++ toString u.arity ++ " type argument(s)")
  pure {}

/-- Applies a utility type whose keys are still a type. -/
def finishUtility (m : SourceModule) (u : Utility) (keys : Option TypeExpr) (set : PropertySet) :
    Reported PropertySet :=
  match keys with
  | none => pure (applyUtility u [] set)
  | some t =>
    match t.literalKeys? with
    | some names => pure (applyUtility u names set)
    | none => do
      let _ ← unsupported m t "keys must be string literals"
      pure set

def unresolvedParent (decl : TypeDecl) (parent : Heritage) : Diagnostic :=
  .warning .unsupportedSyntax
    ("`" ++ decl.name ++ "` extends `" ++ decl.module.snippet parent.span ++
      "`, which cannot be resolved; its fields are skipped")
    (some (decl.module.location parent.span))

/-- The declaration that an entry of an `extends` list names. -/
def parentDecl? (c : Classifier) (m : SourceModule) (parent : Heritage) : Option TypeDecl :=
  match parent.name with
  | none => none
  | some name =>
    match c.resolveLocal m name with
    | .declared decl => some decl
    | _ => none

/-- A property as far as its own text tells. -/
def describeField (m : SourceModule) (span : Span) (name : String) (optional : Bool) (t : TypeRef) :
    Field :=
  let doc := m.docAt span.lo
  ⟨name, t, optional, doc.description, doc.deprecated, some (m.location span)⟩

def ignoredMember (m : SourceModule) (span : Span) (message : String) : Reported Unit :=
  .report (.warning .unsupportedSyntax message (some (m.location span)))

/-! ## The classifier

The measure of a call is how much depth is left, then the size of the type at hand, then which of
the functions it is: those that take a type apart rank above those that get the same type from
them. -/

/-- Depth that is left, doubled; looking into a declaration ranks half a step lower. -/
def room (depth : Nat) : Nat := 2 * (maxDepth + 1 - depth) + 1

theorem room_succ_le (depth : Nat) : room (depth + 1) ≤ room depth := by
  unfold room
  omega

theorem room_succ_lt {depth : Nat} (h : ¬depth > maxDepth) : room (depth + 1) + 1 < room depth := by
  unfold room
  omega

/-- No more room and less size come first, whatever the function. -/
theorem lex_of_le_of_lt {r r' n n' k k' : Nat} (hr : r ≤ r') (hn : n < n') :
    Prod.Lex (· < ·) (Prod.Lex (· < ·) (· < ·)) (r, n, k) (r', n', k') := by
  rcases Nat.lt_or_eq_of_le hr with hlt | rfl
  · exact .left _ _ hlt
  · exact .right _ (.left _ _ hn)

theorem totalSize_mergeQueue_le (queue : List TypeExpr) :
    TypeExpr.totalSize (TypeExpr.mergeQueue queue) ≤ TypeExpr.totalSize queue := by
  fun_induction TypeExpr.mergeQueue queue with
  | case1 => simp
  | case2 s inner queue ih =>
    simp only [TypeExpr.totalSize_append, TypeExpr.totalSize, TypeExpr.paren.sizeOf_spec] at ih ⊢
    omega
  | case3 s types queue ih =>
    have := TypeExpr.totalSize_le_sizeOf types
    simp only [TypeExpr.totalSize_append, TypeExpr.totalSize,
      TypeExpr.intersection.sizeOf_spec] at ih ⊢
    omega
  | case4 t queue _ _ ih =>
    simp only [TypeExpr.totalSize]
    omega

theorem totalSize_mergeOrder_le (t : TypeExpr) :
    TypeExpr.totalSize t.mergeOrder ≤ sizeOf t := by
  have := totalSize_mergeQueue_le [t]
  simpa [TypeExpr.totalSize, TypeExpr.mergeOrder] using this

mutual

/-- The shape of a type at some depth. -/
def classifyAt (c : Classifier) (m : SourceModule) (t : TypeExpr) (depth : Nat) :
    Reported TypeRef :=
  if _h : depth > maxDepth then unsupported m t "type is nested too deeply or refers to itself"
  else
    match t with
    | .paren _ inner => c.classifyAt m inner depth
    | .readonly _ inner => c.classifyAt m inner depth
    | .union s types =>
      match TypeExpr.splitNullable types with
      | ([], _) => unsupported m (.union s types) "a type made only of null/undefined"
      | ([single], nullable) => do
        let inner ← c.classifyAt m single (depth + 1)
        pure (inner.orNullable nullable)
      | (members, nullable) =>
        if members.length == 2 && members.all (·.isBooleanLiteral) then
          pure ((TypeRef.primitive .boolean).orNullable nullable)
        else do
          let parts ← c.classifyAll m members (depth + 1)
          pure ((TypeRef.plain (.union parts)).orNullable nullable)
    | .intersection s types => do
      let set ← c.typeProperties m (.intersection s types) (depth + 1)
      pure (.plain (.inlineObject set.fields))
    | .object s members => do
      let set ← c.typeProperties m (.object s members) (depth + 1)
      pure (.plain (.inlineObject set.fields))
    | .array _ element => do
      let inner ← c.classifyAt m element (depth + 1)
      pure (.plain (.array inner))
    | .keyword s word =>
      match word with
      | .string => pure (.primitive .string)
      | .number => pure (.primitive .number)
      | .boolean => pure (.primitive .boolean)
      | _ => unsupported m (.keyword s word) "this keyword type has no GraphQL equivalent"
    | .literal s value =>
      match value with
      | .string v => pure (.plain (.literal (.string v)))
      | .number v => pure (.plain (.literal (.number v)))
      | .boolean v => pure (.plain (.literal (.boolean v)))
      | .other =>
        unsupported m (.literal s value) "template and bigint literals are not supported"
    | .reference s name arguments =>
      match c.meaning m name arguments depth with
      | .type found => pure found
      | .refused message => refuse m s message
      | .list element => do
        let inner ← c.classifyAt m element (depth + 1)
        pure (.plain (.array inner))
      | .utility u => do
        let set ← c.utilityProperties m s arguments u (depth + 1)
        pure (.plain (.inlineObject set.fields))
      | .alias target body => c.classifyAt target body (depth + 1)
    | .other s =>
      unsupported m (.other s) "mapped, conditional, function and tuple types are not supported"
termination_by (room depth, sizeOf t, 0)
decreasing_by
  all_goals
    have hroom := room_succ_lt _h
    first
      | (apply Prod.Lex.left; omega)
      | (apply Prod.Lex.right; apply Prod.Lex.left; simp +arith)

def classifyAll (c : Classifier) (m : SourceModule) (types : List TypeExpr) (depth : Nat) :
    Reported (List TypeRef) :=
  match types with
  | [] => pure []
  | t :: rest => do
    let first ← c.classifyAt m t depth
    let more ← c.classifyAll m rest depth
    pure (first :: more)
termination_by (room depth, sizeOf types, 1)
decreasing_by
  all_goals (apply Prod.Lex.right; apply Prod.Lex.left; simp +arith)

/-- Own and inherited properties of an interface, or those of an alias. -/
def declProperties (c : Classifier) (decl : TypeDecl) (depth : Nat) : Reported PropertySet :=
  if _h : depth > maxDepth then pure {}
  else
    match decl.node with
    | .interface i => do
      let own ← c.memberFields decl.module i.members (depth + 1)
      let inherited ← Reported.each (fun parent =>
        match c.parentDecl? decl.module parent with
        | some target => do
          let found ← c.declProperties target (depth + 1)
          pure ((c.ownInterface target (depth + 1)).merge found)
        | none => do
          Reported.report (unresolvedParent decl parent)
          pure {}) i.parents
      pure (inherited.foldl PropertySet.merge ⟨own, []⟩)
    | .alias a => c.typeProperties decl.module a.body (depth + 1)
    | .enum _ => pure {}
termination_by (room depth - 1, 0, 0)
decreasing_by
  all_goals
    have hroom := room_succ_lt _h
    apply Prod.Lex.left
    omega

/-- The properties of an object type; the first property of a name stays. -/
def typeProperties (c : Classifier) (m : SourceModule) (t : TypeExpr) (depth : Nat) :
    Reported PropertySet :=
  c.partProperties m t.mergeOrder {} depth
termination_by (room depth, sizeOf t, 3)
decreasing_by
  have hsize := totalSize_mergeOrder_le t
  rcases Nat.lt_or_eq_of_le hsize with hlt | heq
  · exact .right _ (.left _ _ hlt)
  · exact heq ▸ .right _ (.right _ (by decide))

def partProperties (c : Classifier) (m : SourceModule) (parts : List TypeExpr) (set : PropertySet)
    (depth : Nat) : Reported PropertySet :=
  match parts with
  | [] => pure set
  | t :: rest =>
    match t with
    | .object _ members => do
      let fields ← c.memberFields m members (depth + 1)
      c.partProperties m rest (set.merge ⟨fields, []⟩) depth
    | .reference s name arguments => do
      let found ← c.referenceProperties m s name arguments (depth + 1)
      c.partProperties m rest (set.merge found) depth
    | t => do
      let _ ← unsupported m t "only object types can be merged into an object"
      c.partProperties m rest set depth
termination_by (room depth, TypeExpr.totalSize parts, 2)
decreasing_by
  · exact lex_of_le_of_lt (room_succ_le _) (by simp [TypeExpr.totalSize]; omega)
  · exact lex_of_le_of_lt (Nat.le_refl _) (TypeExpr.totalSize_lt_cons _ _)
  · exact lex_of_le_of_lt (room_succ_le _) (by simp [TypeExpr.totalSize]; omega)
  · exact lex_of_le_of_lt (Nat.le_refl _) (TypeExpr.totalSize_lt_cons _ _)
  · exact lex_of_le_of_lt (Nat.le_refl _) (TypeExpr.totalSize_lt_cons _ _)

def referenceProperties (c : Classifier) (m : SourceModule) (s : Span) (name : EntityName)
    (arguments : List TypeExpr) (depth : Nat) : Reported PropertySet :=
  match c.source m name with
  | .declaration decl => do
    let found ← c.declProperties decl depth
    pure ((c.ownInterface decl depth).merge found)
  | .interfaceBody =>
    match arguments with
    | t :: _ => c.typeProperties m t depth
    | [] => pure {}
  | .utility u => c.utilityProperties m s arguments u depth
  | .refused => do
    let _ ← refuse m s ("cannot read the properties of `" ++ m.snippet s ++ "`")
    pure {}
termination_by (room depth, sizeOf arguments, 1)
decreasing_by
  · exact .left _ _ (by unfold room; omega)
  · exact lex_of_le_of_lt (Nat.le_refl _) (by simp +arith)
  · exact .right _ (.right _ (by decide))

/-- The properties of a utility type. -/
def utilityProperties (c : Classifier) (m : SourceModule) (s : Span) (arguments : List TypeExpr)
    (u : Utility) (depth : Nat) : Reported PropertySet :=
  match arguments with
  | t :: rest =>
    if (t :: rest).length ≠ u.arity then wrongArity m s u
    else do
      let set ← c.typeProperties m t (depth + 1)
      finishUtility m u rest.head? set
  | [] => wrongArity m s u
termination_by (room depth, sizeOf arguments, 0)
decreasing_by
  exact lex_of_le_of_lt (room_succ_le _) (by simp +arith)

/-- The properties among the members of an object type. -/
def memberFields (c : Classifier) (m : SourceModule) (members : List Member) (depth : Nat) :
    Reported (List Field) :=
  match members with
  | [] => pure []
  | member :: rest =>
    match member with
    | .property s key optional declaredType =>
      match key with
      | .computed => do
        let _ ← refuse m s "computed property keys are not supported"
        c.memberFields m rest depth
      | .fixed name => do
        let t ←
          match declaredType with
          | some t => c.classifyAt m t (depth + 1)
          | none => refuse m s ("property `" ++ name ++ "` needs a type annotation")
        let fields ← c.memberFields m rest depth
        pure (describeField m s name optional t :: fields)
    | .index s => do
      ignoredMember m s "index signatures are ignored"
      c.memberFields m rest depth
    | .method s => do
      ignoredMember m s "method signatures are ignored; use defineField for computed fields"
      c.memberFields m rest depth
    | .other => c.memberFields m rest depth
termination_by (room depth, sizeOf members, 0)
decreasing_by
  · exact lex_of_le_of_lt (Nat.le_refl _) (by simp +arith)
  · exact lex_of_le_of_lt (Nat.le_refl _) (by simp +arith)
  · exact lex_of_le_of_lt (room_succ_le _) (by simp +arith)
  · exact lex_of_le_of_lt (Nat.le_refl _) (by simp +arith)
  · exact lex_of_le_of_lt (Nat.le_refl _) (by simp +arith)
  · exact lex_of_le_of_lt (Nat.le_refl _) (by simp +arith)

end

/-- The shape of a type. -/
def classify (c : Classifier) (m : SourceModule) (t : TypeExpr) : Reported TypeRef :=
  c.classifyAt m t 0

end Classifier

end SchemaCompiler

import SchemaCompiler.Scalar.Registry
import SchemaCompiler.TypeScript.Flatten

/-!
# Type names

What a type name inside a module means, and which part an alias plays in a schema.
-/

namespace SchemaCompiler

open TypeScript

/-- Aliases and literals nested deeper than this are reported and not followed. -/
def maxDepth : Nat := 32

/-- The types of the runtime package that are understood. -/
def runtimeTypes : List String :=
  ["Int", "Float", "IDString", "IDNumber", "DefineScalar", "DefineInterface", "NoArgs",
   "QueryResolver", "MutationResolver", "FieldResolver"]

/-- The types of the runtime package that stand for a built-in scalar. -/
def runtimeScalars : List (String × String) :=
  [("Int", "Int"), ("Float", "Float"), ("IDString", "ID"), ("IDNumber", "ID")]

/-- A type that is computed from the properties of another one. -/
inductive Utility where
  | allOptional
  | allRequired
  | unchanged
  | keep
  | drop
deriving DecidableEq, Repr

namespace Utility

def ofName? : String → Option Utility
  | "Partial" => some allOptional
  | "Required" => some allRequired
  | "Readonly" => some unchanged
  | "Pick" => some keep
  | "Omit" => some drop
  | _ => none

def name : Utility → String
  | allOptional => "Partial"
  | allRequired => "Required"
  | unchanged => "Readonly"
  | keep => "Pick"
  | drop => "Omit"

/-- How many type arguments it takes. -/
def arity : Utility → Nat
  | keep => 2
  | drop => 2
  | _ => 1

end Utility

/-- What a type name means. -/
inductive Named where
  | declared (decl : TypeDecl)
  | runtime (name : String)
  | external (specifier name : String)
  | unknown (name : String)

/-- The part that an alias plays: a type of its own, or another name for the type that it stands
for. -/
inductive AliasKind where
  | scalar
  | graphqlInterface
  | object
  | enum
  | union
  | transparent
deriving DecidableEq, Repr

/-- Whether the alias is a type with fields. -/
def AliasKind.hasFields (k : AliasKind) : Bool := k == .object || k == .graphqlInterface

/-- A program together with its scalars. -/
structure Classifier where
  program : Program
  scalars : ScalarRegistry

namespace Classifier

/-! ## Names -/

def resolveLocal (c : Classifier) (m : SourceModule) (name : String) : Named :=
  match c.program.resolveName m.path name with
  | some (.symbol ref) =>
    match c.program.typeDecl? ref with
    | some decl => .declared decl
    | none => .unknown name
  | some (.external specifier exported) =>
    if specifier == runtimeModule then .runtime exported else .external specifier exported
  | some (.wholeModule _) => .unknown name
  | none => if runtimeTypes.contains name then .runtime name else .unknown name

/-- A declaration of a module that is imported as a whole. -/
def qualifiedDecl? (c : Classifier) (m : SourceModule) (left right : String) : Option TypeDecl :=
  match c.program.resolveName m.path left with
  | some (.wholeModule path) =>
    match (c.program.module? path).bind fun target => c.program.resolveExport target right 0 with
    | some (.symbol ref) => c.program.typeDecl? ref
    | _ => none
  | _ => none

def resolveEntity (c : Classifier) (m : SourceModule) : EntityName → Named
  | .ident name => c.resolveLocal m name
  | .qualified (.ident left) right =>
    match c.qualifiedDecl? m left right with
    | some decl => .declared decl
    | none => .unknown right
  | .qualified _ right => .unknown right

def lastName : EntityName → String
  | .ident name => name
  | .qualified _ right => right

/-- The configured scalar of a type name. -/
def mappedScalar? (c : Classifier) (m : SourceModule) (entity : EntityName) (named : Named) :
    Option ScalarBinding :=
  let specifier := (m.symbols.imports.get? (lastName entity)).map (·.specifier)
  match named with
  | .declared decl => c.scalars.mapped? decl.name specifier
  | .external specifier name => c.scalars.mapped? name (some specifier)
  | .unknown name => c.scalars.mapped? name specifier
  | .runtime _ => none

/-- Whether a type is a name of the runtime package. -/
def isRuntimeRef (c : Classifier) (m : SourceModule) (t : TypeExpr) (exported : String) : Bool :=
  match t.stripParens with
  | .reference _ name _ =>
    match c.resolveEntity m name with
    | .runtime n => n == exported
    | _ => false
  | _ => false

/-! ## Aliases -/

def isDeclaredScalar (c : Classifier) (d : TypeDecl) : Bool :=
  (c.scalars.declared? d.symbol).isSome

/-- Whether a union member names or spells out an object, given the part that aliases play. A name
that cannot be seen into counts as one. -/
def isObjectLikeBy (c : Classifier) (kind : TypeDecl → AliasKind) (m : SourceModule)
    (t : TypeExpr) : Bool :=
  match t.stripParens with
  | .object _ _ => true
  | .intersection _ _ => true
  | .reference _ name _ =>
    let named := c.resolveEntity m name
    if (c.mappedScalar? m name named).isSome then false
    else
      match named with
      | .declared decl =>
        match decl.node with
        | .interface _ => !c.isDeclaredScalar decl
        | .enum _ => false
        | .alias _ => (kind decl).hasFields
      | .runtime _ => false
      | .external _ _ => true
      | .unknown name => name != "Array" && name != "ReadonlyArray"
  | _ => false

/-- The part of an alias whose body is the name of a type. -/
def referenceKind (c : Classifier) (kind : TypeDecl → AliasKind) : Named → AliasKind
  | .runtime name =>
    if name == "DefineScalar" then .scalar
    else if name == "DefineInterface" then .graphqlInterface
    else .transparent
  | .unknown name => if (Utility.ofName? name).isSome then .object else .transparent
  | .declared target =>
    if c.isDeclaredScalar target then .transparent
    else
      match target.node with
      | .interface _ => .object
      | .enum _ => .transparent
      | .alias _ => if (kind target).hasFields then .object else .transparent
  | .external _ _ => .transparent

/-- The part of an alias whose body is a union. -/
def unionKind (isObjectLike : TypeExpr → Bool) (types : List TypeExpr) : AliasKind :=
  let members := (TypeExpr.splitNullable types).1
  if types.length ≥ 2 && !members.isEmpty && members.all (·.stringLiteral?.isSome) then .enum
  else if members.length ≥ 2 && members.all isObjectLike then .union
  else .transparent

/-- The part that an alias plays, found at some depth of aliases. -/
def aliasKind (c : Classifier) (d : TypeDecl) (depth : Nat) : AliasKind :=
  match d.node with
  | .interface _ => .transparent
  | .enum _ => .transparent
  | .alias decl =>
    if c.isDeclaredScalar d then .scalar
    else if depth > maxDepth then .transparent
    else
      match decl.body.stripParens with
      | .object _ _ => .object
      | .intersection _ _ => .object
      | .union _ types =>
        unionKind (c.isObjectLikeBy (fun target => c.aliasKind target (depth + 2)) d.module) types
      | .reference _ name _ =>
        c.referenceKind (fun target => c.aliasKind target (depth + 1))
          (c.resolveEntity d.module name)
      | _ => .transparent
termination_by maxDepth + 1 - depth

def isObjectLike (c : Classifier) (m : SourceModule) (t : TypeExpr) (depth : Nat) : Bool :=
  c.isObjectLikeBy (fun target => c.aliasKind target (depth + 1)) m t

end Classifier

end SchemaCompiler

import SchemaCompiler.Diagnostic
import SchemaCompiler.DocComment

/-!
# Shapes of types

What is kept of a type for a schema: its shape, and whether `null` or `undefined` belongs to it.
-/

namespace SchemaCompiler

inductive Primitive where
  | string
  | number
  | boolean
deriving DecidableEq, Repr

inductive Literal where
  | string (value : String)
  | number (value : Float)
  | boolean (value : Bool)

/-- The one side of a schema that a scalar type may be used on. -/
inductive Side where
  | input
  | output
deriving DecidableEq, Repr

namespace Side

def text : Side → String
  | input => "input"
  | output => "output"

def ofText? : String → Option Side
  | "input" => some input
  | "output" => some output
  | _ => none

end Side

/-- A use of a scalar: the name of the type that it was reached through, and the type behind it as
written where it was declared. -/
structure ScalarUse where
  scalar : String
  typeName : String
  base : Option String
  custom : Bool
  only : Option Side
deriving DecidableEq, Repr

/-- A shape with or without `null`. -/
structure Nullable (σ : Type) where
  shape : σ
  nullable : Bool

/-- A property of an object, or an argument of a resolver. -/
structure Property (τ : Type) where
  name : String
  type : τ
  optional : Bool
  description : Option String
  deprecated : Option Deprecation
  location : Option SourceLocation

inductive TypeShape where
  | primitive (kind : Primitive)
  | reference (name : String)
  | scalar (use : ScalarUse)
  | array (element : Nullable TypeShape)
  | union (members : List (Nullable TypeShape))
  | literal (value : Literal)
  | inlineObject (properties : List (Property (Nullable TypeShape)))

abbrev TypeRef := Nullable TypeShape

abbrev Field := Property TypeRef

namespace TypeRef

def plain (shape : TypeShape) : TypeRef := ⟨shape, false⟩

def primitive (kind : Primitive) : TypeRef := plain (.primitive kind)

def reference (name : String) : TypeRef := plain (.reference name)

/-- Adds `null` when `nullable` holds, and never takes it away. -/
def orNullable (t : TypeRef) (nullable : Bool) : TypeRef := ⟨t.shape, t.nullable || nullable⟩

/-- The name that a reference or a scalar stands for in a schema. -/
def named? (t : TypeRef) : Option String :=
  match t.shape with
  | .reference name => some name
  | .scalar use => some use.scalar
  | _ => none

end TypeRef

instance : Inhabited TypeRef := ⟨.primitive .string⟩

/-- Properties of an object type, with the GraphQL interfaces that it takes them from. -/
structure PropertySet where
  fields : List Field := []
  interfaces : List String := []

namespace PropertySet

/-- Adds the fields whose names are new. -/
def addFields (fields : List Field) : List Field → List Field
  | [] => fields
  | f :: more => addFields (if fields.any (·.name == f.name) then fields else fields ++ [f]) more

def addNames (names : List String) : List String → List String
  | [] => names
  | n :: more => addNames (if names.contains n then names else names ++ [n]) more

/-- Of two properties of one name the first stays. -/
def merge (a b : PropertySet) : PropertySet :=
  ⟨addFields a.fields b.fields, addNames a.interfaces b.interfaces⟩

end PropertySet

end SchemaCompiler

import SchemaCompiler.Shape.Basic

/-!
# Scalars

A binding ties a TypeScript type to a GraphQL scalar. It is declared in a module or configured; the
bindings of one scalar name make up its definition.
-/

namespace SchemaCompiler

def builtinScalars : List String := ["ID", "Int", "Float", "String", "Boolean"]

def isBuiltinScalar (name : String) : Bool := builtinScalars.contains name

/-- A scalar as the configuration maps it. -/
structure ScalarMapping where
  scalar : String
  typeName : String
  importPath : Option String
  only : Option Side
  description : Option String
deriving DecidableEq, Repr

structure ScalarBinding where
  scalar : String
  typeName : String
  base : Option String
  only : Option Side
  description : Option String
  /-- The declaring file; none for a configured binding. -/
  sourceFile : Option Path
  /-- The module that a configured type is imported from. -/
  importPath : Option String
  location : Option SourceLocation
deriving BEq

namespace ScalarBinding

def ofMapping (m : ScalarMapping) : ScalarBinding :=
  ⟨m.scalar, m.typeName, none, m.only, m.description, none, m.importPath, none⟩

def takesInput (b : ScalarBinding) : Bool := b.only != some .output

def givesOutput (b : ScalarBinding) : Bool := b.only != some .input

/-- The type and where it comes from. -/
def origin (b : ScalarBinding) : String :=
  match b.location with
  | some l => b.typeName ++ " (" ++ l.text ++ ")"
  | none => b.typeName ++ " (config)"

def use (b : ScalarBinding) : ScalarUse := ⟨b.scalar, b.typeName, b.base, true, b.only⟩

end ScalarBinding

/-- A TypeScript type of a scalar and where it is imported from. -/
structure ScalarTypeRef where
  typeName : String
  sourceFile : Option Path
  importPath : Option String
  location : Option SourceLocation
deriving BEq

def ScalarTypeRef.ofBinding (b : ScalarBinding) : ScalarTypeRef :=
  ⟨b.typeName, b.sourceFile, b.importPath, b.location⟩

structure ScalarDefinition where
  name : String
  inputType : Option ScalarTypeRef
  outputTypes : List ScalarTypeRef
  description : Option String
deriving BEq

end SchemaCompiler

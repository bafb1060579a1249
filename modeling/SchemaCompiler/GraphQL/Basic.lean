import SchemaCompiler.Scalar.Basic

/-!
# Parts of a schema

The types, fields and extensions of a GraphQL schema, before they are ordered and printed.
-/

namespace SchemaCompiler.GraphQL

inductive Kind where
  | object
  | inputObject
  | enum
  | union
  | scalar
  | interface
deriving DecidableEq, Repr, Inhabited

/-- A named type or a list of it; `listItemNullable` says something only of a list. -/
structure FieldType where
  typeName : String
  nullable : Bool
  list : Bool
  listItemNullable : Bool
deriving DecidableEq, Repr, Inhabited

namespace FieldType

def named (typeName : String) (nullable : Bool) : FieldType := ⟨typeName, nullable, false, false⟩

def listOf (typeName : String) (nullable itemNullable : Bool) : FieldType :=
  ⟨typeName, nullable, true, itemNullable⟩

end FieldType

/-- An argument, or a field of an input object. -/
structure InputValue where
  name : String
  type : FieldType
  description : Option String
  deprecated : Option Deprecation
  location : Option SourceLocation
deriving BEq, Repr, Inhabited

structure Field where
  name : String
  type : FieldType
  args : List InputValue
  description : Option String
  deprecated : Option Deprecation
  location : Option SourceLocation
deriving BEq, Repr, Inhabited

/-- A field of an input object cannot have arguments. -/
def Field.asInput (f : Field) : InputValue :=
  ⟨f.name, f.type, f.description, f.deprecated, f.location⟩

structure EnumValue where
  name : String
  /-- The value of the enumeration member that it stands for. -/
  literal : String
  description : Option String
  deprecated : Option Deprecation
deriving BEq, Repr, Inhabited

/-- A type of the schema; which of the lists are filled depends on the kind. -/
structure TypeDef where
  name : String
  kind : Kind
  fields : List Field := []
  unionMembers : List String := []
  enumValues : List EnumValue := []
  interfaces : List String := []
  oneOf : Bool := false
  description : Option String := none
  deprecated : Option Deprecation := none
  sourceFile : Option Path := none
  location : Option SourceLocation := none
deriving BEq, Repr, Inhabited

structure InputType where
  name : String
  fields : List InputValue
  oneOf : Bool
  description : Option String
  deprecated : Option Deprecation
  sourceFile : Option Path
  location : Option SourceLocation
deriving BEq, Repr, Inhabited

/-- A field that a resolver answers, with the file and the export it is found under. -/
structure ResolvedField where
  field : Field
  sourceFile : Option Path
  exportName : Option String
deriving BEq, Repr, Inhabited

/-- Fields that resolvers add to a type, in the order in which the resolvers were met. -/
structure TypeExtension where
  target : String
  fields : List ResolvedField
deriving BEq, Repr, Inhabited

def queryType : String := "Query"

def mutationType : String := "Mutation"

end SchemaCompiler.GraphQL

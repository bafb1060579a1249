import SchemaCompiler.Shape.Basic

/-!
# Exported types

What is known of an exported type before it is part of a schema: where it stands, what documents it
and what it is made of.
-/

namespace SchemaCompiler

inductive TypeKind where
  | interface
  | object
  | enum
  | union
  | graphqlInterface
deriving DecidableEq, Repr, Inhabited

inductive ExportKind where
  | named
  | default
deriving DecidableEq, Repr, Inhabited

/-- A member of an enum with the value that it has at run time. -/
structure EnumLiteral where
  name : String
  value : String
  description : Option String
  deprecated : Option Deprecation
deriving DecidableEq, Repr

/-- An exported type. `unionMembers` are sorted, each once; `inlineMembers` are the members of a
union that are written out. -/
structure ExportedType where
  name : String
  kind : TypeKind
  sourceFile : Path
  location : SourceLocation
  exportKind : ExportKind
  description : Option String
  deprecated : Option Deprecation
  fields : List Field := []
  unionMembers : List String := []
  enumMembers : List EnumLiteral := []
  inlineMembers : List (List Field) := []
  interfaces : List String := []

end SchemaCompiler

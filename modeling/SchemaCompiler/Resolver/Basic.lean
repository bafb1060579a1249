import SchemaCompiler.Shape.Basic

/-!
# Resolvers

A resolver is an exported constant that answers one field of the schema: a field of the query type,
of the mutation type, or of an object type that it names.
-/

namespace SchemaCompiler

inductive ResolverKind where
  | query
  | mutation
  | field
deriving DecidableEq, Repr, Inhabited

namespace ResolverKind

/-- The function that defines resolvers of this kind. -/
def apiName : ResolverKind → String
  | query => "defineQuery"
  | mutation => "defineMutation"
  | field => "defineField"

def ofApi? : String → Option ResolverKind
  | "defineQuery" => some query
  | "defineMutation" => some mutation
  | "defineField" => some field
  | _ => none

/-- The kind that an annotated type stands for. -/
def ofTypeName? : String → Option ResolverKind
  | "QueryResolver" => some query
  | "MutationResolver" => some mutation
  | "FieldResolver" => some field
  | _ => none

/-- How many type arguments say what the resolver takes and gives. -/
def arity : ResolverKind → Nat
  | field => 3
  | _ => 2

def typeArguments : ResolverKind → String
  | field => "<Parent, Args, Return>"
  | _ => "<Args, Return>"

end ResolverKind

/-- A resolver as its module declares it. `exportedInputTypes` are the types among its arguments'
that the module itself exports. -/
structure Resolver where
  fieldName : String
  kind : ResolverKind
  parent : Option String
  args : Option (List Field)
  returnType : TypeRef
  exportedInputTypes : List String
  description : Option String
  deprecated : Option Deprecation
  sourceFile : Path
  exportName : String
  location : SourceLocation

end SchemaCompiler

import SchemaCompiler.GraphQL.Inline
import SchemaCompiler.Resolver.Basic
import SchemaCompiler.Table

/-!
# Fields from resolvers

Every resolver becomes one field of the query type, of the mutation type or of the type that it
names; written-out argument and return types get types of their own.
-/

namespace SchemaCompiler.GraphQL

/-- The fields that resolvers answer, by the type that they belong to, and the types made for
them. -/
structure ResolverFields where
  query : List ResolvedField := []
  mutation : List ResolvedField := []
  extensions : Table (List ResolvedField) := {}
  types : List TypeDef := []

namespace ResolverFields

/-- The type that the field of a resolver belongs to. -/
inductive Owner where
  | query
  | mutation
  | type (name : String)
deriving DecidableEq, Repr

def owner? (r : Resolver) : Option Owner :=
  match r.kind with
  | .query => some .query
  | .mutation => some .mutation
  | .field => r.parent.map .type

/-- What written-out arguments are named after. -/
def argumentHint (owner : Owner) (r : Resolver) : String :=
  match owner with
  | .type parent => parent ++ Text.pascal r.fieldName
  | _ => Text.pascal r.fieldName

/-- What a written-out return type is named after. -/
def returnHint (owner : Owner) (r : Resolver) : String :=
  match owner with
  | .query => "Query" ++ Text.pascal r.fieldName ++ "Payload"
  | .mutation => "Mutation" ++ Text.pascal r.fieldName ++ "Payload"
  | .type parent => parent ++ Text.pascal r.fieldName

def argument (hint : String) (r : Resolver) (a : SchemaCompiler.Field) : Lowering InputValue := do
  let location := a.location.or (some r.location)
  let type ← Lowering.fieldType .input (hint ++ Text.pascal a.name) location a.optional a.type
  pure ⟨a.name, type, a.description, a.deprecated, location⟩

def arguments (hint : String) (r : Resolver) :
    List SchemaCompiler.Field → Lowering (List InputValue)
  | [] => pure []
  | a :: rest => do
    let value ← argument hint r a
    let values ← arguments hint r rest
    pure (value :: values)

def fieldOf (owner : Owner) (r : Resolver) : Lowering ResolvedField := do
  let args ← arguments (argumentHint owner r) r (r.args.getD [])
  let type ← Lowering.fieldType .output (returnHint owner r) (some r.location) false r.returnType
  pure ⟨⟨r.fieldName, type, args, r.description, r.deprecated, some r.location⟩,
    some r.sourceFile, some r.exportName⟩

def add (fields : ResolverFields) (owner : Owner) (f : ResolvedField) : ResolverFields :=
  match owner with
  | .query => { fields with query := fields.query ++ [f] }
  | .mutation => { fields with mutation := fields.mutation ++ [f] }
  | .type name => { fields with extensions := fields.extensions.push name f }

def addAll (fields : ResolverFields) : List Resolver → Lowering ResolverFields
  | [] => pure fields
  | r :: rest =>
    match owner? r with
    | none => addAll fields rest
    | some owner => do
      let f ← fieldOf owner r
      addAll (fields.add owner f) rest

end ResolverFields

/-- The fields of resolvers, in the order in which these were met. -/
def lowerResolvers (resolvers : List Resolver) : Reported ResolverFields :=
  let (fields, made) := (ResolverFields.addAll {} resolvers).run {}
  ⟨{ fields with types := made.types }, made.diagnostics⟩

end SchemaCompiler.GraphQL

import SchemaCompiler.Artifact
import SchemaCompiler.Config.Basic
import SchemaCompiler.Exported.Collect
import SchemaCompiler.GraphQL.Document.Printer
import SchemaCompiler.GraphQL.Prune
import SchemaCompiler.GraphQL.Validate
import SchemaCompiler.Resolver.Collect

/-!
# From programs to schemas

`analyze` goes from a program to its schema and keeps what every stage found; `generate` adds the
generated texts.
-/

namespace SchemaCompiler

/-- What the stages of an analysis found, each with its diagnostics. -/
structure Analysis where
  registry : Reported ScalarRegistry
  types : Reported (List ExportedType)
  scalars : ScalarsResult
  typeDefs : Reported (List GraphQL.TypeDef)
  resolvers : Reported (List Resolver)
  resolverFields : Reported GraphQL.ResolverFields
  schema : Reported GraphQL.Schema
  arguments : List Diagnostic
  outputs : List Diagnostic

namespace Analysis

/-- The diagnostics of the schema: those of its types, its scalars, its resolvers and its own. -/
def schemaDiagnostics (a : Analysis) : List Diagnostic :=
  a.types.diagnostics ++ a.scalars.diagnostics ++ a.typeDefs.diagnostics ++
    (a.resolvers.diagnostics ++ a.resolverFields.diagnostics) ++ a.schema.diagnostics

/-- All diagnostics in the order of the stages. -/
def diagnostics (a : Analysis) : List Diagnostic :=
  a.registry.diagnostics ++ a.schemaDiagnostics ++ a.arguments ++ a.outputs

end Analysis

def analyze (p : Program) (mappings : List ScalarMapping) : Analysis :=
  let registry := ScalarRegistry.build p mappings
  let classifier : Classifier := ⟨p, registry.value⟩
  let types := collectTypes classifier
  let scalars := collectScalars registry.value.bindings
  let typeDefs := GraphQL.lowerTypes types.value
  let resolvers := collectResolvers classifier
  let resolverFields := GraphQL.lowerResolvers resolvers.value
  let schema := GraphQL.integrate typeDefs.value resolverFields.value scalars.scalars
  let domains := GraphQL.NameDomains.ofSchema schema.value
  { registry, types, scalars, typeDefs, resolvers, resolverFields, schema
    arguments :=
      GraphQL.validateArguments schema.value.extensions schema.value.inputTypes domains
    outputs := GraphQL.validateOutputs schema.value domains }

/-- The generated texts. `prunedTypes` are present when pruning is on. -/
structure Generated where
  typeDefsCode : String
  resolversCode : String
  sdl : String
  diagnostics : List Diagnostic
  prunedTypes : Option (List String)

def Generated.hasErrors (g : Generated) : Bool := SchemaCompiler.hasErrors g.diagnostics

/-- The schema that is written out, and what was pruned from it. -/
def outputSchema (s : GraphQL.Schema) (enablePruning : Bool) :
    GraphQL.Schema × Option (List String) :=
  if enablePruning then
    let pruned := s.prune
    (pruned.schema, some pruned.removed)
  else (s, none)

/-- Generates from a program; `before` are the diagnostics of loading it, and `dir` is where the
resolver module will stand. -/
def generate (p : Program) (before : List Diagnostic) (config : Config) (dir : Path) : Generated :=
  let analysis := analyze p config.scalars
  let (schema, prunedTypes) := outputSchema analysis.schema.value config.enablePruning
  let document := GraphQL.Document.ofSchema schema
  { typeDefsCode := typeDefsCode document
    resolversCode := resolversCode schema dir
    sdl := document.text
    diagnostics := before ++ analysis.diagnostics
    prunedTypes }

end SchemaCompiler

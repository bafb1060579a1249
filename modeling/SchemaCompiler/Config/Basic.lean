import SchemaCompiler.Scalar.Basic

/-!
# Configuration

`ConfigFile` is what a configuration file says; `Config` is what follows from it. An output path that
the file leaves out has a default, and one that is `null` suppresses the output.
-/

namespace SchemaCompiler

/-! ## What a file says -/

inductive OutputPath where
  | absent
  | suppressed
  | path (text : String)
deriving DecidableEq, Repr, Inhabited

structure OutputPaths where
  resolvers : OutputPath := .absent
  typeDefs : OutputPath := .absent
  schema : OutputPath := .absent
deriving DecidableEq, Repr, Inhabited

/-- The TypeScript type of a scalar. -/
structure ScalarType where
  name : String
  importPath : Option String
deriving DecidableEq, Repr

structure ScalarEntry where
  name : String
  type : ScalarType
  only : Option Side
  description : Option String
deriving DecidableEq, Repr

structure ConfigFile where
  sourceDir : Option String := none
  ignoreGlobs : Option (List String) := none
  tsconfigPath : Option String := none
  output : Option OutputPaths := none
  scalars : List ScalarEntry := []
  /-- Commands to run after files were written. -/
  hooks : Option (List String) := none
  enablePruning : Bool := false
deriving DecidableEq, Repr, Inhabited

/-! ## What follows -/

structure Config where
  sourceDir : Path
  ignoreGlobs : List String
  tsconfigPath : Option Path
  resolversPath : Option Path
  typeDefsPath : Option Path
  schemaPath : Option Path
  scalars : List ScalarMapping
  hooks : List String
  enablePruning : Bool

namespace Config

def defaultSourceDir : String := "src/gqlkit"

def defaultResolversPath : String := "src/gqlkit/__generated__/resolvers.ts"

def defaultTypeDefsPath : String := "src/gqlkit/__generated__/typeDefs.ts"

def defaultSchemaPath : String := "src/gqlkit/__generated__/schema.graphql"

end Config

def OutputPath.resolve (default : String) : OutputPath → Option Path
  | absent => some ⟨default⟩
  | suppressed => none
  | path text => some ⟨text⟩

def ScalarEntry.mapping (e : ScalarEntry) : ScalarMapping :=
  ⟨e.name, e.type.name, e.type.importPath, e.only, e.description⟩

def ConfigFile.resolve (f : ConfigFile) : Config :=
  let output := f.output.getD {}
  { sourceDir := ⟨f.sourceDir.getD Config.defaultSourceDir⟩
    ignoreGlobs := f.ignoreGlobs.getD []
    tsconfigPath := f.tsconfigPath.map Path.mk
    resolversPath := output.resolvers.resolve Config.defaultResolversPath
    typeDefsPath := output.typeDefs.resolve Config.defaultTypeDefsPath
    schemaPath := output.schema.resolve Config.defaultSchemaPath
    scalars := f.scalars.map ScalarEntry.mapping
    hooks := f.hooks.getD []
    enablePruning := f.enablePruning }

def Config.default : Config := ({} : ConfigFile).resolve

end SchemaCompiler

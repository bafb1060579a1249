import SchemaCompiler.Config.OfJson
import SchemaCompiler.Json.Record

/-!
# Configurations from text

Reads a configuration straight from its text, with the way to the first value that does not fit.
-/

namespace SchemaCompiler

open Json Json.Reader

namespace ConfigText

/-! ## Output paths -/

structure OutputDraft where
  resolvers : Option (Option String) := none
  typeDefs : Option (Option String) := none
  schema : Option (Option String) := none

def outputShape : RecordShape OutputDraft where
  name := "OutputConfig"
  empty := {}
  fields :=
    [{ key := "resolversPath", optional := true, isFilled := (·.resolvers.isSome)
       read := fun way d => do
         let path ← nullable text way
         pure { d with resolvers := some path } },
     { key := "typeDefsPath", optional := true, isFilled := (·.typeDefs.isSome)
       read := fun way d => do
         let path ← nullable text way
         pure { d with typeDefs := some path } },
     { key := "schemaPath", optional := true, isFilled := (·.schema.isSome)
       read := fun way d => do
         let path ← nullable text way
         pure { d with schema := some path } }]

def outputPath : Option (Option String) → OutputPath
  | none => .absent
  | some none => .suppressed
  | some (some path) => .path path

def output (way : List Step) : Reader OutputPaths := do
  let d ← outputShape.read way
  pure ⟨outputPath d.resolvers, outputPath d.typeDefs, outputPath d.schema⟩

/-! ## Scalars -/

structure TypeDraft where
  name : Option String := none
  importPath : Option (Option String) := none

def typeShape : RecordShape TypeDraft where
  name := "TsTypeConfig"
  empty := {}
  fields :=
    [{ key := "name", optional := false, isFilled := (·.name.isSome)
       read := fun way d => do
         let name ← text way
         pure { d with name := some name } },
     { key := "from", optional := true, isFilled := (·.importPath.isSome)
       read := fun way d => do
         let specifier ← nullable text way
         pure { d with importPath := some specifier } }]

def scalarType (way : List Step) : Reader ScalarType := do
  let d ← typeShape.read way
  pure ⟨d.name.getD "", d.importPath.join⟩

def unknownSide (name : String) : String :=
  "unknown variant `" ++ name ++ "`, expected `input` or `output`"

/-- The name of a side. -/
def sideName (way : List Step) : Reader Side := standing way do
  if (← someToken) = '"' then do
    eat
    let name ← readString
    match Side.ofText? name with
    | some s => pure s
    | none => failHere (.shape (unknownSide name))
  else unexpected "variant identifier"

/-- The value that stands beside the name of a side in an object. -/
def nothing (way : List Step) : Reader Unit := standing way do
  if (← someToken) = 'n' then do eat; word ['u', 'l', 'l'] else unexpected "unit"

/-- A side by its name, or an object with its name as the only key. -/
def side (way : List Step) : Reader Side := standing way do
  match ← someToken with
  | '"' => sideName way
  | '\x7b' => do
    eat
    let s ← sideName way
    colon
    nothing (way ++ [.key s.text])
    match ← peekToken with
    | some '\x7d' => do eat; pure s
    | some _ => failHere .expectedValue
    | none => failHere .eofInObject
  | _ => failNext .expectedValue

structure ScalarDraft where
  name : Option String := none
  type : Option ScalarType := none
  only : Option (Option Side) := none
  description : Option (Option String) := none

def scalarShape : RecordShape ScalarDraft where
  name := "ScalarConfig"
  empty := {}
  fields :=
    [{ key := "name", optional := false, isFilled := (·.name.isSome)
       read := fun way d => do
         let name ← text way
         pure { d with name := some name } },
     { key := "tsType", optional := false, isFilled := (·.type.isSome)
       read := fun way d => do
         let type ← scalarType way
         pure { d with type := some type } },
     { key := "only", optional := true, isFilled := (·.only.isSome)
       read := fun way d => do
         let only ← nullable side way
         pure { d with only := some only } },
     { key := "description", optional := true, isFilled := (·.description.isSome)
       read := fun way d => do
         let description ← nullable text way
         pure { d with description := some description } }]

def scalar (way : List Step) : Reader ScalarEntry := do
  let d ← scalarShape.read way
  pure ⟨d.name.getD "", d.type.getD ⟨"", none⟩, d.only.join, d.description.join⟩

/-! ## Hooks -/

/-- How deep the commands stand in the document. -/
def commandsDepth : Nat := 2

def commands (way : List Step) : Reader (List String) := do
  let value ← valueAt way (maxNesting - commandsDepth)
  match ConfigFile.commands? value with
  | some found => pure found
  | none => failShape "data did not match any variant of untagged enum HookCommands"

structure HooksDraft where
  commands : Option (Option (List String)) := none

def hooksShape : RecordShape HooksDraft where
  name := "HooksConfig"
  empty := {}
  fields :=
    [{ key := "afterAllFileWrite", optional := true, isFilled := (·.commands.isSome)
       read := fun way d => do
         let found ← nullable ConfigText.commands way
         pure { d with commands := some found } }]

def hooks (way : List Step) : Reader (Option (List String)) := do
  let d ← hooksShape.read way
  pure d.commands.join

/-! ## The document -/

structure Draft where
  sourceDir : Option (Option String) := none
  ignoreGlobs : Option (Option (List String)) := none
  tsconfigPath : Option (Option String) := none
  output : Option (Option OutputPaths) := none
  scalars : Option (List ScalarEntry) := none
  hooks : Option (Option (Option (List String))) := none
  enablePruning : Option Bool := none

def shape : RecordShape Draft where
  name := "GqlkitConfig"
  empty := {}
  fields :=
    [{ key := "sourceDir", optional := true, isFilled := (·.sourceDir.isSome)
       read := fun way d => do
         let dir ← nullable text way
         pure { d with sourceDir := some dir } },
     { key := "sourceIgnoreGlobs", optional := true, isFilled := (·.ignoreGlobs.isSome)
       read := fun way d => do
         let globs ← nullable (list text) way
         pure { d with ignoreGlobs := some globs } },
     { key := "tsconfigPath", optional := true, isFilled := (·.tsconfigPath.isSome)
       read := fun way d => do
         let path ← nullable text way
         pure { d with tsconfigPath := some path } },
     { key := "output", optional := true, isFilled := (·.output.isSome)
       read := fun way d => do
         let paths ← nullable ConfigText.output way
         pure { d with output := some paths } },
     { key := "scalars", optional := true, isFilled := (·.scalars.isSome)
       read := fun way d => do
         let entries ← list scalar way
         pure { d with scalars := some entries } },
     { key := "hooks", optional := true, isFilled := (·.hooks.isSome)
       read := fun way d => do
         let found ← nullable ConfigText.hooks way
         pure { d with hooks := some found } },
     { key := "enablePruning", optional := true, isFilled := (·.enablePruning.isSome)
       read := fun way d => do
         let prune ← boolean way
         pure { d with enablePruning := some prune } }]

def Draft.file (d : Draft) : ConfigFile :=
  { sourceDir := d.sourceDir.join
    ignoreGlobs := d.ignoreGlobs.join
    tsconfigPath := d.tsconfigPath.join
    output := d.output.join
    scalars := d.scalars.getD []
    hooks := d.hooks.join.join
    enablePruning := d.enablePruning.getD false }

end ConfigText

/-- Reads the configuration at the start of a text. -/
def ConfigFile.ofText (s : String) : Except Fault ConfigFile :=
  (Reader.run (ConfigText.shape.read []) s).map ConfigText.Draft.file

end SchemaCompiler

import SchemaCompiler.Config.Basic
import SchemaCompiler.Glob
import SchemaCompiler.Json.Basic
import SchemaCompiler.Text.Blank

/-!
# Configurations from documents

Reads a document that was found to be without faults.
-/

namespace SchemaCompiler

namespace ConfigCheck

/-!
## Faults of a configuration

`validateConfig` looks at the whole document and reports every fault in the order of the keys below.
-/

/-- A fault without its place, which is the file as a whole. -/
structure Fault where
  code : Code
  message : String
deriving DecidableEq, Repr

/-- A text with something else than blanks. -/
def isFilled (s : String) : Bool := !Text.isBlankText s

def indexed (owner : String) (index : Nat) : String := owner ++ "[" ++ toString index ++ "]"

/-! ### Single keys -/

def sourceDir : Json → List Fault
  | .string s => if isFilled s then [] else [emptyDir]
  | _ => [emptyDir]
where
  emptyDir : Fault := ⟨.configInvalidSourceDir, "sourceDir must be a non-empty string"⟩

def ignoreGlob (entry : Json × Nat) : List Fault :=
  let place := indexed "sourceIgnoreGlobs" entry.2
  match entry.1 with
  | .string pattern =>
    match Glob.Pattern.parse pattern with
    | .ok _ => []
    | .error _ =>
      [⟨.configInvalidIgnoreGlobs, place ++ " \"" ++ pattern ++ "\" is not a valid glob pattern"⟩]
  | _ => [⟨.configInvalidIgnoreGlobs, place ++ " must be a string"⟩]

def ignoreGlobs : Json → List Fault
  | .array entries => entries.zipIdx.flatMap ignoreGlob
  | _ => [⟨.configInvalidIgnoreGlobs, "sourceIgnoreGlobs must be an array of strings"⟩]

def tsconfigPath : Json → List Fault
  | .null => []
  | .string _ => []
  | _ => [⟨.configInvalidPath, "tsconfigPath must be a string or null"⟩]

def outputPath (output : Json) (key : String) : List Fault :=
  let fault : Fault :=
    ⟨.configInvalidOutputPath, "output." ++ key ++ " must be a non-empty string or null"⟩
  match output.get? key with
  | none => []
  | some .null => []
  | some (.string s) => if isFilled s then [] else [fault]
  | some _ => [fault]

def output : Json → List Fault
  | .object fields =>
    ["resolversPath", "typeDefsPath", "schemaPath"].flatMap (outputPath (.object fields))
  | _ => [⟨.configInvalidType, "output must be an object"⟩]

def hookCommand (entry : Json × Nat) : List Fault :=
  let place := indexed "hooks.afterAllFileWrite" entry.2
  match entry.1 with
  | .string s => if isFilled s then [] else [⟨.configInvalidHookCommand, place ++ " is empty"⟩]
  | _ => [⟨.configInvalidHookType, place ++ " must be a string"⟩]

def hookCommands : Json → List Fault
  | .null => []
  | .string s =>
    if isFilled s then [] else [⟨.configInvalidHookCommand, "hooks.afterAllFileWrite is empty"⟩]
  | .array commands => commands.zipIdx.flatMap hookCommand
  | _ =>
    [⟨.configInvalidHookType, "hooks.afterAllFileWrite must be a string or an array of strings"⟩]

def hooks : Json → List Fault
  | .object fields => ((Json.object fields).get? "afterAllFileWrite").elim [] hookCommands
  | _ => [⟨.configInvalidType, "hooks must be an object"⟩]

def enablePruning : Json → List Fault
  | .bool _ => []
  | _ => [⟨.configInvalidType, "enablePruning must be a boolean"⟩]

/-! ### Scalars -/

/-- What is read from a scalar entry, as far as it could be read. -/
structure ScalarDraft where
  name : Option String
  type : Option (String × Option String)
  /-- None when the entry says neither a side nor `null`. -/
  only : Option (Option Side)

def readName (place : String) (entry : Json) : Option String × List Fault :=
  match entry.get? "name" with
  | none => (none, [⟨.configMissingProperty, place ++ " is missing \"name\""⟩])
  | some (.string name) =>
    (some name,
      if isBuiltinScalar name then
        [⟨.configBuiltinOverride,
          place ++ " maps built-in scalar \"" ++ name ++ "\", which cannot be overridden"⟩]
      else [])
  | some _ => (none, [⟨.configInvalidType, place ++ ".name must be a string"⟩])

def readTypeName (place : String) (type : Json) : Option String × List Fault :=
  match type.get? "name" with
  | none => (none, [⟨.configMissingProperty, place ++ ".tsType is missing \"name\""⟩])
  | some (.string name) => (some name, [])
  | some _ => (none, [⟨.configInvalidType, place ++ ".tsType.name must be a string"⟩])

def readImport (place : String) (type : Json) : Option String × List Fault :=
  match type.get? "from" with
  | none => (none, [])
  | some .null => (none, [])
  | some (.string specifier) => (some specifier, [])
  | some _ => (none, [⟨.configInvalidType, place ++ ".tsType.from must be a string or null"⟩])

def readType (place : String) (entry : Json) : Option (String × Option String) × List Fault :=
  match entry.get? "tsType" with
  | none => (none, [⟨.configMissingProperty, place ++ " is missing \"tsType\""⟩])
  | some (.object fields) =>
    let (name, nameFaults) := readTypeName place (.object fields)
    let (specifier, importFaults) := readImport place (.object fields)
    (name.map (·, specifier), nameFaults ++ importFaults)
  | some _ => (none, [⟨.configInvalidType, place ++ ".tsType must be an object"⟩])

def readOnly (place : String) (entry : Json) : Option (Option Side) × List Fault :=
  match entry.get? "only" with
  | none => (some none, [])
  | some .null => (some none, [])
  | some other =>
    match other.string?.bind Side.ofText? with
    | some side => (some (some side), [])
    | none =>
      (none, [⟨.configInvalidOutputType,
        place ++ ".only must be \"input\", \"output\" or null, found " ++ other.compact⟩])

def checkDescription (place : String) (entry : Json) : List Fault :=
  match entry.get? "description" with
  | none => []
  | some .null => []
  | some (.string _) => []
  | some _ => [⟨.configInvalidType, place ++ ".description must be a string or null"⟩]

/-- A mapping that an entry made. -/
structure SeenMapping where
  index : Nat
  name : String
  only : Option Side

/-- A type that an entry mapped first. -/
structure SeenType where
  index : Nat
  name : String
  type : String × Option String

/-- The entries so far. -/
structure Seen where
  mappings : List SeenMapping := []
  types : List SeenType := []

/-- Whether two mappings of a scalar serve a common side. -/
def overlap (a b : Option Side) : Bool := a.isNone || b.isNone || a == b

def checkMapping (place : String) (seen : Seen) (name : String) (only : Option Side) :
    List Fault :=
  match seen.mappings.find? fun m => m.name == name && overlap m.only only with
  | none => []
  | some prior =>
    let role := ((only.or prior.only).map Side.text).getD "input and output"
    [⟨.configDuplicateMapping,
      place ++ " maps scalar \"" ++ name ++ "\" for " ++ role ++ " again (first mapped at scalars[" ++
        toString prior.index ++ "])"⟩]

def checkType (place : String) (seen : Seen) (name : String) (type : String × Option String) :
    List Fault :=
  match seen.types.find? (·.type == type) with
  | none => []
  | some prior =>
    if prior.name = name then []
    else
      [⟨.configDuplicateType,
        place ++ " maps TypeScript type \"" ++ type.1 ++ "\" to \"" ++ name ++ "\", but scalars[" ++
          toString prior.index ++ "] already maps it to \"" ++ prior.name ++ "\""⟩]

/-- Compares an entry with the earlier ones. -/
def conflicts (place : String) (seen : Seen) (d : ScalarDraft) : List Fault :=
  let mapping :=
    match d.name, d.only with
    | some name, some only => checkMapping place seen name only
    | _, _ => []
  let type :=
    match d.name, d.type with
    | some name, some type => checkType place seen name type
    | _, _ => []
  mapping ++ type

def remember (seen : Seen) (index : Nat) (d : ScalarDraft) : Seen :=
  let mappings :=
    match d.name, d.only with
    | some name, some only => seen.mappings ++ [⟨index, name, only⟩]
    | _, _ => seen.mappings
  let types :=
    match d.name, d.type with
    | some name, some type =>
      if seen.types.any (·.type == type) then seen.types else seen.types ++ [⟨index, name, type⟩]
    | _, _ => seen.types
  ⟨mappings, types⟩

/-- Reads an entry and reports what is wrong with it alone. -/
def readScalar (place : String) (entry : Json) : ScalarDraft × List Fault :=
  let (name, nameFaults) := readName place entry
  let (type, typeFaults) := readType place entry
  let (only, onlyFaults) := readOnly place entry
  (⟨name, type, only⟩, nameFaults ++ typeFaults ++ onlyFaults ++ checkDescription place entry)

def scalarEntries (seen : Seen) (index : Nat) : List Json → List Fault
  | [] => []
  | entry :: rest =>
    let place := indexed "scalars" index
    match entry with
    | .object fields =>
      let (draft, faults) := readScalar place (.object fields)
      faults ++ conflicts place seen draft ++
        scalarEntries (remember seen index draft) (index + 1) rest
    | _ =>
      ⟨.configInvalidType, place ++ " must be an object"⟩ :: scalarEntries seen (index + 1) rest

def scalars : Json → List Fault
  | .array entries => scalarEntries {} 0 entries
  | _ => [⟨.configInvalidType, "scalars must be an array"⟩]

/-! ### Documents -/

/-- The keys with what is checked of them. -/
def keys : List (String × (Json → List Fault)) :=
  [("sourceDir", sourceDir), ("sourceIgnoreGlobs", ignoreGlobs), ("tsconfigPath", tsconfigPath),
    ("output", output), ("scalars", scalars), ("hooks", hooks), ("enablePruning", enablePruning)]

def document : Json → List Fault
  | .object fields =>
    keys.flatMap fun (key, check) => ((Json.object fields).get? key).elim [] check
  | _ => [⟨.configInvalidType, "configuration must be a JSON object"⟩]

end ConfigCheck

/-- The faults of a document, which all stand at its file. -/
def validateConfig (value : Json) (path : Option Path) : List Diagnostic :=
  (ConfigCheck.document value).map fun f =>
    .error f.code f.message (path.map SourceLocation.wholeFile)

/-- A field that may be left out or `null`. -/
def Json.optional? {α : Type} (read : Json → Option α) (j : Json) (name : String) :
    Option (Option α) :=
  match j.get? name with
  | none => some none
  | some .null => some none
  | some value => (read value).map some

def Json.required? {α : Type} (read : Json → Option α) (j : Json) (name : String) : Option α :=
  (j.get? name).bind read

def Json.strings? : Json → Option (List String)
  | .array items => items.mapM Json.string?
  | _ => none

def OutputPath.ofField? (j : Json) (name : String) : Option OutputPath :=
  match j.get? name with
  | none => some .absent
  | some .null => some .suppressed
  | some (.string s) => some (.path s)
  | some _ => none

def OutputPaths.ofJson? (j : Json) : Option OutputPaths := do
  let _ ← j.object?
  let resolvers ← OutputPath.ofField? j "resolversPath"
  let typeDefs ← OutputPath.ofField? j "typeDefsPath"
  let schema ← OutputPath.ofField? j "schemaPath"
  some ⟨resolvers, typeDefs, schema⟩

def ScalarType.ofJson? (j : Json) : Option ScalarType := do
  let name ← j.required? Json.string? "name"
  let importPath ← j.optional? Json.string? "from"
  some ⟨name, importPath⟩

def Side.ofJson? (j : Json) : Option Side := j.string?.bind Side.ofText?

def ScalarEntry.ofJson? (j : Json) : Option ScalarEntry := do
  let name ← j.required? Json.string? "name"
  let type ← j.required? ScalarType.ofJson? "tsType"
  let only ← j.optional? Side.ofJson? "only"
  let description ← j.optional? Json.string? "description"
  some ⟨name, type, only, description⟩

/-- One command or a list of them. -/
def ConfigFile.commands? : Json → Option (List String)
  | .string command => some [command]
  | j => j.strings?

def ConfigFile.hooks? (j : Json) : Option (Option (List String)) := do
  let _ ← j.object?
  j.optional? commands? "afterAllFileWrite"

/-- Entries of a list that must not be `null`, or none when the list is left out. -/
def ConfigFile.scalars? (j : Json) : Option (List ScalarEntry) :=
  match j.get? "scalars" with
  | none => some []
  | some (.array entries) => entries.mapM ScalarEntry.ofJson?
  | some _ => none

def ConfigFile.pruning? (j : Json) : Option Bool :=
  match j.get? "enablePruning" with
  | none => some false
  | some value => value.bool?

def ConfigFile.ofJson? (j : Json) : Option ConfigFile := do
  let _ ← j.object?
  let sourceDir ← j.optional? Json.string? "sourceDir"
  let ignoreGlobs ← j.optional? Json.strings? "sourceIgnoreGlobs"
  let tsconfigPath ← j.optional? Json.string? "tsconfigPath"
  let output ← j.optional? OutputPaths.ofJson? "output"
  let scalars ← scalars? j
  let hooks ← j.optional? hooks? "hooks"
  let enablePruning ← pruning? j
  some { sourceDir, ignoreGlobs, tsconfigPath, output, scalars, hooks := hooks.join, enablePruning }

/-- The configuration of a document. Without a configuration there are errors. -/
def parseConfig (value : Json) (path : Option Path) : Reported (Option Config) :=
  let diagnostics := validateConfig value path
  if hasErrors diagnostics then ⟨none, diagnostics⟩
  else ⟨(ConfigFile.ofJson? value).map ConfigFile.resolve, diagnostics⟩

end SchemaCompiler

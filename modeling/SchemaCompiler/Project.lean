import SchemaCompiler.Config.OfJson
import SchemaCompiler.Failure
import SchemaCompiler.Generate
import SchemaCompiler.Glob
import SchemaCompiler.Json.Reader
import SchemaCompiler.Program.Load

/-!
# Projects

A project is a directory of a file tree. Its configuration stands in a file of the directory, and all
configured paths are relative to the directory.

* `loadConfig` reads the configuration;
* `discoverSources` finds the source files;
* `generateProject` loads them and generates from them.
-/

namespace SchemaCompiler

namespace Project

def configFileName : String := "gqlkit.config.json"

/-! ## Configuration -/

/-- A configuration, none when it has errors, and the file that it comes from. -/
structure LoadedConfig where
  config : Reported (Option Config)
  path : Option Path

def readConfig (t : FileTree) (path : Path) : Except Failure LoadedConfig := do
  let text ← (t.readText path).mapError (Failure.read path)
  let value ← (Json.parse text).mapError Failure.json
  pure ⟨parseConfig value (some path), some path⟩

/-- Reads the named file, or else the usual one; without that one the defaults hold. -/
def loadConfig (t : FileTree) (dir : Path) (explicit : Option Path) : Except Failure LoadedConfig :=
  match explicit with
  | some path => readConfig t (dir.join path.text)
  | none =>
    let path := dir.join configFileName
    if t.exists? path then readConfig t path else pure ⟨pure (some Config.default), none⟩

/-! ## Sources -/

/-- Declaration files and generated files are no sources. -/
def isExcluded (path : Path) : Bool :=
  (path.fileName?.getD "").endsWith ".d.ts" || path.components.contains (.name "__generated__")

/-- The source files of a project, without those that an ignore pattern accepts, sorted. -/
def discoverSources (t : FileTree) (dir : Path) (config : Config) :
    Except Failure (List Path) := do
  let ignored ← (config.ignoreGlobs.mapM Glob.Pattern.parse).mapError Failure.pattern
  let base := Glob.Pattern.escape (dir.join config.sourceDir.text).text
  let found ← (["ts", "tsx"].mapM fun extension =>
    Glob.expand t (base ++ "/**/*." ++ extension)).mapError Failure.pattern
  let isIgnored (path : Path) : Bool :=
    let relative := (path.stripPrefix? dir).getD path
    ignored.any (·.accepts relative.text)
  pure (Program.sortedPaths (found.flatten.filter fun path => !isExcluded path && !isIgnored path))

/-! ## Generating -/

/-- Where the resolver module will stand. -/
def resolversDir (dir : Path) (config : Config) : Path :=
  match config.resolversPath.bind Path.parent? with
  | some parent => dir.join parent.text
  | none => dir

/-- A diagnostic with its location relative to a directory. -/
def relocate (dir : Path) (d : Diagnostic) : Diagnostic :=
  { d with
    location := d.location.map fun l => { l with file := (l.file.stripPrefix? dir).getD l.file } }

end Project

/-- Generates from the sources of the project in a directory. -/
def generateProject (t : FileTree) (dir : Path) (config : Config) : Except Failure Generated := do
  let files ← Project.discoverSources t dir config
  let loaded := Program.load t.view files
  let generated :=
    generate loaded.value loaded.diagnostics config (Project.resolversDir dir config)
  pure { generated with diagnostics := generated.diagnostics.map (Project.relocate dir) }

end SchemaCompiler

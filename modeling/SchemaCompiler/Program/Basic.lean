import SchemaCompiler.Path.Specifier
import SchemaCompiler.Program.Symbols

/-!
# Programs

A program is a set of parsed modules with distinct paths, sorted by path. Scanned modules contribute
types and resolvers; the others only explain names. Names are followed across modules through an
import, with at most `maxReexportHops` re-exports behind it.
-/

namespace SchemaCompiler

open TypeScript

/-- The package that the library of the analysed program is imported from. -/
def runtimeModule : String := "@gqlkit-ts/runtime"

def maxReexportHops : Nat := 1

/-! ## Modules -/

structure SourceModule where
  path : Path
  text : ParsedText
  symbols : Symbols
  scanned : Bool

namespace SourceModule

def locate (path : Path) (source : SourceText) (offset : Nat) : SourceLocation :=
  let (line, column) := source.locate (source.position offset)
  ⟨path, line, column⟩

def locationAt (m : SourceModule) (offset : Nat) : SourceLocation :=
  locate m.path m.text.source offset

def location (m : SourceModule) (s : Span) : SourceLocation := m.locationAt s.lo

def snippet (m : SourceModule) (s : Span) : String := m.text.source.snippet s

def docAt (m : SourceModule) (offset : Nat) : Doc := m.text.comments.docAt m.text.source offset

def docAtAny (m : SourceModule) (offsets : List Nat) : Doc :=
  m.text.comments.docAtAny m.text.source offsets

/-- The language that a file name stands for. -/
def contextOf (path : Path) : Context :=
  let declarations := path.text.endsWith ".d.ts"
  { jsx := path.extension? == some "tsx", ambient := declarations, declarationFile := declarations }

/-- Reads a module. -/
def parse (path : Path) (source : String) (scanned : Bool) : Except SyntaxError SourceModule :=
  match parseModule (contextOf path) (SourceText.ofString source) with
  | .error e => .error e
  | .ok text => .ok ⟨path, text, Symbols.build (locate path text.source) text.statements, scanned⟩

/-- The relative specifiers of the imports and re-exports that a module keeps, sorted, each once. -/
def referencedSpecifiers (m : SourceModule) : List String :=
  let imports := m.symbols.imports.values.map (·.specifier)
  let reexports := m.symbols.exports.values.filterMap fun entry =>
    match entry.binding with
    | .reexport specifier _ => some specifier
    | .own _ => none
  let stars := m.symbols.stars.map (·.specifier)
  (((imports ++ reexports ++ stars).filter isRelative).mergeSort (· ≤ ·)).eraseDups

end SourceModule

/-- A name bound in a module. -/
structure SymbolRef where
  module : Path
  name : String
deriving BEq

/-- What a name stands for. -/
inductive Resolved where
  | symbol (ref : SymbolRef)
  /-- All of a loaded module. -/
  | wholeModule (path : Path)
  /-- A name of a package, which is never loaded. -/
  | external (specifier name : String)

def Resolved.isRuntime (r : Resolved) (export_ : String) : Bool :=
  match r with
  | .external specifier name => specifier == runtimeModule && name == export_
  | _ => false

/-- A type declaration found in a module. -/
structure TypeDecl where
  module : SourceModule
  name : String
  node : TypeNode
  itemStart : Nat

def TypeDecl.symbol (d : TypeDecl) : SymbolRef := ⟨d.module.path, d.name⟩

/-- A variable found in a module. -/
structure ValueDecl where
  module : SourceModule
  declared : Declarator
  key : Option String
  itemStart : Nat

namespace ValueDecl

def init (d : ValueDecl) : Option Expr := d.declared.init

def declaredType (d : ValueDecl) : Option TypeExpr :=
  match d.declared.pattern with
  | .name _ declaredType => declaredType
  | _ => none

end ValueDecl

structure Program where
  modules : List SourceModule := []

namespace Program

/-! ## Building -/

/-- Puts a module in its place; it replaces a module of the same path. -/
def insertSorted (m : SourceModule) : List SourceModule → List SourceModule
  | [] => [m]
  | other :: rest =>
    match m.path.compare other.path with
    | .lt => m :: other :: rest
    | .eq => m :: rest
    | .gt => other :: insertSorted m rest

def insert (p : Program) (m : SourceModule) : Program := ⟨insertSorted m p.modules⟩

/-- The module in a file, none when the file is not a module. That is reported of a scanned file. -/
def readModule (path : Path) (source : String) (scanned : Bool) : Reported (Option SourceModule) :=
  match SourceModule.parse path source scanned with
  | .ok m => pure (some m)
  | .error e =>
    if scanned then
      ⟨none, [.error .parseError ("failed to parse " ++ path.text ++ ": " ++ e.message)
        (some (SourceModule.locate path (SourceText.ofString source) e.offset))]⟩
    else pure none

/-- A file given by its text. -/
structure SourceFile where
  path : Path
  source : String
  scanned : Bool

namespace SourceFile

def read (file : SourceFile) : Reported (Option SourceModule) :=
  readModule file.path.normalize file.source file.scanned

end SourceFile

/-- A program with the modules in some files, added in order. -/
def ofFiles (p : Program) (files : List SourceFile) : Reported Program := do
  let modules ← Reported.eachSome SourceFile.read files
  pure (modules.foldl insert p)

/-! ## Looking up -/

def scannedModules (p : Program) : List SourceModule := p.modules.filter (·.scanned)

def module? (p : Program) (path : Path) : Option SourceModule :=
  p.modules.find? (·.path == path)

def isScanned (p : Program) (path : Path) : Bool := (p.module? path).any (·.scanned)

/-- The loaded module that a specifier in a file means. -/
def resolveModule (p : Program) (source : Path) (specifier : String) : Option SourceModule :=
  if isRelative specifier then
    (resolveSpecifier source specifier fun path => (p.module? path).isSome).bind p.module?
  else none

/-- Whether a module declares a name itself. -/
def declares (m : SourceModule) (name : String) : Bool :=
  m.symbols.types.contains name || m.symbols.values.contains name

def externalName : Imported → String
  | .named name => name
  | .default => "default"
  | .wholeModule => "*"

/-- A re-export hop ahead of the hops that are left. -/
abbrev Hop := SourceModule → String → Option Resolved

/-- A name seen from inside a module; `follow` resolves an export of the module it comes from. -/
def resolveNameWith (p : Program) (follow : Hop) (path : Path) (name : String) : Option Resolved := do
  let m ← p.module? path
  if declares m name then
    some (.symbol ⟨path, name⟩)
  else
    let i ← m.symbols.imports.get? name
    if !isRelative i.specifier then
      some (.external i.specifier (externalName i.imported))
    else
      let target ← p.resolveModule path i.specifier
      match i.imported with
      | .named imported => follow target imported
      | .default => follow target "default"
      | .wholeModule => some (.wholeModule target.path)

/-- An export that is listed by name, when `deeper` can resolve one hop further. -/
def resolveEntry (p : Program) (deeper : Option Hop) (m : SourceModule) :
    ExportBinding → Option Resolved
  | .own name =>
    if declares m name then some (.symbol ⟨m.path, name⟩)
    else if m.symbols.imports.contains name then
      deeper.bind fun follow => p.resolveNameWith follow m.path name
    else none
  | .reexport specifier name =>
    deeper.bind fun follow =>
      if !isRelative specifier then some (.external specifier name)
      else (p.resolveModule m.path specifier).bind fun target => follow target name

/-- An export by name, or else through the star exports in order. -/
def resolveExportWith (p : Program) (deeper : Option Hop) (m : SourceModule) (name : String) :
    Option Resolved :=
  match m.symbols.exports.get? name with
  | some entry => p.resolveEntry deeper m entry.binding
  | none =>
    deeper.bind fun follow =>
      if name == "default" then none
      else m.symbols.stars.findSome? fun star =>
        (p.resolveModule m.path star.specifier).bind fun target => follow target name

/-- A name as a module exports it, with `hops` more re-exports to follow. -/
def resolveExportWithin (p : Program) : Nat → Hop
  | 0 => p.resolveExportWith none
  | hops + 1 => p.resolveExportWith (some (p.resolveExportWithin hops))

/-- A name as a module exports it, after `depth` re-exports. -/
def resolveExport (p : Program) (m : SourceModule) (name : String) (depth : Nat) :
    Option Resolved :=
  p.resolveExportWithin (maxReexportHops - depth) m name

/-- A name as seen from inside a module. -/
def resolveName (p : Program) (path : Path) (name : String) : Option Resolved :=
  p.resolveNameWith (p.resolveExportWithin maxReexportHops) path name

/-! ## Declarations of names -/

def typeDecl? (p : Program) (ref : SymbolRef) : Option TypeDecl := do
  let m ← p.module? ref.module
  let site ← m.symbols.types.get? ref.name
  some ⟨m, ref.name, site.node, site.itemStart⟩

/-- The type that a name inside a module stands for. -/
def resolveType (p : Program) (path : Path) (name : String) : Option TypeDecl :=
  match p.resolveName path name with
  | some (.symbol ref) => p.typeDecl? ref
  | _ => none

def valueDecl? (p : Program) (ref : SymbolRef) : Option ValueDecl := do
  let m ← p.module? ref.module
  let site ← m.symbols.values.get? ref.name
  some ⟨m, site.declared, site.key, site.itemStart⟩

end Program

end SchemaCompiler

import SchemaCompiler.Table
import SchemaCompiler.TypeScript.Parser.Module

/-!
# What a module declares, imports and exports

The names of a module by what they stand for. A later declaration of a name takes the place of an
earlier one.
-/

namespace SchemaCompiler

open TypeScript

/-- A declaration that gives a type its name. -/
inductive TypeNode where
  | interface (decl : Interface)
  | alias (decl : Alias)
  | enum (decl : Enum)

namespace TypeNode

def span : TypeNode → Span
  | .interface d => d.span
  | .alias d => d.span
  | .enum d => d.span

def isGeneric : TypeNode → Bool
  | .interface d => d.generic
  | .alias d => d.generic
  | .enum _ => false

end TypeNode

/-- Where a type is declared: the statement, counted from zero, and where it starts. -/
structure TypeSite where
  item : Nat
  itemStart : Nat
  node : TypeNode

/-- Where a variable is declared; `key` is the property that it is taken from. -/
structure ValueSite where
  item : Nat
  itemStart : Nat
  declarator : Nat
  key : Option String
  declared : Declarator

structure ImportBinding where
  specifier : String
  imported : Imported

inductive ExportBinding where
  /-- A name of the module itself, also an imported one. -/
  | own (name : String)
  | reexport (specifier name : String)

structure ExportEntry where
  binding : ExportBinding
  isDefault : Bool
  location : SourceLocation

structure StarExport where
  specifier : String
  location : SourceLocation

structure Symbols where
  types : Table TypeSite := {}
  values : Table ValueSite := {}
  imports : Table ImportBinding := {}
  exports : Table ExportEntry := {}
  stars : List StarExport := []

namespace Symbols

/-! ## Declarations -/

def addType (s : Symbols) (name : String) (site : TypeSite) : Symbols :=
  { s with types := s.types.insert name site }

/-- The names that one declared variable binds, each with the key it is taken from. -/
def bindings : Pattern → List (String × Option String)
  | .name name _ => [(name, none)]
  | .object pairs => pairs.map fun (key, name) => (name, some key)
  | .other => []

def addDeclarator (item itemStart : Nat) (s : Symbols) (indexed : Declarator × Nat) : Symbols :=
  let (declared, index) := indexed
  { s with
    values := (bindings declared.pattern).foldl
      (fun values (name, key) => values.insert name ⟨item, itemStart, index, key, declared⟩)
      s.values }

/-- Adds a declaration at a statement; the second part is the names that it binds. -/
def addDeclaration (s : Symbols) (item itemStart : Nat) : Declaration → Symbols × List String
  | .interface d => (s.addType d.name ⟨item, itemStart, .interface d⟩, [d.name])
  | .alias d => (s.addType d.name ⟨item, itemStart, .alias d⟩, [d.name])
  | .enum d => (s.addType d.name ⟨item, itemStart, .enum d⟩, [d.name])
  | .bindings ds =>
    (ds.zipIdx.foldl (addDeclarator item itemStart) s,
      ds.flatMap fun d => (bindings d.pattern).map (·.1))
  | .function name => (s, [name])
  | .other => (s, [])

/-! ## Imports and exports -/

def addImport (specifier : String) (s : Symbols) (i : ImportSpecifier) : Symbols :=
  { s with imports := s.imports.insert i.binding ⟨specifier, i.imported⟩ }

def addExport (s : Symbols) (exported : String) (entry : ExportEntry) : Symbols :=
  { s with exports := s.exports.insert exported entry }

def addOwnExports (location : SourceLocation) (s : Symbols) (names : List String) : Symbols :=
  names.foldl (fun s name => s.addExport name ⟨.own name, false, location⟩) s

def addNamedExport (location : SourceLocation) (source : Option String) (s : Symbols)
    (e : ExportSpecifier) : Symbols :=
  let binding :=
    match source with
    | some specifier => .reexport specifier e.name
    | none => .own e.name
  s.addExport e.exported ⟨binding, e.exported == "default", location⟩

/-- Adds a statement; `index` counts the statements before it. -/
def addStatement (locate : Nat → SourceLocation) (s : Symbols) (indexed : Statement × Nat) :
    Symbols :=
  let (⟨span, item⟩, index) := indexed
  let location := locate span.lo
  match item with
  | .imports specifiers source => specifiers.foldl (addImport source) s
  | .declaration d => (s.addDeclaration index span.lo d).1
  | .exportDeclaration d =>
    let (s, names) := s.addDeclaration index span.lo d
    s.addOwnExports location names
  | .exportDefaultInterface d =>
    (s.addType d.name ⟨index, span.lo, .interface d⟩).addExport "default"
      ⟨.own d.name, true, location⟩
  | .exportDefaultExpr (.name name) => s.addExport "default" ⟨.own name, true, location⟩
  | .exportDefaultExpr _ => s
  | .exportNamed specifiers source => specifiers.foldl (addNamedExport location source) s
  | .exportAll source => { s with stars := s.stars ++ [⟨source, location⟩] }
  | .other => s

def build (locate : Nat → SourceLocation) (statements : List Statement) : Symbols :=
  statements.zipIdx.foldl (addStatement locate) {}

end Symbols

end SchemaCompiler

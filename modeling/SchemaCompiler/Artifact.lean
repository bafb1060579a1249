import SchemaCompiler.GraphQL.Document.Basic
import SchemaCompiler.GraphQL.Document.Printer
import SchemaCompiler.Path.Specifier
import SchemaCompiler.Table

/-!
# Generated modules

The type definitions and the resolver map are written as TypeScript modules.
-/

namespace SchemaCompiler

/-!
## The module of type definitions

A TypeScript module that exports the syntax tree of the schema.
-/

def generatedHeader : String := "// Code generated by gqlkit. DO NOT EDIT.\n"

def typeDefsCode (d : GraphQL.Document) : String :=
  generatedHeader ++ "import type \x7b DocumentNode \x7d from \"graphql\";\n\n" ++
    "export const typeDefs: DocumentNode = " ++ d.tree.pretty ++ ";\n"

/-!
## The resolver map

The generated module imports every module that resolvers come from as a namespace and exports one
function that returns the resolvers by type and field, the values of renamed enum members, and the
scalars that it is given. `ResolverMap` is that module before it is written.
-/

open GraphQL

/-! ### Namespaces -/

/-- The identifier of each imported module. -/
abbrev Namespaces := SortedTable String

namespace Namespaces

/-- Characters that cannot stand in an identifier become underscores. -/
def identChar (c : Char) : Char := if c.isAlphanum then c else '_'

def isPathPart (part : List Char) : Bool := !part.isEmpty && part != ['.'] && part != ['.', '.']

/-- The identifier that a specifier suggests: `../resolvers/user-queries` gives
`resolvers_user_queries`. -/
def identChars (specifier : List Char) : List Char :=
  let parts := (Text.splitAt (· == '/') specifier).filter isPathPart
  let ident := Text.joinWith ['_'] (parts.map (·.map identChar))
  match ident with
  | [] => ['_']
  | c :: _ => if c.isDigit then '_' :: ident else ident

def ident (specifier : String) : String := String.ofList (identChars specifier.toList)

/-- The names to try in turn: the base alone, then with the numbers from two on. -/
def candidate (base : String) : Nat → String
  | 0 => base
  | n + 1 => base ++ toString (n + 2)

/-- The first name that is not in use. Among one more names than are in use, there is one. -/
def fresh (used : List String) (base : String) : String :=
  (((List.range (used.length + 1)).map (candidate base)).find? fun n => !used.contains n).getD base

/-- The identifier of a file's module, with the table that knows it. -/
def lookup (table : Namespaces) (dir file : Path) : String × Namespaces :=
  let specifier := relativeImport dir file
  match table.get? specifier with
  | some name => (name, table)
  | none =>
    let name := fresh table.values (ident specifier)
    (name, table.insert specifier name)

end Namespaces

/-! ### The map -/

/-- An export of an imported module. -/
structure ResolverExport where
  space : String
  name : String
deriving DecidableEq, Repr

/-- What stands under the name of a type. -/
inductive MapEntry where
  | fields (resolvers : SortedTable ResolverExport)
  | values (members : List (String × String))
  | scalar (name : String)

structure ResolverMap where
  /-- Imported types by module. -/
  types : SortedTable (List String)
  namespaces : Namespaces
  /-- Scalars that the function is given, sorted by name. -/
  scalars : List ScalarDefinition
  entries : SortedTable MapEntry

namespace ResolverMap

/-- Adds a field to the resolvers of its type. One that no resolver is known of is left out. -/
def addField (dir : Path) (done : SortedTable ResolverExport × Namespaces) (f : ResolvedField) :
    SortedTable ResolverExport × Namespaces :=
  match f.sourceFile, f.exportName with
  | some file, some name =>
    let (space, table) := done.2.lookup dir file
    (done.1.insert f.field.name ⟨space, name⟩, table)
  | _, _ => done

/-- The resolvers of one type. -/
def fieldEntries (dir : Path) (table : Namespaces) (fields : List ResolvedField) :
    SortedTable ResolverExport × Namespaces :=
  fields.foldl (addField dir) ({}, table)

def addExtension (dir : Path) (done : SortedTable MapEntry × Namespaces) (e : TypeExtension) :
    SortedTable MapEntry × Namespaces :=
  let (fields, table) := fieldEntries dir done.2 e.fields
  (if fields.entries.isEmpty then done.1 else done.1.insert e.target (.fields fields), table)

/-- Whether members of an enum have other names in the schema than at run time. -/
def isRenamed (t : TypeDef) : Bool :=
  t.kind == .enum && t.enumValues.any fun v => v.name != v.literal

def addEnum (entries : SortedTable MapEntry) (t : TypeDef) : SortedTable MapEntry :=
  if isRenamed t && !entries.contains t.name then
    entries.insert t.name (.values (t.enumValues.map fun v => (v.name, v.literal)))
  else entries

def addScalar (entries : SortedTable MapEntry) (s : ScalarDefinition) : SortedTable MapEntry :=
  entries.insert s.name (.scalar s.name)

/-- The module that a scalar's type is imported from. -/
def typeModule? (dir : Path) (t : ScalarTypeRef) : Option String :=
  t.importPath.or (t.sourceFile.map (relativeImport dir))

def addType (dir : Path) (imports : SortedTable (List String)) (t : ScalarTypeRef) :
    SortedTable (List String) :=
  match typeModule? dir t with
  | none => imports
  | some specifier =>
    imports.alter specifier fun names =>
      let names := names.getD []
      if names.contains t.typeName then names else names ++ [t.typeName]

def scalarTypes (s : ScalarDefinition) : List ScalarTypeRef := s.inputType.toList ++ s.outputTypes

/-- The map of a schema for a module in a directory. -/
def ofSchema (s : Schema) (dir : Path) : ResolverMap :=
  let (entries, namespaces) := s.extensions.foldl (addExtension dir) ({}, {})
  let scalars := sortByName (·.name) s.customScalars
  { types := (scalars.flatMap scalarTypes).foldl (addType dir) {}
    namespaces
    scalars
    entries := scalars.foldl addScalar (s.baseTypes.foldl addEnum entries) }

/-! ### Text -/

def typeImportLine (entry : String × List String) : String :=
  "import type \x7b " ++ ", ".intercalate (entry.2.mergeSort (· ≤ ·)) ++ " \x7d from \"" ++
    entry.1 ++ "\";\n"

def namespaceImportLine (entry : String × String) : String :=
  "import * as " ++ entry.2 ++ " from \"" ++ entry.1 ++ "\";\n"

def scalarParameter (s : ScalarDefinition) : String :=
  let input := (s.inputType.map (·.typeName)).getD "unknown"
  let outputs := s.outputTypes.map (·.typeName)
  let output := if outputs.isEmpty then "unknown" else " | ".intercalate outputs
  "      " ++ s.name ++ ": GraphQLScalarType<" ++ input ++ ", " ++ output ++ ">;"

def signature (scalars : List ScalarDefinition) : String :=
  if scalars.isEmpty then "export function createResolvers() \x7b\n"
  else
    "export function createResolvers(\x7b scalars \x7d: \x7b\n  scalars: \x7b\n" ++
      "\n".intercalate (scalars.map scalarParameter) ++ "\n  \x7d;\n\x7d) \x7b\n"

def braced (lines : List String) : String := "\x7b\n" ++ "\n".intercalate lines ++ "\n    \x7d"

def entryText : MapEntry → String
  | .fields resolvers =>
    braced (resolvers.entries.map fun (name, r) =>
      "      " ++ name ++ ": " ++ r.space ++ "." ++ r.name ++ ",")
  | .values members =>
    braced (members.map fun (name, value) => "      " ++ name ++ ": " ++ Json.quote value ++ ",")
  | .scalar name => "scalars." ++ name

def entryLine (entry : String × MapEntry) : String :=
  "    " ++ entry.1 ++ ": " ++ entryText entry.2 ++ ",\n"

def code (m : ResolverMap) : String :=
  generatedHeader ++
    (if m.scalars.isEmpty then "" else "import type \x7b GraphQLScalarType \x7d from \"graphql\";\n") ++
    String.join (m.types.entries.map typeImportLine) ++
    String.join (m.namespaces.entries.map namespaceImportLine) ++ "\n" ++ signature m.scalars ++
    "  return \x7b\n" ++ String.join (m.entries.entries.map entryLine) ++ "  \x7d;\n\x7d\n"

end ResolverMap

def resolversCode (s : Schema) (dir : Path) : String := (ResolverMap.ofSchema s dir).code

end SchemaCompiler

import SchemaCompiler.Config.Basic
import SchemaCompiler.Exported.Basic
import SchemaCompiler.Program.Basic
import SchemaCompiler.Resolver.Basic

/-!
# Small programs

Programs of one scanned module that exports what it declares, given by their syntax trees. Names of
the runtime package need no import.

An evaluation asks many times whether two texts are equal. Where `String.decEq` is irreducible, the
answers are computed and not also found by unfolding the comparison, which takes most of the time.
-/

namespace SchemaCompiler.Sample

open TypeScript

def file : Path := ⟨"t"⟩

def place : SourceLocation := ⟨file, 1, 1⟩

def span : Span := ⟨0, 0⟩

/-! ## Types -/

def keyword (word : Keyword) : TypeExpr := .keyword span word

def text (value : String) : TypeExpr := .literal span (.string value)

def named (name : String) : TypeExpr := .reference span (.ident name) []

def applied (name : String) (arguments : List TypeExpr) : TypeExpr :=
  .reference span (.ident name) arguments

def union (types : List TypeExpr) : TypeExpr := .union span types

def property (name : String) (type : TypeExpr) : Member :=
  .property span (.fixed name) false (some type)

def object (members : List Member) : TypeExpr := .object span members

/-! ## Declarations -/

def interface (name : String) (members : List Member) : String × TypeSite :=
  (name, ⟨0, 0, .interface ⟨span, name, false, [], members⟩⟩)

/-- An interface that extends others. -/
def extending (name : String) (parents : List String) (members : List Member) : String × TypeSite :=
  (name, ⟨0, 0, .interface ⟨span, name, false, parents.map fun parent => ⟨span, some parent⟩,
    members⟩⟩)

def typeAlias (name : String) (body : TypeExpr) : String × TypeSite :=
  (name, ⟨0, 0, .alias ⟨span, name, false, body⟩⟩)

/-- A constant of a type. -/
def constant (name : String) (type : TypeExpr) : String × ValueSite :=
  (name, ⟨0, 0, 0, none, span, .name name (some type), none⟩)

/-! ## Programs -/

def sourceModule (types : List (String × TypeSite)) (values : List (String × ValueSite)) :
    SourceModule where
  path := file
  text := ⟨⟨[], [0]⟩, [], {}⟩
  symbols :=
    { types := ⟨types⟩
      values := ⟨values⟩
      exports := ⟨(types.map (·.1) ++ values.map (·.1)).map fun name =>
        (name, ⟨.own name, false, place⟩)⟩ }
  scanned := true

/-- Keeps a name of a module to itself. -/
def hide (name : String) (m : SourceModule) : SourceModule :=
  { m with
    symbols := { m.symbols with exports := ⟨m.symbols.exports.entries.filter (·.1 != name)⟩ } }

def program (types : List (String × TypeSite)) (values : List (String × ValueSite)) : Program :=
  ⟨[sourceModule types values]⟩

/-! ## What programs export -/

/-- An exported interface. -/
def exportedInterface (name : String) (fields : List Field) : ExportedType :=
  { name, kind := .interface, sourceFile := file, location := place, exportKind := .named
    description := none, deprecated := none, fields }

/-- An exported type before it is known what it is made of. -/
def exportedType (name : String) (kind : TypeKind) : ExportedType :=
  { name, kind, sourceFile := file, location := place, exportKind := .named, description := none
    deprecated := none }

/-- A member of a union of texts. -/
def textMember (value : String) : EnumLiteral := ⟨value, value, none, none⟩

/-- A resolver with one argument. It belongs to no type that it names. -/
def resolver (kind : ResolverKind) (name : String) (argument : Field) (returnType : TypeRef) :
    Resolver :=
  { fieldName := name, kind, parent := none, args := some [argument], returnType
    exportedInputTypes := [], description := none, deprecated := none, sourceFile := file
    exportName := name, location := place }

/-- What a term comes to. An outcome is data and no theorem: the equations that a theorem unfolds on
its way are generated for it alone, those of data also for all that is evaluated further on. -/
structure Outcome {α : Type} (term : α) where
  value : α
  eq : term = value

/-- A configuration that asks for nothing but perhaps pruning. -/
def config (enablePruning : Bool) : Config :=
  ⟨⟨"src"⟩, [], none, none, none, none, [], [], enablePruning⟩

end SchemaCompiler.Sample

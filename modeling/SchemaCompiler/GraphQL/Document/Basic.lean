import SchemaCompiler.GraphQL.Basic
import SchemaCompiler.GraphQL.Schema

/-!
# Schema documents

The syntax tree of a document in the schema definition language, as far as a schema needs it.
-/

namespace SchemaCompiler.GraphQL

/-- A named type under any number of list and non-null marks. -/
inductive TypeNode where
  | named (name : String)
  | list (item : TypeNode)
  | nonNull (inner : TypeNode)
deriving DecidableEq, Repr

namespace TypeNode

/-- Marks a type as non-null, once. -/
def required : TypeNode → TypeNode
  | nonNull inner => nonNull inner
  | t => nonNull t

def ofFieldType (t : FieldType) : TypeNode :=
  let named := TypeNode.named t.typeName
  let inner :=
    if t.list then list (if t.listItemNullable then named else named.required) else named
  if t.nullable then inner else inner.required

end TypeNode

/-- A directive with its string arguments. -/
structure Directive where
  name : String
  arguments : List (String × String)
deriving DecidableEq, Repr

structure InputValueNode where
  description : Option String
  name : String
  type : TypeNode
  directives : List Directive
deriving DecidableEq, Repr

structure FieldNode where
  description : Option String
  name : String
  arguments : List InputValueNode
  type : TypeNode
  directives : List Directive
deriving DecidableEq, Repr

structure EnumValueNode where
  description : Option String
  name : String
  directives : List Directive
deriving DecidableEq, Repr

/-- What every definition of a type starts with. -/
structure TypeHead where
  description : Option String
  name : String
  directives : List Directive
deriving DecidableEq, Repr

inductive Definition where
  | scalar (head : TypeHead)
  | object (head : TypeHead) (interfaces : List String) (fields : List FieldNode)
  | interface (head : TypeHead) (interfaces : List String) (fields : List FieldNode)
  | union (head : TypeHead) (members : List String)
  | enum (head : TypeHead) (values : List EnumValueNode)
  | inputObject (head : TypeHead) (fields : List InputValueNode)
  | extension (name : String) (fields : List FieldNode)
deriving DecidableEq, Repr

structure Document where
  definitions : List Definition
deriving DecidableEq, Repr

/-!
## The document of a schema

Custom scalars come first, then base types, input objects and extensions, each group sorted by name.
Fields, interfaces and union members are sorted too; arguments and enum values stay as they are.
-/

namespace Directive

def ofDeprecation : Option Deprecation → List Directive
  | none => []
  | some d => [⟨"deprecated", (d.reason.map fun reason => ("reason", reason)).toList⟩]

def oneOf : Directive := ⟨"oneOf", []⟩

end Directive

/-- Sorts by name; items of one name stay in order. -/
def sortByName {α : Type} (name : α → String) (items : List α) : List α :=
  items.mergeSort fun a b => name a ≤ name b

def sortedNames (names : List String) : List String := (names.mergeSort (· ≤ ·)).eraseDups

def InputValueNode.of (v : InputValue) : InputValueNode :=
  ⟨v.description, v.name, .ofFieldType v.type, Directive.ofDeprecation v.deprecated⟩

def FieldNode.of (f : Field) : FieldNode :=
  ⟨f.description, f.name, f.args.map InputValueNode.of, .ofFieldType f.type,
    Directive.ofDeprecation f.deprecated⟩

def EnumValueNode.of (v : EnumValue) : EnumValueNode :=
  ⟨v.description, v.name, Directive.ofDeprecation v.deprecated⟩

def fieldNodes (fields : List Field) : List FieldNode :=
  (sortByName (·.name) fields).map FieldNode.of

namespace Definition

def head (t : TypeDef) : TypeHead := ⟨t.description, t.name, Directive.ofDeprecation t.deprecated⟩

def ofScalar (s : ScalarDefinition) : Definition := scalar ⟨s.description, s.name, []⟩

def ofBase (t : TypeDef) : Definition :=
  match t.kind with
  | .interface => interface (head t) (sortedNames t.interfaces) (fieldNodes t.fields)
  | .union => union (head t) (sortedNames t.unionMembers)
  | .enum => enum (head t) (t.enumValues.map EnumValueNode.of)
  | .scalar => scalar (head t)
  | .object => object (head t) (sortedNames t.interfaces) (fieldNodes t.fields)
  | .inputObject => object (head t) (sortedNames t.interfaces) (fieldNodes t.fields)

def ofInput (t : InputType) : Definition :=
  let directives := Directive.ofDeprecation t.deprecated ++ if t.oneOf then [Directive.oneOf] else []
  inputObject ⟨t.description, t.name, directives⟩
    ((sortByName (·.name) t.fields).map InputValueNode.of)

def ofExtension (e : TypeExtension) : Definition :=
  extension e.target (fieldNodes (e.fields.map (·.field)))

end Definition

def Document.ofSchema (s : Schema) : Document :=
  ⟨(sortByName (·.name) s.customScalars).map Definition.ofScalar ++
    (sortByName (·.name) s.baseTypes).map Definition.ofBase ++
    (sortByName (·.name) s.inputTypes).map Definition.ofInput ++
    (sortByName (·.target) s.extensions).map Definition.ofExtension⟩

end SchemaCompiler.GraphQL

import SchemaCompiler.GraphQL.Resolvers
import SchemaCompiler.GraphQL.Types

/-!
# Schemas

A schema is put together from declared types, from the fields that resolvers answer and from custom
scalars. A resolver field goes into an extension of its type, unless the type declares a field of
that name or an earlier resolver defines it.
-/

namespace SchemaCompiler.GraphQL

structure Schema where
  baseTypes : List TypeDef := []
  inputTypes : List InputType := []
  extensions : List TypeExtension := []
  hasQuery : Bool := false
  hasMutation : Bool := false
  customScalars : List ScalarDefinition := []

namespace Schema

def baseType? (s : Schema) (name : String) : Option TypeDef := s.baseTypes.find? (·.name == name)

def inputType? (s : Schema) (name : String) : Option InputType :=
  s.inputTypes.find? (·.name == name)

def scalarNames (s : Schema) : List String := s.customScalars.map (·.name)

/-! ## Types -/

def InputType.ofTypeDef (t : TypeDef) : InputType :=
  ⟨t.name, t.fields.map Field.asInput, t.oneOf, t.description, t.deprecated, t.sourceFile,
    t.location⟩

def addType (s : Schema) (t : TypeDef) : Schema :=
  if t.kind = .inputObject then { s with inputTypes := s.inputTypes ++ [InputType.ofTypeDef t] }
  else { s with baseTypes := s.baseTypes ++ [t] }

/-- The first type of each name. One that differs from the first is reported. -/
def distinctTypes (seen : List TypeDef) : List TypeDef → Reported (List TypeDef)
  | [] => pure seen
  | t :: rest =>
    match seen.find? (·.name == t.name) with
    | none => distinctTypes (seen ++ [t]) rest
    | some first => do
      if first != t then
        Reported.report (.error .duplicateTypeName
          ("type \"" ++ t.name ++ "\" is produced by more than one declaration") t.location)
      distinctTypes seen rest

/-- Adds an empty root type, unless the schema has one. -/
def addRoot (s : Schema) (name : String) : Schema :=
  if (s.baseType? name).isSome then s
  else { s with baseTypes := s.baseTypes ++ [{ name, kind := .object }] }

/-- Types, scalars and the root types that resolvers need. -/
def ofTypes (types : List TypeDef) (scalars : List ScalarDefinition) (r : ResolverFields) :
    Schema :=
  let s : Schema := { types.foldl addType {} with customScalars := scalars }
  let s := if r.query.isEmpty then s else { s.addRoot queryType with hasQuery := true }
  if r.mutation.isEmpty then s else { s.addRoot mutationType with hasMutation := true }

/-! ## Extensions -/

/-- What keeps a resolver field out of an extension that holds `kept` already. -/
def clash? (declared : List Field) (kept : List ResolvedField) (target name : String) :
    Option String :=
  let field := "field \"" ++ target ++ "." ++ name ++ "\""
  if declared.any (·.name == name) then
    some (field ++ " is declared on the type and also defined by a resolver")
  else if kept.any (·.field.name == name) then
    some (field ++ " is defined by more than one resolver")
  else none

def keepFields (declared : List Field) (target : String) (kept : List ResolvedField) :
    List ResolvedField → Reported (List ResolvedField)
  | [] => pure kept
  | f :: rest =>
    match clash? declared kept target f.field.name with
    | some message => do
      Reported.report (.error .duplicateFieldDefinition message f.field.location)
      keepFields declared target kept rest
    | none => keepFields declared target (kept ++ [f]) rest

def extension (s : Schema) (target : String) (fields : List ResolvedField) :
    Reported TypeExtension := do
  let declared := ((s.baseType? target).map (·.fields)).getD []
  let kept ← keepFields declared target [] fields
  pure ⟨target, kept⟩

def kindName : Kind → String
  | .object => "Object"
  | .inputObject => "InputObject"
  | .enum => "Enum"
  | .union => "Union"
  | .scalar => "Scalar"
  | .interface => "Interface"

/-- What a name stands for in the schema. -/
def kindOf? (s : Schema) (name : String) : Option Kind :=
  match s.baseType? name with
  | some t => some t.kind
  | none =>
    if (s.inputType? name).isSome then some .inputObject
    else if isBuiltinScalar name || s.scalarNames.contains name then some .scalar
    else none

/-- Only objects can be extended. -/
def checkTarget (s : Schema) (e : TypeExtension) : Reported Unit :=
  let origin := e.fields.head?
  let location := origin.bind (·.field.location)
  let source :=
    match origin.bind (·.sourceFile) with
    | some file => " (resolver in " ++ file.text ++ ")"
    | none => ""
  match s.kindOf? e.target with
  | some .object => pure ()
  | some kind =>
    .report (.error .invalidExtensionTarget
      ("field resolvers can only extend object types, but \"" ++ e.target ++ "\" is " ++
        kindName kind ++ source) location)
  | none =>
    .report (.error .unknownTargetType
      ("resolver fields target unknown type \"" ++ e.target ++ "\"" ++ source) location)

def checkedExtension (s : Schema) (entry : String × List ResolvedField) :
    Reported TypeExtension := do
  let e ← s.extension entry.1 entry.2
  s.checkTarget e
  pure e

/-- The types that resolvers extend, each with its resolvers' fields. -/
def targets (r : ResolverFields) : List (String × List ResolvedField) :=
  ([(queryType, r.query), (mutationType, r.mutation)].filter fun entry => !entry.2.isEmpty) ++
    r.extensions.entries

end Schema

/-- Puts a schema together. -/
def integrate (types : List TypeDef) (r : ResolverFields) (scalars : List ScalarDefinition) :
    Reported Schema := do
  let types ← Schema.distinctTypes [] (types ++ r.types)
  let s := Schema.ofTypes types scalars r
  let extensions ← Reported.each s.checkedExtension (Schema.targets r)
  pure { s with extensions }

end SchemaCompiler.GraphQL

import SchemaCompiler.Exported.Basic
import SchemaCompiler.GraphQL.Inline
import SchemaCompiler.Scalar.Collect

/-!
# Schema types from exported types

An exported object whose name ends in `Input` becomes an input object, a union of written-out
objects of such a name an input object of which exactly one field is given. Enum members are
renamed to screaming snake case.
-/

namespace SchemaCompiler.GraphQL

def isNameStart (c : Char) : Bool := c.isAlpha || c == '_'

def isNameRest (c : Char) : Bool := c.isAlphanum || c == '_'

/-- Whether a text is a name of the schema language. -/
def isName (s : String) : Bool :=
  match s.toList with
  | [] => false
  | c :: cs => isNameStart c && cs.all isNameRest

namespace Lowering

def kindText : TypeKind → String
  | .interface => "interface"
  | .object => "object"
  | .enum => "enum"
  | .union => "union"
  | .graphqlInterface => "graphqlInterface"

/-- Refuses a type that has the name of an input object. -/
def invalidInput (t : ExportedType) : Lowering (Option TypeDef) := do
  report (.error .invalidInputType
    ("type \"" ++ t.name ++ "\" ends with \"Input\" but is a " ++ kindText t.kind ++
      "; only object types can be input types") (some t.location))
  pure none

/-- What an exported type keeps whatever it becomes. -/
def frame (t : ExportedType) (kind : Kind) : TypeDef :=
  { name := t.name, kind, description := t.description, deprecated := t.deprecated,
    sourceFile := some t.sourceFile, location := some t.location }

def inputObject (t : ExportedType) : Lowering (Option TypeDef) := do
  let fields ← fieldsOf .input t.name t.fields
  pure (some { frame t .inputObject with fields })

/-- An object or an interface. -/
def outputObject (t : ExportedType) (kind : Kind) : Lowering (Option TypeDef) := do
  let fields ← fieldsOf .output t.name t.fields
  pure (some { frame t kind with fields, interfaces := t.interfaces })

/-- The members that become enum values; the others are reported. -/
def enumValues (t : ExportedType) : List EnumLiteral → Lowering (List EnumValue)
  | [] => pure []
  | m :: rest => do
    let name := Text.screamingSnake m.name
    if isName name then
      let values ← enumValues t rest
      pure (⟨name, m.value, m.description, m.deprecated⟩ :: values)
    else
      report (.error .invalidEnumMember
        ("enum \"" ++ t.name ++ "\" member \"" ++ m.name ++ "\" becomes \"" ++ name ++
          "\", which is not a valid GraphQL enum value") (some t.location))
      enumValues t rest

def enumType (t : ExportedType) : Lowering (Option TypeDef) := do
  let values ← enumValues t t.enumMembers
  pure (some { frame t .enum with enumValues := values })

def invalidOneOf (t : ExportedType) (member : List SchemaCompiler.Field) : Diagnostic :=
  .error .invalidOneOfMember
    ("oneOf input \"" ++ t.name ++ "\" members must have exactly one property, found " ++
      toString member.length)
    ((member.head?.bind (·.location)).or (some t.location))

/-- The fields of an input object of which one is given: one property from each member, and none of
them required. -/
def oneOfFields (t : ExportedType) : List (List SchemaCompiler.Field) → Lowering (List Field)
  | [] => pure []
  | member :: rest =>
    match member with
    | [p] => do
      let f ← fieldOf .input t.name p
      let fs ← oneOfFields t rest
      pure ({ f with type := { f.type with nullable := true } } :: fs)
    | other => do
      report (invalidOneOf t other)
      oneOfFields t rest

def oneOfInput (t : ExportedType) : Lowering (Option TypeDef) := do
  let fields ← oneOfFields t t.inlineMembers
  pure (some { frame t .inputObject with fields, oneOf := true })

def inlineUnionOutput (t : ExportedType) : Lowering (Option TypeDef) := do
  report (.error .unsupportedSyntax
    ("union \"" ++ t.name ++ "\" of object literals is only supported as a oneOf input (name it `" ++
      t.name ++ "Input`)") (some t.location))
  pure none

/-- What an exported type becomes; none when it is refused. -/
def typeDef (t : ExportedType) : Lowering (Option TypeDef) :=
  let isInput := isInputName t.name
  match t.kind with
  | .interface => if isInput then inputObject t else outputObject t .object
  | .object => if isInput then inputObject t else outputObject t .object
  | .graphqlInterface => if isInput then invalidInput t else outputObject t .interface
  | .enum => if isInput then invalidInput t else enumType t
  | .union =>
    if !t.inlineMembers.isEmpty then if isInput then oneOfInput t else inlineUnionOutput t
    else if isInput then invalidInput t
    else pure (some { frame t .union with unionMembers := t.unionMembers })

def reservedName (t : ExportedType) : Diagnostic :=
  .error .reservedTypeName
    ("type name \"" ++ t.name ++ "\" is reserved for a built-in GraphQL scalar") (some t.location)

def repeatedName (t : ExportedType) : Diagnostic :=
  .error .duplicateTypeName ("type \"" ++ t.name ++ "\" is declared more than once")
    (some t.location)

/-- Adds the types in order to those that are there; a name is taken once. -/
def typeDefs (done : List TypeDef) : List ExportedType → Lowering (List TypeDef)
  | [] => pure done
  | t :: rest => do
    if isBuiltinScalar t.name then
      report (reservedName t)
      typeDefs done rest
    else if done.any (·.name == t.name) then
      report (repeatedName t)
      typeDefs done rest
    else
      match ← typeDef t with
      | some d => typeDefs (done ++ [d]) rest
      | none => typeDefs done rest

end Lowering

/-- Adds the types that were made for written-out objects. -/
def addInline (types : List TypeDef) : List TypeDef → Reported (List TypeDef)
  | [] => pure types
  | t :: rest =>
    if types.any (·.name == t.name) then do
      Reported.report (.error .duplicateTypeName
        ("inline object type \"" ++ t.name ++ "\" collides with a declared type") t.location)
      addInline types rest
    else addInline (types ++ [t]) rest

/-- The schema types of exported types. -/
def lowerTypes (types : List ExportedType) : Reported (List TypeDef) := do
  let (declared, made) := (Lowering.typeDefs [] types).run {}
  let result ← (⟨declared, made.diagnostics⟩ : Reported (List TypeDef))
  addInline result made.types

end SchemaCompiler.GraphQL

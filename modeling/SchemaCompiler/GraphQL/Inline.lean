import SchemaCompiler.GraphQL.Basic
import SchemaCompiler.Text.Casing

/-!
# Field types from shapes

A shape becomes the name of a schema type, perhaps in a list. An object that is written out in the
place of a type gets a name from where it stands, and a type of that name is made for it. Objects in
input positions get the suffix `Input`.
-/

namespace SchemaCompiler.GraphQL

def inputSuffix : String := "Input"

def isInputName (name : String) : Bool := name.endsWith inputSuffix

def stripInputSuffix (name : String) : String :=
  if isInputName name then (name.dropEnd inputSuffix.length).toString else name

/-- The types made for written-out objects so far, and what was reported. -/
structure Synthesis where
  types : List TypeDef := []
  diagnostics : List Diagnostic := []

abbrev Lowering := StateM Synthesis

namespace Lowering

def report (d : Diagnostic) : Lowering Unit :=
  modify fun s => { s with diagnostics := s.diagnostics ++ [d] }

/-- The name and the kind of a type for an object written out on one side of the schema. -/
def inlineName (side : Side) (hint : String) : String × Kind :=
  match side with
  | .output => (hint, .object)
  | .input => (hint ++ inputSuffix, .inputObject)

/-- Keeps a made type, unless there is one of its name already. -/
def keep (t : TypeDef) : Lowering Unit := do
  match (← get).types.find? (·.name == t.name) with
  | none => modify fun s => { s with types := s.types ++ [t] }
  | some existing =>
    if existing.fields != t.fields then
      report (.error .duplicateTypeName
        ("two different inline objects would both be named \"" ++ t.name ++ "\"") t.location)

/-- Reports a scalar that is bound to the other side. -/
def checkSide (side : Side) (location : Option SourceLocation) (use : ScalarUse) :
    Lowering Unit :=
  let misuse (code : Code) (only : String) : Lowering Unit :=
    report (.error code
      ("`" ++ use.typeName ++ "` is an " ++ only ++ "-only binding of scalar \"" ++ use.scalar ++
        "\" and cannot be used here") location)
  match side, use.only with
  | .input, some .output => misuse .outputOnlyScalarInInput "output"
  | .output, some .input => misuse .inputOnlyScalarInOutput "input"
  | _, _ => pure ()

def primitiveName : Primitive → String
  | .string => "String"
  | .number => "Float"
  | .boolean => "Boolean"

def literalName : Literal → String
  | .string _ => "String"
  | .number _ => "Float"
  | .boolean _ => "Boolean"

def isArray : TypeShape → Bool
  | .array _ => true
  | _ => false

def nestedLists (location : Option SourceLocation) : Diagnostic :=
  .error .unsupportedSyntax "nested lists are not supported" location

def inlineUnion (location : Option SourceLocation) : Diagnostic :=
  .error .unsupportedSyntax "inline unions must be declared as a named type alias" location

/-- Names what is written out in the type of a field. -/
def fieldHint (owner name : String) : String := stripInputSuffix owner ++ Text.pascal name

mutual

/-- The name of the schema type for a shape. -/
def typeName (side : Side) (hint : String) (location : Option SourceLocation) :
    TypeShape → Lowering String
  | .primitive kind => pure (primitiveName kind)
  | .literal value => pure (literalName value)
  | .reference name => pure name
  | .scalar use => do
    checkSide side location use
    pure use.scalar
  | .array element => elementName side hint location element
  | .union members => do
    report (inlineUnion location)
    firstName side hint location members
  | .inlineObject properties => do
    let (name, kind) := inlineName side hint
    let fields ← fieldsOf side name properties
    keep { name, kind, fields, sourceFile := location.map (·.file), location }
    pure name

def elementName (side : Side) (hint : String) (location : Option SourceLocation) :
    Nullable TypeShape → Lowering String
  | ⟨shape, _⟩ => typeName side hint location shape

def firstName (side : Side) (hint : String) (location : Option SourceLocation) :
    List (Nullable TypeShape) → Lowering String
  | [] => pure "String"
  | t :: _ => elementName side hint location t

/-- The type of a field. -/
def fieldType (side : Side) (hint : String) (location : Option SourceLocation) (optional : Bool) :
    Nullable TypeShape → Lowering FieldType
  | ⟨.array element, nullable⟩ => do
    if isArray element.shape then report (nestedLists location)
    let item ← elementName side hint location element
    pure (.listOf item (nullable || optional) element.nullable)
  | ⟨shape, nullable⟩ => do
    let name ← typeName side hint location shape
    pure (.named name (nullable || optional))

def fieldOf (side : Side) (owner : String) :
    Property (Nullable TypeShape) → Lowering Field
  | ⟨name, type, optional, description, deprecated, location⟩ => do
    let type ← fieldType side (fieldHint owner name) location optional type
    pure ⟨name, type, [], description, deprecated, location⟩

def fieldsOf (side : Side) (owner : String) :
    List (Property (Nullable TypeShape)) → Lowering (List Field)
  | [] => pure []
  | p :: rest => do
    let f ← fieldOf side owner p
    let fs ← fieldsOf side owner rest
    pure (f :: fs)

end

end Lowering

end SchemaCompiler.GraphQL

import SchemaCompiler.Path.Basic

/-!
# Diagnostics

What is wrong with the analysed program is reported and never stops the analysis. `Reported α` is
a value together with the diagnostics met on the way to it, in the order in which they were met.
-/

namespace SchemaCompiler

inductive Severity where
  | error
  | warning
deriving DecidableEq, Repr, Inhabited

def Severity.text : Severity → String
  | error => "error"
  | warning => "warning"

inductive Code where
  | parseError
  | unsupportedSyntax
  | unsupportedEnumType
  | moduleResolutionError
  | invalidDefineCall
  | invalidOneOfMember
  | multipleInputTypes
  | missingInputType
  | missingOutputType
  | reservedTypeName
  | invalidEnumMember
  | invalidInputType
  | duplicateTypeName
  | outputOnlyScalarInInput
  | inputOnlyScalarInOutput
  | unknownTargetType
  | invalidExtensionTarget
  | duplicateFieldDefinition
  | unknownArgumentType
  | unknownFieldType
  | outputTypeInInput
  | circularInputReference
  | configInvalidType
  | configMissingProperty
  | configBuiltinOverride
  | configDuplicateMapping
  | configDuplicateType
  | configInvalidPath
  | configInvalidSourceDir
  | configInvalidIgnoreGlobs
  | configInvalidOutputType
  | configInvalidOutputPath
  | configInvalidHookType
  | configInvalidHookCommand
deriving DecidableEq, Repr, Inhabited

namespace Code

def text : Code → String
  | parseError => "PARSE_ERROR"
  | unsupportedSyntax => "UNSUPPORTED_SYNTAX"
  | unsupportedEnumType => "UNSUPPORTED_ENUM_TYPE"
  | moduleResolutionError => "MODULE_RESOLUTION_ERROR"
  | invalidDefineCall => "INVALID_DEFINE_CALL"
  | invalidOneOfMember => "INVALID_ONE_OF_MEMBER"
  | multipleInputTypes => "MULTIPLE_INPUT_TYPES"
  | missingInputType => "MISSING_INPUT_TYPE"
  | missingOutputType => "MISSING_OUTPUT_TYPE"
  | reservedTypeName => "RESERVED_TYPE_NAME"
  | invalidEnumMember => "INVALID_ENUM_MEMBER"
  | invalidInputType => "INVALID_INPUT_TYPE"
  | duplicateTypeName => "DUPLICATE_TYPE_NAME"
  | outputOnlyScalarInInput => "OUTPUT_ONLY_SCALAR_IN_INPUT"
  | inputOnlyScalarInOutput => "INPUT_ONLY_SCALAR_IN_OUTPUT"
  | unknownTargetType => "UNKNOWN_TARGET_TYPE"
  | invalidExtensionTarget => "INVALID_EXTENSION_TARGET"
  | duplicateFieldDefinition => "DUPLICATE_FIELD_DEFINITION"
  | unknownArgumentType => "UNKNOWN_ARGUMENT_TYPE"
  | unknownFieldType => "UNKNOWN_FIELD_TYPE"
  | outputTypeInInput => "OUTPUT_TYPE_IN_INPUT"
  | circularInputReference => "CIRCULAR_INPUT_REFERENCE"
  | configInvalidType => "CONFIG_INVALID_TYPE"
  | configMissingProperty => "CONFIG_MISSING_PROPERTY"
  | configBuiltinOverride => "CONFIG_BUILTIN_OVERRIDE"
  | configDuplicateMapping => "CONFIG_DUPLICATE_MAPPING"
  | configDuplicateType => "CONFIG_DUPLICATE_TYPE"
  | configInvalidPath => "CONFIG_INVALID_PATH"
  | configInvalidSourceDir => "CONFIG_INVALID_SOURCE_DIR"
  | configInvalidIgnoreGlobs => "CONFIG_INVALID_IGNORE_GLOBS"
  | configInvalidOutputType => "CONFIG_INVALID_OUTPUT_TYPE"
  | configInvalidOutputPath => "CONFIG_INVALID_OUTPUT_PATH"
  | configInvalidHookType => "CONFIG_INVALID_HOOK_TYPE"
  | configInvalidHookCommand => "CONFIG_INVALID_HOOK_COMMAND"

def all : List Code :=
  [parseError, unsupportedSyntax, unsupportedEnumType, moduleResolutionError, invalidDefineCall,
   invalidOneOfMember, multipleInputTypes, missingInputType, missingOutputType, reservedTypeName,
   invalidEnumMember, invalidInputType, duplicateTypeName, outputOnlyScalarInInput,
   inputOnlyScalarInOutput, unknownTargetType, invalidExtensionTarget, duplicateFieldDefinition,
   unknownArgumentType, unknownFieldType, outputTypeInInput, circularInputReference,
   configInvalidType, configMissingProperty, configBuiltinOverride, configDuplicateMapping,
   configDuplicateType, configInvalidPath, configInvalidSourceDir, configInvalidIgnoreGlobs,
   configInvalidOutputType, configInvalidOutputPath, configInvalidHookType,
   configInvalidHookCommand]

def ofText? (s : String) : Option Code := all.find? (·.text == s)

end Code

/-- A place in a file, counted from one. Line zero means the file as a whole. -/
structure SourceLocation where
  file : Path
  line : Nat
  column : Nat
deriving Repr, Inhabited, BEq

namespace SourceLocation

def wholeFile (file : Path) : SourceLocation := ⟨file, 0, 0⟩

def text (l : SourceLocation) : String :=
  if l.line = 0 then l.file.text
  else l.file.text ++ ":" ++ toString l.line ++ ":" ++ toString l.column

end SourceLocation

structure Diagnostic where
  code : Code
  message : String
  severity : Severity
  location : Option SourceLocation
deriving Repr, Inhabited, BEq

namespace Diagnostic

def error (code : Code) (message : String) (location : Option SourceLocation) : Diagnostic :=
  ⟨code, message, .error, location⟩

def warning (code : Code) (message : String) (location : Option SourceLocation) : Diagnostic :=
  ⟨code, message, .warning, location⟩

def isError (d : Diagnostic) : Bool := d.severity == .error

/-- Severity, code and message, as in `error[PARSE_ERROR]: bad`. -/
def headline (d : Diagnostic) : String :=
  d.severity.text ++ "[" ++ d.code.text ++ "]: " ++ d.message

def text (d : Diagnostic) : String :=
  match d.location with
  | some l => l.text ++ ": " ++ d.headline
  | none => d.headline

end Diagnostic

def hasErrors (ds : List Diagnostic) : Bool := ds.any Diagnostic.isError

/-- A result with the diagnostics reported while it was computed. -/
structure Reported (α : Type) where
  value : α
  diagnostics : List Diagnostic := []

namespace Reported

variable {α β : Type}

def bind (r : Reported α) (f : α → Reported β) : Reported β :=
  let next := f r.value
  ⟨next.value, r.diagnostics ++ next.diagnostics⟩

instance : Monad Reported where
  pure a := ⟨a, []⟩
  bind := Reported.bind

def report (d : Diagnostic) : Reported Unit := ⟨(), [d]⟩

/-- Runs `f` on every item in order. -/
def each (f : α → Reported β) : List α → Reported (List β)
  | [] => pure []
  | a :: as => do
    let b ← f a
    let bs ← each f as
    pure (b :: bs)

/-- As `each`, and keeps only the results that are present. -/
def eachSome (f : α → Reported (Option β)) (as : List α) : Reported (List β) := do
  let found ← each f as
  pure (found.filterMap id)

@[simp]
theorem value_pure (a : α) : (pure a : Reported α).value = a := rfl

@[simp]
theorem diagnostics_pure (a : α) : (pure a : Reported α).diagnostics = [] := rfl

@[simp]
theorem value_bind (r : Reported α) (f : α → Reported β) :
    (r >>= f).value = (f r.value).value := rfl

@[simp]
theorem diagnostics_bind (r : Reported α) (f : α → Reported β) :
    (r >>= f).diagnostics = r.diagnostics ++ (f r.value).diagnostics := rfl

end Reported

end SchemaCompiler

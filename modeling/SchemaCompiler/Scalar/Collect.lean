import SchemaCompiler.Scalar.Basic

/-!
# Scalar definitions from bindings

Bindings are grouped by scalar name, and the groups sorted by name; built-in scalars need no
definition. A scalar needs exactly one type to read input from and at least one to write output to.
-/

namespace SchemaCompiler

namespace ScalarBinding

/-- Whether two bindings of one scalar say the same. -/
def repeats (a b : ScalarBinding) : Bool :=
  a.typeName == b.typeName && a.sourceFile == b.sourceFile && a.importPath == b.importPath &&
    a.only == b.only

/-- Adds a binding to a group that does not have it yet. -/
def addTo (group : List ScalarBinding) (b : ScalarBinding) : List ScalarBinding :=
  if group.any (·.repeats b) then group else group ++ [b]

end ScalarBinding

structure ScalarGroup where
  name : String
  bindings : List ScalarBinding

namespace ScalarGroup

/-- Puts a binding into its group; groups stay sorted by name. -/
def insert (b : ScalarBinding) : List ScalarGroup → List ScalarGroup
  | [] => [⟨b.scalar, [b]⟩]
  | g :: rest =>
    if b.scalar < g.name then ⟨b.scalar, [b]⟩ :: g :: rest
    else if b.scalar = g.name then ⟨g.name, b.addTo g.bindings⟩ :: rest
    else g :: insert b rest

def ofBindings (bindings : List ScalarBinding) : List ScalarGroup :=
  (bindings.filter fun b => !isBuiltinScalar b.scalar).foldl (fun groups b => insert b groups) []

def inputs (g : ScalarGroup) : List ScalarBinding := g.bindings.filter (·.takesInput)

/-- The types of output bindings, each once. -/
def outputTypes (g : ScalarGroup) : List ScalarTypeRef :=
  ((g.bindings.filter (·.givesOutput)).map ScalarTypeRef.ofBinding).foldl
    (fun types t => if types.contains t then types else types ++ [t]) []

def firstLocation (bindings : List ScalarBinding) : Option SourceLocation :=
  bindings.findSome? (·.location)

/-! ## Descriptions -/

/-- A description with the place that orders it. -/
structure Described where
  file : Option Path
  line : Nat
  text : String

def Described.ofBinding? (b : ScalarBinding) : Option Described :=
  b.description.map fun text => ⟨b.sourceFile, (b.location.map (·.line)).getD 0, text⟩

def compareFiles : Option Path → Option Path → Ordering
  | none, none => .eq
  | none, some _ => .lt
  | some _, none => .gt
  | some a, some b => a.compare b

/-- Configured descriptions come first, declared ones by file and line, then by text. -/
def Described.before (a b : Described) : Bool :=
  ((compareFiles a.file b.file).then ((compare a.line b.line).then (compare a.text b.text))).isLE

/-- Drops a text that repeats the one before it. -/
def dropRepeats : List String → List String
  | a :: b :: rest => if a = b then dropRepeats (a :: rest) else a :: dropRepeats (b :: rest)
  | texts => texts
termination_by texts => texts.length

def description (g : ScalarGroup) : Option String :=
  let described := (g.bindings.filterMap Described.ofBinding?).mergeSort Described.before
  match dropRepeats (described.map (·.text)) with
  | [] => none
  | texts => some ("\n\n".intercalate texts)

/-! ## Definitions -/

def definition (g : ScalarGroup) : ScalarDefinition :=
  ⟨g.name, g.inputs.head?.map ScalarTypeRef.ofBinding, g.outputTypes, g.description⟩

def quoted (name : String) : String := "scalar \"" ++ name ++ "\""

/-- What keeps a group from being a scalar. -/
def problems (g : ScalarGroup) : List Diagnostic :=
  let several :=
    if g.inputs.length > 1 then
      [.error .multipleInputTypes
        (quoted g.name ++ " has multiple input types: " ++
          ", ".intercalate (g.inputs.map (·.origin)))
        (firstLocation g.inputs)]
    else []
  let noInput :=
    if g.inputs.isEmpty then
      [.error .missingInputType (quoted g.name ++ " has no input type") (firstLocation g.bindings)]
    else []
  let noOutput :=
    if g.outputTypes.isEmpty then
      [.error .missingOutputType (quoted g.name ++ " has no output type")
        (firstLocation g.bindings)]
    else []
  several ++ noInput ++ noOutput

end ScalarGroup

/-- The scalars of a program and what is wrong with them. -/
structure ScalarsResult where
  success : Bool
  scalars : List ScalarDefinition
  diagnostics : List Diagnostic

def collectScalars (bindings : List ScalarBinding) : ScalarsResult :=
  let groups := ScalarGroup.ofBindings bindings
  let diagnostics := groups.flatMap ScalarGroup.problems
  ⟨diagnostics.isEmpty, groups.map ScalarGroup.definition, diagnostics⟩

end SchemaCompiler

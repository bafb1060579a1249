import SchemaCompiler.GraphQL.Schema

/-!
# References that fit their place

Arguments and input fields may name input objects, enums and scalars; output fields may name
objects, interfaces, unions, enums and scalars. Input objects must not need each other in a circle.
-/

namespace SchemaCompiler.GraphQL

/-!
## Input objects that need each other

An input object needs the types of its hard fields: those that take no `null`, neither for
themselves nor, when they are lists, for their items. A list of such items is hard although it may
be empty. The search for circles goes through the types by name and down the fields in order; each
set of types is reported once, with the circle found first.
-/

/-- Whether a field takes no `null`, nor one among its items. An empty list is not thought of. -/
def FieldType.isHard (t : FieldType) : Bool := !t.nullable && (!t.list || !t.listItemNullable)

/-- A step on the way from one input object to the next. -/
structure Step where
  name : String
  location : Option SourceLocation

/-- Needs of an input object: the type needed, and where. -/
abbrev Needs := List Step

def needsOf (known : List String) (t : InputType) : Needs :=
  (t.fields.filter fun f => known.contains f.type.typeName && f.type.isHard).map fun f =>
    ⟨f.type.typeName, f.location.or t.location⟩

/-- What each input object needs. -/
def needsByName (inputs : List InputType) : Table Needs :=
  let known := inputs.map (·.name)
  inputs.foldl (fun t input =>
    t.alter input.name fun needs => needs.getD [] ++ needsOf known input) {}

/-! ### Circles -/

/-- The circle from its smallest name on. -/
def rotateToSmallest (cycle : List Step) : List Step :=
  match cycle.map (·.name) with
  | [] => cycle
  | first :: names =>
    let smallest := names.foldl (fun a b => if b < a then b else a) first
    let (before, after) := cycle.span (·.name != smallest)
    after ++ before

/-- Compares sets of names, given sorted. -/
def compareNames : List String → List String → Ordering
  | [], [] => .eq
  | [], _ => .lt
  | _, [] => .gt
  | a :: as, b :: bs => (compare a b).then (compareNames as bs)

/-- A circle with the set of its names. -/
structure Cycle where
  key : List String
  steps : List Step

def Cycle.ofSteps (steps : List Step) : Cycle :=
  let steps := rotateToSmallest steps
  ⟨((steps.map (·.name)).mergeSort (· ≤ ·)).eraseDups, steps⟩

/-- Adds a circle to those sorted by key, unless there is one of its key. -/
def Cycle.insert (c : Cycle) : List Cycle → List Cycle
  | [] => [c]
  | d :: rest =>
    match compareNames c.key d.key with
    | .lt => c :: d :: rest
    | .eq => d :: rest
    | .gt => d :: c.insert rest

/-! ### The search -/

structure Search where
  done : List String := []
  cycles : List Cycle := []

/-- Goes down from a type; `path` is the way to it. Every type on the way is a different one, so the
number of types is enough `fuel`. -/
def Search.visit (graph : Table Needs) (fuel : Nat) (path : List Step) (name : String)
    (s : Search) : Search :=
  match fuel with
  | 0 => s
  | fuel + 1 =>
    let s := ((graph.get? name).getD []).foldl
      (fun s need =>
        let path := path ++ [⟨name, need.location⟩]
        if path.any (·.name == need.name) then
          let cycle := path.dropWhile (·.name != need.name)
          { s with cycles := (Cycle.ofSteps cycle).insert s.cycles }
        else if s.done.contains need.name then s
        else s.visit graph fuel path need.name) s
    { s with done := name :: s.done }

def findCycles (inputs : List InputType) : List Cycle :=
  let graph := needsByName inputs
  let names := graph.keys.mergeSort (· ≤ ·)
  (names.foldl (fun s name =>
    if s.done.contains name then s else s.visit graph names.length [] name) ({} : Search)).cycles

def Cycle.diagnostic (c : Cycle) : Diagnostic :=
  let names := c.steps.map (·.name)
  .error .circularInputReference
    ("input types " ++ ", ".intercalate (names.map fun n => "\"" ++ n ++ "\"") ++
      " reference each other through non-nullable fields: " ++
      " -> ".intercalate (names ++ names.take 1))
    (c.steps.head?.bind (·.location))

def circularReferences (inputs : List InputType) : List Diagnostic :=
  (findCycles inputs).map Cycle.diagnostic

/-- What the type names of a schema stand for. -/
structure NameDomains where
  inputTypes : List String := []
  outputTypes : List String := []
  enumTypes : List String := []
  scalarTypes : List String := []

namespace NameDomains

def addBase (d : NameDomains) (t : TypeDef) : NameDomains :=
  match t.kind with
  | .enum => { d with enumTypes := d.enumTypes ++ [t.name] }
  | .scalar => { d with scalarTypes := d.scalarTypes ++ [t.name] }
  | .inputObject => { d with inputTypes := d.inputTypes ++ [t.name] }
  | .object => { d with outputTypes := d.outputTypes ++ [t.name] }
  | .union => { d with outputTypes := d.outputTypes ++ [t.name] }
  | .interface => { d with outputTypes := d.outputTypes ++ [t.name] }

def ofSchema (s : Schema) : NameDomains :=
  let d : NameDomains := s.baseTypes.foldl addBase { scalarTypes := builtinScalars }
  { d with
    inputTypes := d.inputTypes ++ s.inputTypes.map (·.name)
    scalarTypes := d.scalarTypes ++ s.scalarNames }

def takesInput (d : NameDomains) (name : String) : Bool :=
  d.inputTypes.contains name || d.enumTypes.contains name || d.scalarTypes.contains name

def givesOutput (d : NameDomains) (name : String) : Bool :=
  d.outputTypes.contains name || d.enumTypes.contains name || d.scalarTypes.contains name

end NameDomains

/-- Drops diagnostics that repeat an earlier one. -/
def dropRepeated (ds : List Diagnostic) : List Diagnostic :=
  ds.foldl (fun kept d =>
    if kept.any fun k => k.code == d.code && k.message == d.message && k.location == d.location then
      kept
    else kept ++ [d]) []

/-! ## Input positions -/

def outputInInput (name site : String) (location : Option SourceLocation) : Diagnostic :=
  .error .outputTypeInInput
    (site ++ " references output type \"" ++ name ++
      "\"; input positions accept input objects, enums and scalars") location

/-- Checks a type name in an input position. A name that nothing stands for is reported with
`unknown`. -/
def checkInput (d : NameDomains) (name site : String) (location : Option SourceLocation)
    (unknown : Code) (unknownLocation : Option SourceLocation) : Option Diagnostic :=
  if d.outputTypes.contains name then some (outputInInput name site location)
  else if d.takesInput name then none
  else some (.error unknown (site ++ " has unknown type \"" ++ name ++ "\"") unknownLocation)

def checkArgument (d : NameDomains) (target : String) (f : Field) (a : InputValue) :
    Option Diagnostic :=
  let site := "argument \"" ++ a.name ++ "\" of " ++ target ++ "." ++ f.name
  let location := a.location.or f.location
  checkInput d a.type.typeName site location .unknownArgumentType location

def checkInputField (d : NameDomains) (t : InputType) (f : InputValue) : Option Diagnostic :=
  let site := "input field " ++ t.name ++ "." ++ f.name
  checkInput d f.type.typeName site f.location .unknownFieldType (f.location.or t.location)

/-- The faults of arguments and input objects. -/
def validateArguments (extensions : List TypeExtension) (inputs : List InputType)
    (d : NameDomains) : List Diagnostic :=
  let arguments := extensions.flatMap fun e =>
    e.fields.flatMap fun f => f.field.args.filterMap (checkArgument d e.target f.field)
  let fields := inputs.flatMap fun t => t.fields.filterMap (checkInputField d t)
  dropRepeated (arguments ++ fields ++ circularReferences inputs)

/-! ## Output positions -/

def checkOutput (d : NameDomains) (owner : String) (f : Field)
    (location : Option SourceLocation) : Option Diagnostic :=
  let name := f.type.typeName
  if d.givesOutput name then none
  else
    let what := if d.inputTypes.contains name then "input object" else "unknown type"
    some (.error .unknownFieldType
      ("field " ++ owner ++ "." ++ f.name ++ " returns " ++ what ++ " \"" ++ name ++ "\"") location)

def checkMember (d : NameDomains) (t : TypeDef) (member : String) : Option Diagnostic :=
  if d.outputTypes.contains member then none
  else
    some (.error .unknownFieldType
      ("union " ++ t.name ++ " has member \"" ++ member ++ "\" that is not an object type")
      t.location)

def checkBase (d : NameDomains) (t : TypeDef) : List Diagnostic :=
  let fields :=
    if t.kind = .object ∨ t.kind = .interface then
      t.fields.filterMap fun f => checkOutput d t.name f (f.location.or t.location)
    else []
  fields ++ t.unionMembers.filterMap (checkMember d t)

/-- The faults of fields and union members. -/
def validateOutputs (s : Schema) (d : NameDomains) : List Diagnostic :=
  let extended := s.extensions.flatMap fun e =>
    e.fields.filterMap fun f => checkOutput d e.target f.field f.field.location
  dropRepeated (s.baseTypes.flatMap (checkBase d) ++ extended)

end SchemaCompiler.GraphQL

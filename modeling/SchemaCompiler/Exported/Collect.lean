import SchemaCompiler.Exported.Basic
import SchemaCompiler.Shape.Classify

/-!
# Which types a program exports

Every scanned module offers the types that it exports: its own, and those that it re-exports from
modules that are not scanned. A type that is offered more than once counts the first time. Only enums
whose members all have a string for a value can be part of a schema.
-/

namespace SchemaCompiler

open TypeScript

/-! ## Members of enums -/

namespace EnumLiteral

/-- What is known of the value of an enum member. -/
inductive Value where
  | text (value : String)
  | numeric
  | computed
deriving DecidableEq, Repr

def valueOf : Option Expr → Value
  | none => .numeric
  | some .number => .numeric
  | some .unary => .numeric
  | some (.string value) => .text value
  | some (.template raw) => .text raw
  | some _ => .computed

def ofMember? (m : SourceModule) (member : EnumMember) : Option EnumLiteral :=
  match valueOf member.init with
  | .text value =>
    let doc := m.docAt member.span.lo
    some ⟨member.name, value, doc.description, doc.deprecated⟩
  | _ => none

/-- Why an enum cannot be part of a schema, if it cannot. -/
def fault? (e : Enum) : Option String :=
  let values := e.members.map (valueOf ·.init)
  if e.isConst then some "const enum"
  else if values.contains .computed then some "enum with computed members"
  else if !values.contains .numeric then none
  else if values.all (· == .numeric) then some "numeric enum"
  else some "heterogeneous enum"

/-- The members of an enum in order, or none when it is refused. -/
def ofEnum (m : SourceModule) (e : Enum) : Reported (Option (List EnumLiteral)) :=
  match fault? e with
  | none => pure (some (e.members.filterMap (ofMember? m)))
  | some why =>
    ⟨none, [.error .unsupportedEnumType
      ("enum `" ++ e.name ++ "` is a " ++ why ++ "; only string-valued enums are supported")
      (some (m.location e.span))]⟩

/-- The members that string literals stand for, each once. -/
def ofLiterals (values : List String) : List EnumLiteral :=
  values.eraseDups.map fun value => ⟨value, value, none, none⟩

end EnumLiteral

/-! ## Offers -/

/-- What an export of a module leads to. -/
inductive Offer where
  | type (decl : TypeDecl) (kind : ExportKind)
  | unresolved (problem : Diagnostic)

namespace Offer

/-- A type of another module. Those of scanned modules are offered there. -/
def reexported (p : Program) (ref : SymbolRef) (kind : ExportKind) : List Offer :=
  if p.isScanned ref.module then []
  else ((p.typeDecl? ref).map (.type · kind)).toList

def unresolvedModule (m : SourceModule) (specifier : String) (location : SourceLocation) :
    List Offer :=
  [.unresolved (.error .moduleResolutionError
    ("cannot resolve module \"" ++ specifier ++ "\" re-exported from " ++ m.path.text)
    (some location))]

def ofEntry (p : Program) (m : SourceModule) (entry : ExportEntry) : List Offer :=
  let kind := if entry.isDefault then .default else .named
  match entry.binding with
  | .own name =>
    match p.typeDecl? ⟨m.path, name⟩ with
    | some decl => [.type decl kind]
    | none =>
      if m.symbols.imports.contains name then
        match p.resolveName m.path name with
        | some (.symbol target) => reexported p target kind
        | _ => []
      else []
  | .reexport specifier name =>
    if !isRelative specifier then []
    else
      match p.resolveModule m.path specifier with
      | none => unresolvedModule m specifier entry.location
      | some target =>
        match p.resolveExport target name 0 with
        | some (.symbol ref) => reexported p ref kind
        | _ => []

/-- An export of a module that is re-exported as a whole; the default export stays behind. -/
def ofStarEntry (p : Program) (target : SourceModule) (entry : String × ExportEntry) : List Offer :=
  if entry.1 = "default" then []
  else
    match entry.2.binding with
    | .own name => reexported p ⟨target.path, name⟩ .named
    | .reexport _ _ => []

def ofStar (p : Program) (m : SourceModule) (star : StarExport) : List Offer :=
  if !isRelative star.specifier then []
  else
    match p.resolveModule m.path star.specifier with
    | none => unresolvedModule m star.specifier star.location
    | some target =>
      if target.scanned then [] else target.symbols.exports.entries.flatMap (ofStarEntry p target)

def ofModule (p : Program) (m : SourceModule) : List Offer :=
  m.symbols.exports.values.flatMap (ofEntry p m) ++ m.symbols.stars.flatMap (ofStar p m)

def ofProgram (p : Program) : List Offer := p.scannedModules.flatMap (ofModule p)

/-- Keeps the first offer of each type that is not among `seen`. -/
def firstOf (seen : List SymbolRef) : List Offer → List Offer
  | [] => []
  | .unresolved d :: rest => .unresolved d :: firstOf seen rest
  | .type decl kind :: rest =>
    if seen.contains decl.symbol then firstOf seen rest
    else .type decl kind :: firstOf (decl.symbol :: seen) rest

end Offer

/-! ## Types -/

namespace ExportedType

/-- The kind of a declaration; an alias that is only another name is no type of its own. -/
def kindOf? (c : Classifier) (decl : TypeDecl) : Option TypeKind :=
  match decl.node with
  | .interface _ => some .interface
  | .enum _ => some .enum
  | .alias _ =>
    match c.aliasKind decl 0 with
    | .object => some .object
    | .graphqlInterface => some .graphqlInterface
    | .enum => some .enum
    | .union => some .union
    | .scalar => none
    | .transparent => none

def genericWarning (decl : TypeDecl) (location : SourceLocation) : Reported Unit :=
  if decl.node.isGeneric then
    .report (.warning .unsupportedSyntax
      ("generic type parameters on `" ++ decl.name ++ "` are not supported; they are ignored")
      (some location))
  else pure ()

/-- A member of a union of objects: a name, or an object that is written out. -/
inductive UnionMember where
  | named (name : String)
  | inline (fields : List Field)
  | refused

def memberName (c : Classifier) (m : SourceModule) (entity : EntityName) : String :=
  match c.resolveEntity m entity with
  | .declared target => target.name
  | .runtime name => name
  | .unknown name => name
  | .external _ name => name

def unionMember (c : Classifier) (decl : TypeDecl) (t : TypeExpr) : Reported UnionMember :=
  match t with
  | .object _ members => do
    let fields ← c.memberFields decl.module members 0
    pure (.inline fields)
  | .reference _ name _ => pure (.named (memberName c decl.module name))
  | other =>
    ⟨.refused, [.error .unsupportedSyntax
      ("union `" ++ decl.name ++ "` member `" ++ decl.module.snippet other.span ++
        "` must be a named type or an object literal")
      (some (decl.module.location other.span))]⟩

def namedMembers (members : List UnionMember) : List String :=
  members.filterMap fun
    | .named name => some name
    | _ => none

def inlineMembersOf (members : List UnionMember) : List (List Field) :=
  members.filterMap fun
    | .inline fields => some fields
    | _ => none

def fillUnion (c : Classifier) (decl : TypeDecl) (body : TypeExpr) (info : ExportedType) :
    Reported ExportedType := do
  let members ← Reported.each (unionMember c decl) (TypeExpr.splitNullable body.alternatives).1
  let named := namedMembers members
  let inline := inlineMembersOf members
  if !named.isEmpty && !inline.isEmpty then
    Reported.report (.error .unsupportedSyntax
      ("union `" ++ decl.name ++ "` mixes named types and object literals") (some info.location))
  pure { info with
    unionMembers := (named.mergeSort (· ≤ ·)).eraseDups
    inlineMembers := inline }

def fillFields (c : Classifier) (decl : TypeDecl) (info : ExportedType) :
    Reported ExportedType := do
  let set ← c.declProperties decl 0
  pure { info with fields := set.fields, interfaces := set.interfaces }

/-- Adds what the type is made of; none when it has to be left out. -/
def fill (c : Classifier) (decl : TypeDecl) (info : ExportedType) :
    Reported (Option ExportedType) :=
  match decl.node with
  | .interface _ => do pure (some (← fillFields c decl info))
  | .enum e => do
    let members ← EnumLiteral.ofEnum decl.module e
    pure (members.map fun found => { info with enumMembers := found })
  | .alias a =>
    match info.kind with
    | .enum =>
      let literals := (TypeExpr.splitNullable a.body.alternatives).1.filterMap (·.stringLiteral?)
      pure (some { info with enumMembers := EnumLiteral.ofLiterals literals })
    | .union => do pure (some (← fillUnion c decl a.body info))
    | _ => do pure (some (← fillFields c decl info))

/-- Reads an exported declaration. -/
def ofDecl (c : Classifier) (decl : TypeDecl) (exportKind : ExportKind) :
    Reported (Option ExportedType) :=
  match kindOf? c decl with
  | none => pure none
  | some kind => do
    let location := decl.module.location decl.node.span
    genericWarning decl location
    let doc := decl.module.docAtAny [decl.itemStart, decl.node.span.lo]
    fill c decl
      { name := decl.name, kind, sourceFile := decl.module.path, location, exportKind,
        description := doc.description, deprecated := doc.deprecated }

def ofOffer (c : Classifier) : Offer → Reported (Option ExportedType)
  | .type decl kind => ofDecl c decl kind
  | .unresolved d => ⟨none, [d]⟩

end ExportedType

/-- The exported types of a program, in the order in which they are first offered. -/
def collectTypes (c : Classifier) : Reported (List ExportedType) :=
  Reported.eachSome (ExportedType.ofOffer c) (Offer.firstOf [] (Offer.ofProgram c.program))

end SchemaCompiler

import SchemaCompiler.Program.Basic
import SchemaCompiler.Resolver.Basic
import SchemaCompiler.Shape.Classify

/-!
# Which resolvers a program exports

An exported constant is a resolver when its type says so, or when it is set to a call of a defining
function.
-/

namespace SchemaCompiler

open TypeScript

namespace Program

/-!
## Calls that define resolvers

The defining functions are what a call of `createGqlkitApis` returns, taken apart by a pattern or
used as members of the result.
-/

def apiFactory : String := "createGqlkitApis"

/-- Whether an expression in a module calls the factory. -/
def isApiFactory (p : Program) (m : SourceModule) (init : Expr) : Bool :=
  match init.unwrap with
  | .call callee _ =>
    match callee.unwrap with
    | .name name =>
      match p.resolveName m.path name with
      | some r => r.isRuntime apiFactory
      | none => name == apiFactory
    | _ => false
  | _ => false

/-- Whether a variable is set to a result of the factory. -/
def isApiValue (p : Program) (decl : ValueDecl) : Bool :=
  decl.init.any (p.isApiFactory decl.module)

/-- The kind of resolver that a variable taken out of the factory's result defines. -/
def apiBinding? (p : Program) (ref : SymbolRef) : Option ResolverKind := do
  let decl ← p.valueDecl? ref
  let kind ← ResolverKind.ofApi? (← decl.key)
  if p.isApiValue decl then some kind else none

/-- The kind of resolver that a member of a named object defines. -/
def apiMember? (p : Program) (m : SourceModule) (object property : String) :
    Option ResolverKind := do
  match ← p.resolveName m.path object with
  | .symbol ref =>
    let kind ← ResolverKind.ofApi? property
    let decl ← p.valueDecl? ref
    if decl.key.isNone && p.isApiValue decl then some kind else none
  | .wholeModule path =>
    let target ← p.module? path
    match ← p.resolveExport target property 0 with
    | .symbol ref => p.apiBinding? ref
    | _ => none
  | .external _ _ => none

/-- The kind of resolver that calling an expression defines. -/
def apiKind? (p : Program) (m : SourceModule) (callee : Expr) : Option ResolverKind :=
  match callee.unwrap with
  | .name name =>
    match p.resolveName m.path name with
    | some (.symbol ref) => p.apiBinding? ref
    | _ => none
  | .member object property =>
    match object.unwrap with
    | .name name => p.apiMember? m name property
    | _ => none
  | _ => none

mutual

/-- Whether a defining call hides in the branches, operands or items of an expression. -/
def containsApiCall (p : Program) (m : SourceModule) : Expr → Bool
  | .paren inner => p.containsApiCall m inner
  | .cast inner => p.containsApiCall m inner
  | .satisfies inner => p.containsApiCall m inner
  | .nonNull inner => p.containsApiCall m inner
  | .call callee _ => (p.apiKind? m callee).isSome
  | .conditional a b => p.containsApiCall m a || p.containsApiCall m b
  | .binary _ a b => p.containsApiCall m a || p.containsApiCall m b
  | .sequence items => p.anyApiCall m items
  | _ => false

def anyApiCall (p : Program) (m : SourceModule) : List Expr → Bool
  | [] => false
  | e :: rest => p.containsApiCall m e || p.anyApiCall m rest

end

end Program

/-!
## Arguments of resolvers

The arguments are the properties of an object type, an intersection of such types, or none at all.
Of two properties of one name the first gives the type; what documents an argument is taken from the
written-out objects first and from the named types behind them.
-/

/-- Properties from one part of an argument type. -/
structure ArgumentPart where
  fields : List Field
  /-- Whether the part is written out where the arguments are. -/
  inline : Bool
  /-- The declaration that the part names. -/
  source : Option SymbolRef

namespace ArgumentPart

def refused (m : SourceModule) (exportName : String) (t : TypeExpr) : Diagnostic :=
  .error .unsupportedSyntax
    ("`" ++ exportName ++ "`: arguments must be an object type, found `" ++ m.snippet t.span ++ "`")
    (some (m.location t.span))

def source? (c : Classifier) (m : SourceModule) (entity : EntityName) : Option SymbolRef :=
  match c.resolveEntity m entity with
  | .declared decl => some decl.symbol
  | _ => none

/-- Reads the parts in order, and gives up at the first that is no object type. -/
def readAll (c : Classifier) (m : SourceModule) (exportName : String) :
    List TypeExpr → Reported (Option (List ArgumentPart))
  | [] => pure (some [])
  | t :: rest => do
    let part ←
      match t with
      | .object _ members => do
        let fields ← c.memberFields m members 0
        pure (some ⟨fields, true, none⟩)
      | .reference s name arguments => do
        let set ← c.typeProperties m (.reference s name arguments) 0
        pure (some ⟨set.fields, false, source? c m name⟩)
      | other => do
        Reported.report (refused m exportName other)
        pure none
    match part with
    | none => pure none
    | some part => do
      let more ← readAll c m exportName rest
      pure (more.map (part :: ·))

def named? (fields : List Field) (name : String) : Option Field := fields.find? (·.name == name)

/-- Documents an argument that is written out; what its text leaves open is taken from `behind`. -/
def document (inline behind : List Field) (f : Field) : Field :=
  match named? inline f.name with
  | none => f
  | some own =>
    let other := named? behind f.name
    { f with
      description := own.description.or (other.bind (·.description))
      deprecated := own.deprecated.or (other.bind (·.deprecated)) }

def merge (parts : List ArgumentPart) : List Field :=
  let inline := (parts.filter (·.inline)).flatMap (·.fields)
  let behind := (parts.filter fun p => !p.inline).flatMap (·.fields)
  ((parts.map (·.fields)).foldl PropertySet.addFields []).map (document inline behind)

/-- The parts of the type of a resolver's arguments; none when the resolver takes no arguments. -/
def read (c : Classifier) (m : SourceModule) (exportName : String) (t : TypeExpr) :
    Reported (Option (List ArgumentPart)) :=
  if c.isRuntimeRef m t "NoArgs" then pure none else readAll c m exportName t.argumentOrder

end ArgumentPart

/-- An exported constant that may be a resolver. -/
structure ResolverCandidate where
  module : SourceModule
  exportName : String
  decl : ValueDecl

namespace ResolverCandidate

def location (r : ResolverCandidate) : SourceLocation := r.module.location r.decl.declared.span

/-- Reports a fault, with which the constant is no resolver. -/
def invalid (r : ResolverCandidate) (message : String) : Reported (Option Resolver) :=
  ⟨none, [.error .invalidDefineCall ("`" ++ r.exportName ++ "`" ++ message) (some r.location)]⟩

/-- Whether a module exports a name of its own, under any name. -/
def exportsOwn (m : SourceModule) (name : String) : Bool :=
  m.symbols.exports.values.any fun entry =>
    match entry.binding with
    | .own n => n == name
    | .reexport _ _ => false

/-- The declarations of the module itself that arguments are read from and that it exports. -/
def exportedInputs (m : SourceModule) (parts : List ArgumentPart) : List String :=
  ((parts.filterMap (·.source)).filter fun ref =>
    ref.module == m.path && exportsOwn m ref.name).map (·.name)

/-- A resolver from its argument type and its return type. -/
def finish (c : Classifier) (r : ResolverCandidate) (kind : ResolverKind) (parent : Option String)
    (args result : TypeExpr) : Reported (Option Resolver) := do
  let parts ← ArgumentPart.read c r.module r.exportName args
  let returnType ← c.classify r.module result
  let doc := r.module.docAtAny [r.decl.itemStart, r.decl.declared.span.lo]
  pure (some
    { fieldName := r.exportName
      kind
      parent
      args := (parts.map ArgumentPart.merge).filter fun fields => !fields.isEmpty
      returnType
      exportedInputTypes := (parts.map (exportedInputs r.module)).getD []
      description := doc.description
      deprecated := doc.deprecated
      sourceFile := r.module.path
      exportName := r.exportName
      location := r.location })

/-- A resolver from the type arguments of its type or of its defining call. -/
def ofArguments (c : Classifier) (r : ResolverCandidate) (kind : ResolverKind)
    (arguments : List TypeExpr) : Reported (Option Resolver) :=
  match kind, arguments with
  | .field, parent :: args :: result :: _ => do
    let named ← c.classify r.module parent
    match named.shape with
    | .reference name => r.finish c .field (some name) args result
    | _ => r.invalid ": the parent of a field resolver must be a named object type"
  | .query, args :: result :: _ => r.finish c .query none args result
  | .mutation, args :: result :: _ => r.finish c .mutation none args result
  | _, _ => r.invalid ": resolver type annotation is missing type arguments"

/-- The kind and the type arguments that the declared type of the constant gives. -/
def typed? (c : Classifier) (r : ResolverCandidate) : Option (ResolverKind × List TypeExpr) :=
  match r.decl.declaredType.map TypeExpr.stripParens with
  | some (.reference _ name arguments) =>
    match c.resolveEntity r.module name with
    | .runtime exported => (ResolverKind.ofTypeName? exported).map (·, arguments)
    | _ => none
  | _ => none

/-- A resolver from the value of the constant. -/
def ofInit (c : Classifier) (r : ResolverCandidate) (init : Expr) : Reported (Option Resolver) :=
  match init.unwrap with
  | .call callee arguments =>
    match c.program.apiKind? r.module callee with
    | none => pure none
    | some kind =>
      if arguments.length < kind.arity then
        r.invalid (": " ++ kind.apiName ++ " needs explicit type arguments " ++ kind.typeArguments)
      else r.ofArguments c kind arguments
  | value =>
    if c.program.containsApiCall r.module value then
      r.invalid (" must be initialized by a direct define call; " ++
        "conditional or computed definitions cannot be analyzed")
    else pure none

def resolver? (c : Classifier) (r : ResolverCandidate) : Reported (Option Resolver) :=
  match r.typed? c with
  | some (kind, arguments) => r.ofArguments c kind arguments
  | none =>
    match r.decl.init with
    | some init => r.ofInit c init
    | none => pure none

/-- The constants that a module declares and exports by name. -/
def candidate? (p : Program) (m : SourceModule) (entry : String × ExportEntry) :
    Option ResolverCandidate :=
  match entry.2.binding with
  | .reexport _ _ => none
  | .own name =>
    if entry.2.isDefault then none
    else
      match p.valueDecl? ⟨m.path, name⟩ with
      | some decl => if decl.key.isNone then some ⟨m, entry.1, decl⟩ else none
      | none => none

def ofModule (p : Program) (m : SourceModule) : List ResolverCandidate :=
  m.symbols.exports.entries.filterMap (candidate? p m)

end ResolverCandidate

/-- The resolvers of a program, module by module in the order of their exports. -/
def collectResolvers (c : Classifier) : Reported (List Resolver) :=
  Reported.eachSome (ResolverCandidate.resolver? c)
    (c.program.scannedModules.flatMap (ResolverCandidate.ofModule c.program))

end SchemaCompiler

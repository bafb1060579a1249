import SchemaCompiler.Program.Basic
import SchemaCompiler.Scalar.Basic

/-!
# Where scalars come from

An alias of `DefineScalar<"Name", Base>` or `DefineScalar<"Name", Base, "input" | "output">` in any
module declares a scalar; the configuration maps further types to scalars.
-/

namespace SchemaCompiler

open TypeScript

/-- What the arguments of `DefineScalar` say. -/
structure ScalarArguments where
  scalar : String
  base : String
  only : Option Side

namespace ScalarArguments

def onlyOf? (t : TypeExpr) : Option Side := t.stringLiteral?.bind Side.ofText?

/-- Reads the arguments, or says what is wrong with them. -/
def read (m : SourceModule) (arguments : List TypeExpr) : Except String ScalarArguments :=
  let finish (name base : TypeExpr) (only : Option TypeExpr) : Except String ScalarArguments :=
    match name.stringLiteral? with
    | none => .error "the scalar name must be a string literal"
    | some scalar =>
      match only with
      | none => .ok ⟨scalar, m.snippet base.span, none⟩
      | some t =>
        match onlyOf? t with
        | some side => .ok ⟨scalar, m.snippet base.span, some side⟩
        | none => .error "the third DefineScalar argument must be \"input\" or \"output\""
  match arguments with
  | [name, base] => finish name base none
  | [name, base, only] => finish name base (some only)
  | _ =>
    .error "DefineScalar expects a scalar name, a base type and an optional \"input\" | \"output\""

end ScalarArguments

/-- A binding with the name that declares it. -/
structure DeclaredScalar where
  symbol : SymbolRef
  binding : ScalarBinding

structure ScalarRegistry where
  declared : List DeclaredScalar
  mapped : List ScalarBinding

namespace ScalarRegistry

/-- The arguments of an alias whose body is a use of `DefineScalar`. -/
def scalarBody? (p : Program) (m : SourceModule) (body : TypeExpr) : Option (List TypeExpr) :=
  match body.stripParens with
  | .reference _ (.ident callee) arguments =>
    let isScalar :=
      match p.resolveName m.path callee with
      | some r => r.isRuntime "DefineScalar"
      | none => callee == "DefineScalar"
    if isScalar then some arguments else none
  | _ => none

/-- The scalar that an entry of a module's table of types declares. A fault is reported where the
module is scanned. -/
def ofSite (p : Program) (m : SourceModule) (entry : String × TypeSite) :
    Reported (Option DeclaredScalar) :=
  let (name, site) := entry
  match site.node with
  | .alias decl =>
    match scalarBody? p m decl.body with
    | none => pure none
    | some arguments =>
      match ScalarArguments.read m arguments with
      | .ok a =>
        let doc := m.docAtAny [site.itemStart, decl.span.lo]
        pure (some ⟨⟨m.path, name⟩,
          ⟨a.scalar, name, some a.base, a.only, doc.description, some m.path, none,
            some (m.location decl.span)⟩⟩)
      | .error message =>
        if m.scanned then
          ⟨none, [.error .unsupportedSyntax ("`" ++ name ++ "`: " ++ message)
            (some (m.location decl.span))]⟩
        else pure none
  | _ => pure none

def ofModule (p : Program) (m : SourceModule) : Reported (List DeclaredScalar) :=
  Reported.eachSome (ofSite p m) m.symbols.types.entries

def build (p : Program) (mappings : List ScalarMapping) : Reported ScalarRegistry := do
  let declared ← Reported.each (ofModule p) p.modules
  pure ⟨declared.flatten, mappings.map ScalarBinding.ofMapping⟩

def declared? (r : ScalarRegistry) (symbol : SymbolRef) : Option ScalarBinding :=
  (r.declared.find? (·.symbol == symbol)).map (·.binding)

/-- The configured binding of a type name. One with an import path only matches a name that is
imported from there. -/
def mapped? (r : ScalarRegistry) (typeName : String) (specifier : Option String) :
    Option ScalarBinding :=
  r.mapped.find? fun b =>
    b.typeName == typeName && (b.importPath.isNone || b.importPath == specifier)

/-- Declared bindings, then configured ones. -/
def bindings (r : ScalarRegistry) : List ScalarBinding := r.declared.map (·.binding) ++ r.mapped

end ScalarRegistry

end SchemaCompiler

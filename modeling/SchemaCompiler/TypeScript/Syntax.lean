import SchemaCompiler.TypeScript.Source

/-!
# Syntax trees

The part of a TypeScript module that a schema can depend on. Types are kept in full as far as a
schema can express them; what no schema can express is one constructor with its place. Expressions
are kept as far as a definition of a resolver can be recognised in them.
-/

namespace SchemaCompiler.TypeScript

/-! ## Types -/

inductive Keyword where
  | any
  | bigint
  | boolean
  | intrinsic
  | never
  | null
  | number
  | object
  | string
  | symbol
  | undefined
  | unknown
  | void
deriving DecidableEq, Repr

/-- A name with dots in it. -/
inductive EntityName where
  | ident (name : String)
  | qualified (left : EntityName) (right : String)
deriving DecidableEq, Repr

/-- A literal in the place of a type; `other` is a template or a big integer. -/
inductive TypeLiteral where
  | string (value : String)
  | number (value : Float)
  | boolean (value : Bool)
  | other
deriving Repr

/-- The key of a property. Only identifiers and strings give it a fixed name. -/
inductive PropertyKey where
  | fixed (name : String)
  | computed
deriving DecidableEq, Repr

mutual

inductive TypeExpr where
  | keyword (span : Span) (word : Keyword)
  | literal (span : Span) (value : TypeLiteral)
  | reference (span : Span) (name : EntityName) (arguments : List TypeExpr)
  | object (span : Span) (members : List Member)
  | array (span : Span) (element : TypeExpr)
  | union (span : Span) (types : List TypeExpr)
  | intersection (span : Span) (types : List TypeExpr)
  | paren (span : Span) (inner : TypeExpr)
  | readonly (span : Span) (inner : TypeExpr)
  /-- Function, tuple, mapped, conditional, indexed, `typeof` and `import` types, and the like. -/
  | other (span : Span)

/-- A member of an object type; accessors, call and construct signatures are `other`. -/
inductive Member where
  | property (span : Span) (key : PropertyKey) (optional : Bool) (type : Option TypeExpr)
  | index (span : Span)
  | method (span : Span)
  | other

end

instance : Inhabited TypeExpr := ⟨.other ⟨0, 0⟩⟩

namespace TypeExpr

def span : TypeExpr → Span
  | keyword s _ => s
  | literal s _ => s
  | reference s _ _ => s
  | object s _ => s
  | array s _ => s
  | union s _ => s
  | intersection s _ => s
  | paren s _ => s
  | readonly s _ => s
  | other s => s

/-- The type inside any number of parentheses. -/
def stripParens : TypeExpr → TypeExpr
  | paren _ inner => stripParens inner
  | t => t

/-- The value of a string literal, parentheses aside. -/
def stringLiteral? (t : TypeExpr) : Option String :=
  match t.stripParens with
  | literal _ (.string s) => some s
  | _ => none

def isBooleanLiteral (t : TypeExpr) : Bool :=
  match t.stripParens with
  | literal _ (.boolean _) => true
  | _ => false

end TypeExpr

/-! ## Expressions -/

mutual

inductive Expr where
  | name (text : String)
  | string (value : String)
  | number
  /-- `null`, a truth value, a big integer or a regular expression. -/
  | literal
  /-- A template without substitutions, as written. -/
  | template (raw : String)
  /-- `this`, a function, a class, a template with a tag or substitutions: things that are no place
  for a value. -/
  | atom
  | array (entries : List ListEntry) (trailingComma : Bool)
  | object (entries : List ObjectEntry) (trailingComma : Bool)
  | unary
  | await (operand : Expr)
  /-- `++` and `--` on either side, and other expressions that only give a value. -/
  | computed
  | call (callee : Expr) (typeArguments : List TypeExpr)
  /-- `new` with or without arguments. -/
  | construct (hasArguments : Bool)
  | member (object : Expr) (property : String)
  /-- A member with a computed or private name. -/
  | index (object : Expr)
  | superMember
  /-- A link of a chain with `?.`, which is a member or a call; `starts` when this mark stands in
  front of it. -/
  | optionalLink (isMember starts : Bool)
  | paren (inner : Expr)
  | cast (inner : Expr)
  | satisfies (inner : Expr)
  | nonNull (inner : Expr)
  /-- A type in angle brackets in front of an expression. -/
  | assertion (inner : Expr)
  /-- Type arguments behind an expression that is not called. -/
  | instantiation (inner : Expr)
  | conditional (whenTrue whenFalse : Expr)
  | binary (operator : String) (left right : Expr)
  | sequence (items : List Expr)
  /-- An assignment to what stands left of its operator, which is `=` when it is `plain`. -/
  | assign (plain : Bool) (left : Expr)
  | arrow
  /-- Where an expression is missing. -/
  | missing
  | other

/-- What stands between two commas of a list. -/
inductive ListEntry where
  | hole
  | item (value : Expr)
  | spread (value : Expr)

/-- A property of an object literal. -/
inductive ObjectEntry where
  | shorthand (name : String)
  /-- A shorthand with a default value, as it only makes sense in a pattern. -/
  | defaulted (name : String)
  | keyed (value : Expr)
  | method
  | spread (value : Expr)

end

instance : Inhabited Expr := ⟨.other⟩

namespace Expr

/-- The expression inside parentheses, casts, `satisfies` and `!`. -/
def unwrap : Expr → Expr
  | paren inner => inner.unwrap
  | cast inner => inner.unwrap
  | satisfies inner => inner.unwrap
  | nonNull inner => inner.unwrap
  | e => e

/-- The expression inside any number of parentheses. -/
def stripParens : Expr → Expr
  | paren inner => inner.stripParens
  | e => e

def isName : Expr → Bool
  | name _ => true
  | _ => false

def isArrow : Expr → Bool
  | arrow => true
  | _ => false

/-- Whether a link behind `?.` has been passed, `!` aside. -/
def isOptional : Expr → Bool
  | optionalLink _ _ => true
  | nonNull inner => inner.isOptional
  | _ => false

/-- Whether an expression joins two others by one of the operators given. -/
def joinsBy (operators : List String) : Expr → Bool
  | binary op _ _ => operators.contains op
  | _ => false

end Expr

/-! ## Declarations -/

/-- An entry of an `extends` list; `name` is set when it is a plain identifier. -/
structure Heritage where
  span : Span
  name : Option String

structure Interface where
  span : Span
  name : String
  generic : Bool
  parents : List Heritage
  members : List Member

structure Alias where
  span : Span
  name : String
  generic : Bool
  body : TypeExpr

structure EnumMember where
  span : Span
  name : String
  init : Option Expr

structure Enum where
  span : Span
  name : String
  isConst : Bool
  members : List EnumMember

/-- What a variable declaration binds. -/
inductive Pattern where
  | name (name : String) (declaredType : Option TypeExpr)
  /-- The properties of an object pattern that are bound to a name: key and name. -/
  | object (bindings : List (String × String))
  | other

structure Declarator where
  span : Span
  pattern : Pattern
  init : Option Expr

inductive Declaration where
  | interface (decl : Interface)
  | alias (decl : Alias)
  | enum (decl : Enum)
  | bindings (declarators : List Declarator)
  | function (name : String)
  | other

/-! ## Modules -/

inductive Imported where
  | named (name : String)
  | default
  | wholeModule
deriving DecidableEq, Repr

structure ImportSpecifier where
  binding : String
  imported : Imported

/-- `name as exported` in a list of exports. -/
structure ExportSpecifier where
  name : String
  exported : String

/-- A top-level statement. -/
inductive Item where
  | imports (specifiers : List ImportSpecifier) (source : String)
  | declaration (decl : Declaration)
  | exportDeclaration (decl : Declaration)
  | exportDefaultInterface (decl : Interface)
  | exportDefaultExpr (value : Expr)
  | exportNamed (specifiers : List ExportSpecifier) (source : Option String)
  | exportAll (source : String)
  | other

/-- A statement with its place in the text. -/
structure Statement where
  span : Span
  item : Item

end SchemaCompiler.TypeScript

import SchemaCompiler.GraphQL.Document.Basic
import SchemaCompiler.Json.Basic
import SchemaCompiler.Text.Blank

/-!
# Documents written out

A document is written as a tree in JSON, and as a text in the schema definition language.
-/

namespace SchemaCompiler.GraphQL

namespace Tree

/-!
## Documents as JSON trees

`Document.tree` is the document in the form in which programs exchange syntax trees: every node is
an object that starts with its kind, and a description comes next when there is one.
-/

def node (kind : String) (fields : List (String × Json)) : Json :=
  .object (("kind", .string kind) :: fields)

def name (value : String) : Json := node "Name" [("value", .string value)]

def namedType (value : String) : Json := node "NamedType" [("name", name value)]

def stringValue (value : String) : Json :=
  node "StringValue" [("value", .string value), ("block", .bool false)]

def described (kind : String) (description : Option String) (fields : List (String × Json)) :
    Json :=
  node kind ((description.map fun d => ("description", stringValue d)).toList ++ fields)

end Tree

def TypeNode.tree : TypeNode → Json
  | named name => Tree.namedType name
  | list item => Tree.node "ListType" [("type", item.tree)]
  | nonNull inner => Tree.node "NonNullType" [("type", inner.tree)]

def Directive.tree (d : Directive) : Json :=
  let arguments := d.arguments.map fun (name, value) =>
    Tree.node "Argument" [("name", Tree.name name), ("value", Tree.stringValue value)]
  Tree.node "Directive" [("name", Tree.name d.name), ("arguments", .array arguments)]

def directivesTree (ds : List Directive) : Json := .array (ds.map Directive.tree)

def InputValueNode.tree (v : InputValueNode) : Json :=
  Tree.described "InputValueDefinition" v.description
    [("name", Tree.name v.name), ("type", v.type.tree), ("directives", directivesTree v.directives)]

def FieldNode.tree (f : FieldNode) : Json :=
  Tree.described "FieldDefinition" f.description
    [("name", Tree.name f.name), ("arguments", .array (f.arguments.map InputValueNode.tree)),
      ("type", f.type.tree), ("directives", directivesTree f.directives)]

def EnumValueNode.tree (v : EnumValueNode) : Json :=
  Tree.described "EnumValueDefinition" v.description
    [("name", Tree.name v.name), ("directives", directivesTree v.directives)]

namespace Definition

def namesTree (names : List String) : Json := .array (names.map Tree.namedType)

/-- A definition of a type: its head, and `fields` around its directives. -/
def headTree (kind : String) (head : TypeHead) (before after : List (String × Json)) : Json :=
  Tree.described kind head.description
    (("name", Tree.name head.name) :: before ++ ("directives", directivesTree head.directives) ::
      after)

def fieldsTree (fields : List FieldNode) : String × Json :=
  ("fields", .array (fields.map FieldNode.tree))

def tree : Definition → Json
  | scalar head => headTree "ScalarTypeDefinition" head [] []
  | object head interfaces fields =>
    headTree "ObjectTypeDefinition" head [("interfaces", namesTree interfaces)] [fieldsTree fields]
  | interface head interfaces fields =>
    headTree "InterfaceTypeDefinition" head [("interfaces", namesTree interfaces)]
      [fieldsTree fields]
  | union head members => headTree "UnionTypeDefinition" head [] [("types", namesTree members)]
  | enum head values =>
    headTree "EnumTypeDefinition" head [] [("values", .array (values.map EnumValueNode.tree))]
  | inputObject head fields =>
    headTree "InputObjectTypeDefinition" head []
      [("fields", .array (fields.map InputValueNode.tree))]
  | extension name fields =>
    Tree.node "ObjectTypeExtension"
      [("name", Tree.name name), ("interfaces", .array []), ("directives", .array []),
        fieldsTree fields]

end Definition

def Document.tree (d : Document) : Json :=
  Tree.node "Document" [("definitions", .array (d.definitions.map Definition.tree))]

/-!
## Documents as text

`Document.text` writes a document in the schema definition language: definitions with an empty line
between them, two blanks of indentation inside braces, descriptions on a line of their own before
types and fields and on the same line before everything else.
-/

/-! ### Strings -/

/-- Characters that stand for themselves in a quoted string. -/
def isPlainChar (c : Char) : Bool := 0x20 ≤ c.toNat && c.toNat ≤ 0xFFFF

/-- A number in at least four digits. -/
def fourDigits (n : Nat) : List Char :=
  let digits := (toString n).toList
  List.replicate (4 - digits.length) '0' ++ digits

def quotedChar (c : Char) : List Char :=
  if c = '\r' then ['\\', 'r']
  else if c = '\n' then ['\\', 'n']
  else if c = '\t' then ['\\', 't']
  else if c = '"' then ['\\', '"']
  else if c = '\\' then ['\\', '\\']
  else if isPlainChar c then [c]
  else '\\' :: 'u' :: fourDigits c.toNat

/-- Whether a text is written as a block: it has several lines and nothing unprintable. -/
def isBlockText (cs : List Char) : Bool :=
  cs.contains '\n' && cs.all fun c => c == '\n' || c == '\r' || c == '\t' || isPlainChar c

/-- Guards three quotes in a row, which would end a block. -/
def guardQuotes : List Char → List Char
  | '"' :: '"' :: '"' :: rest => '\\' :: '"' :: '"' :: '"' :: guardQuotes rest
  | c :: rest => c :: guardQuotes rest
  | [] => []

def blanks (n : Nat) : List Char := List.replicate n ' '

def blockLine (indent : Nat) (line : List Char) : List Char :=
  if line.all Text.isBlank then ['\n'] else blanks indent ++ guardQuotes line ++ ['\n']

def tripleQuote : List Char := ['"', '"', '"']

/-- A string at an indentation. -/
def stringChars (indent : Nat) (cs : List Char) : List Char :=
  if isBlockText cs then
    tripleQuote ++ ['\n'] ++ (Text.lines cs).flatMap (blockLine (indent + 2)) ++ blanks indent ++
      tripleQuote
  else '"' :: cs.flatMap quotedChar ++ ['"']

def stringText (indent : Nat) (s : String) : String := String.ofList (stringChars indent s.toList)

/-! ### Parts of definitions -/

def TypeNode.text : TypeNode → String
  | named name => name
  | list item => "[" ++ item.text ++ "]"
  | nonNull inner => inner.text ++ "!"

def indentText (indent : Nat) : String := String.ofList (blanks indent)

def Directive.text (indent : Nat) (d : Directive) : String :=
  let arguments := d.arguments.map fun (name, value) => name ++ ": " ++ stringText indent value
  "@" ++ d.name ++ if arguments.isEmpty then "" else "(" ++ ", ".intercalate arguments ++ ")"

def directivesText (indent : Nat) (ds : List Directive) : String :=
  String.join (ds.map fun d => " " ++ d.text indent)

/-- A description on a line of its own. -/
def descriptionLine (indent : Nat) : Option String → String
  | none => ""
  | some s => indentText indent ++ stringText indent s ++ "\n"

/-- A description on the line of what it describes. -/
def descriptionInline (indent : Nat) : Option String → String
  | none => ""
  | some s => stringText indent s ++ " "

def InputValueNode.text (indent : Nat) (v : InputValueNode) : String :=
  descriptionInline indent v.description ++ v.name ++ ": " ++ v.type.text ++
    directivesText indent v.directives

def argumentsText (indent : Nat) (vs : List InputValueNode) : String :=
  if vs.isEmpty then "" else "(" ++ ", ".intercalate (vs.map (·.text indent)) ++ ")"

def FieldNode.text (indent : Nat) (f : FieldNode) : String :=
  descriptionLine indent f.description ++ indentText indent ++ f.name ++
    argumentsText indent f.arguments ++ ": " ++ f.type.text ++ directivesText indent f.directives ++
    "\n"

def EnumValueNode.text (indent : Nat) (v : EnumValueNode) : String :=
  indentText indent ++ descriptionInline indent v.description ++ v.name ++
    directivesText indent v.directives ++ "\n"

def inputFieldLine (indent : Nat) (v : InputValueNode) : String :=
  indentText indent ++ v.text indent ++ "\n"

/-- Lines between braces, or only a line end when there are none. -/
def blockText (lines : List String) : String :=
  if lines.isEmpty then "\n" else " \x7b\n" ++ String.join lines ++ "\x7d\n"

def implementsText (interfaces : List String) : String :=
  if interfaces.isEmpty then "" else " implements " ++ " & ".intercalate interfaces

/-! ### Definitions -/

def TypeHead.text (head : TypeHead) (keyword : String) (interfaces : List String) : String :=
  descriptionLine 0 head.description ++ keyword ++ " " ++ head.name ++ implementsText interfaces ++
    directivesText 0 head.directives

def Definition.text : Definition → String
  | scalar head => head.text "scalar" [] ++ "\n"
  | object head interfaces fields =>
    head.text "type" interfaces ++ blockText (fields.map (·.text 2))
  | interface head interfaces fields =>
    head.text "interface" interfaces ++ blockText (fields.map (·.text 2))
  | union head members =>
    let members := if members.isEmpty then "" else " = " ++ " | ".intercalate members
    head.text "union" [] ++ members ++ "\n"
  | enum head values => head.text "enum" [] ++ blockText (values.map (·.text 2))
  | inputObject head fields => head.text "input" [] ++ blockText (fields.map (inputFieldLine 2))
  | extension name fields => "extend type " ++ name ++ blockText (fields.map (·.text 2))

def Document.text (d : Document) : String := "\n".intercalate (d.definitions.map Definition.text)

end SchemaCompiler.GraphQL

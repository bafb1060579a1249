import SchemaCompiler.GraphQL.Types
import SchemaCompiler.Proofs.Sdl.Strings

/-!
# Reading documents

A text is cut into words, marks and strings, and these are read from left to right as the grammar of
the schema language has it. The reader knows the part of the language that documents are made of:
definitions of types and extensions of objects, with directives whose arguments are strings. What it
reads of anything else is nothing.
-/

namespace SchemaCompiler.GraphQL

/-! ## Tokens -/

inductive Token where
  | word (text : String)
  | mark (c : Char)
  | text (value : String)
deriving DecidableEq

def marks : List Char := ['!', '&', '(', ')', ':', '=', '@', '[', ']', '\x7b', '|', '\x7d']

/-- Blanks, line ends, commas and the byte-order mark say nothing between tokens. -/
def isIgnored (c : Char) : Bool := c ∈ [' ', '\t', '\n', '\r', ','] || c.toNat = 0xFEFF

/-- The token that a text starts with, and what stands behind it. -/
def token? : List Char → Option (Token × List Char)
  | c :: cs =>
    if c ∈ marks then some (.mark c, cs)
    else if isNameRest c then
      some (.word (String.ofList (c :: cs.takeWhile isNameRest)), cs.dropWhile isNameRest)
    else (string? (c :: cs)).map fun (value, rest) => (.text (String.ofList value), rest)
  | [] => none

/-- The tokens of a text. A comment reaches up to the end of its line. -/
def tokens? : List Char → Option (List Token)
  | [] => some []
  | c :: cs =>
    if isIgnored c then tokens? cs
    else if c = '#' then tokens? (cs.dropWhile fun c => c ≠ '\n' && c ≠ '\r')
    else
      match token? (c :: cs) with
      -- Every token takes a character, so the comparison only shows that the rest is shorter.
      | some (t, rest) =>
        if rest.length ≤ cs.length then (tokens? rest).map (t :: ·) else none
      | none => none
termination_by cs => cs.length
decreasing_by
  · simp
  · exact Nat.lt_succ_of_le (List.length_dropWhile_le _ _)
  · exact Nat.lt_succ_of_le ‹_›

/-! ## Parts of definitions -/

namespace Tokens

variable {α : Type}

/-- The string that comes next, if one does. -/
def takeText : List Token → Option String × List Token
  | .text value :: ts => (some value, ts)
  | ts => (none, ts)

def mark? (c : Char) : List Token → Option (List Token)
  | .mark d :: ts => if d = c then some ts else none
  | _ => none

def name? : List Token → Option (String × List Token)
  | .word text :: ts => if isName text then some (text, ts) else none
  | _ => none

/-- Items, as long as the next token starts one. -/
def many? (starts : Token → Bool) (item : List Token → Option (α × List Token)) :
    List Token → Option (List α × List Token)
  | [] => some ([], [])
  | t :: ts =>
    if starts t then do
      let (a, rest) ← item (t :: ts)
      if rest.length ≤ ts.length then do
        let (as, rest) ← many? starts item rest
        some (a :: as, rest)
      else none
    else some ([], t :: ts)
termination_by ts => ts.length
decreasing_by exact Nat.lt_succ_of_le ‹_›

/-- At least one item between marks, or nothing. -/
def enclosed? (opening closing : Char) (item : List Token → Option (α × List Token))
    (ts : List Token) : Option (List α × List Token) :=
  if ts.head? = some (.mark opening) then do
    let (items, rest) ← many? (· ≠ .mark closing) item ts.tail
    let rest ← mark? closing rest
    if items = [] then none else some (items, rest)
  else some ([], ts)

/-- Names behind a token that opens their list, with a mark between neighbours and perhaps one in
front of the first; or nothing. -/
def names? (opening : Token) (mark : Char) (ts : List Token) :
    Option (List String × List Token) :=
  if ts.head? = some opening then do
    let (first, rest) ← name? ((mark? mark ts.tail).getD ts.tail)
    let (more, rest) ← many? (· = .mark mark) (fun ts => name? ts.tail) rest
    some (first :: more, rest)
  else some ([], ts)

end Tokens

open Tokens

namespace TypeNode

/-- The type, marked as non-null when the next token says so. -/
def marked (t : TypeNode) : List Token → TypeNode × List Token
  | .mark '!' :: ts => (nonNull t, ts)
  | ts => (t, ts)

def read? : List Token → Option (TypeNode × List Token)
  | .word text :: ts => if isName text then some ((named text).marked ts) else none
  | .mark '[' :: ts => do
    let (item, ts) ← read? ts
    let ts ← mark? ']' ts
    some ((list item).marked ts)
  | _ => none

end TypeNode

namespace Directive

def readArgument? (ts : List Token) : Option ((String × String) × List Token) := do
  let (name, ts) ← name? ts
  let ts ← mark? ':' ts
  match takeText ts with
  | (some value, ts) => some ((name, value), ts)
  | (none, _) => none

def read? (ts : List Token) : Option (Directive × List Token) := do
  let ts ← mark? '@' ts
  let (name, ts) ← name? ts
  let (arguments, ts) ← enclosed? '(' ')' readArgument? ts
  some (⟨name, arguments⟩, ts)

end Directive

def directives? : List Token → Option (List Directive × List Token) :=
  many? (· = .mark '@') Directive.read?

def InputValueNode.read? (ts : List Token) : Option (InputValueNode × List Token) := do
  let (description, ts) := takeText ts
  let (name, ts) ← name? ts
  let ts ← mark? ':' ts
  let (type, ts) ← TypeNode.read? ts
  let (directives, ts) ← directives? ts
  some (⟨description, name, type, directives⟩, ts)

def FieldNode.read? (ts : List Token) : Option (FieldNode × List Token) := do
  let (description, ts) := takeText ts
  let (name, ts) ← name? ts
  let (arguments, ts) ← enclosed? '(' ')' InputValueNode.read? ts
  let ts ← mark? ':' ts
  let (type, ts) ← TypeNode.read? ts
  let (directives, ts) ← directives? ts
  some (⟨description, name, arguments, type, directives⟩, ts)

/-- Names that are values of other kinds. -/
def valueNames : List String := ["true", "false", "null"]

def EnumValueNode.read? (ts : List Token) : Option (EnumValueNode × List Token) := do
  let (description, ts) := takeText ts
  let (name, ts) ← name? ts
  let (directives, ts) ← directives? ts
  if name ∈ valueNames then none else some (⟨description, name, directives⟩, ts)

def readFields? : List Token → Option (List FieldNode × List Token) :=
  enclosed? '\x7b' '\x7d' FieldNode.read?

/-! ## Definitions -/

namespace Definition

def interfaces? : List Token → Option (List String × List Token) :=
  Tokens.names? (.word "implements") '&'

/-- Reads what stands behind the head of a type without interfaces. -/
def readMembers? (head : TypeHead) (keyword : String) (ts : List Token) :
    Option (Definition × List Token) :=
  if keyword = "scalar" then some (scalar head, ts)
  else if keyword = "union" then do
    let (members, ts) ← Tokens.names? (.mark '=') '|' ts
    some (union head members, ts)
  else if keyword = "enum" then do
    let (values, ts) ← enclosed? '\x7b' '\x7d' EnumValueNode.read? ts
    some (enum head values, ts)
  else if keyword = "input" then do
    let (fields, ts) ← enclosed? '\x7b' '\x7d' InputValueNode.read? ts
    some (inputObject head fields, ts)
  else none

/-- Reads what stands behind the keyword of a type. -/
def readType? (description : Option String) (keyword : String) (ts : List Token) :
    Option (Definition × List Token) := do
  let (name, ts) ← name? ts
  if keyword = "type" ∨ keyword = "interface" then do
    let (interfaces, ts) ← interfaces? ts
    let (directives, ts) ← directives? ts
    let (fields, ts) ← readFields? ts
    let head := ⟨description, name, directives⟩
    some (if keyword = "type" then object head interfaces fields
      else interface head interfaces fields, ts)
  else do
    let (directives, ts) ← directives? ts
    readMembers? ⟨description, name, directives⟩ keyword ts

/-- An extension adds fields to an object. -/
def readExtension? : List Token → Option (Definition × List Token)
  | .word "type" :: ts => do
    let (name, ts) ← name? ts
    let (fields, ts) ← readFields? ts
    if fields = [] then none else some (extension name fields, ts)
  | _ => none

def read? (ts : List Token) : Option (Definition × List Token) :=
  match takeText ts with
  | (none, .word "extend" :: ts) => readExtension? ts
  | (description, .word keyword :: ts) => readType? description keyword ts
  | _ => none

end Definition

/-- The document that a text is. -/
def Document.ofText? (text : String) : Option Document := do
  let ts ← tokens? text.toList
  let (definitions, _) ← many? (fun _ => true) Definition.read? ts
  if definitions = [] then none else some ⟨definitions⟩

/-! ## What the grammar asks for -/

/-- Only what is not marked can be marked as non-null. -/
def TypeNode.Grammatical : TypeNode → Prop
  | named name => isName name = true
  | list item => item.Grammatical
  | nonNull inner => inner.Grammatical ∧ ∀ t, inner ≠ nonNull t

structure Directive.Grammatical (d : Directive) : Prop where
  name : isName d.name = true
  arguments : ∀ a ∈ d.arguments, isName a.1 = true

structure InputValueNode.Grammatical (v : InputValueNode) : Prop where
  name : isName v.name = true
  type : v.type.Grammatical
  directives : ∀ d ∈ v.directives, d.Grammatical

structure FieldNode.Grammatical (f : FieldNode) : Prop where
  name : isName f.name = true
  arguments : ∀ v ∈ f.arguments, v.Grammatical
  type : f.type.Grammatical
  directives : ∀ d ∈ f.directives, d.Grammatical

structure EnumValueNode.Grammatical (v : EnumValueNode) : Prop where
  name : isName v.name = true
  value : v.name ∉ valueNames
  directives : ∀ d ∈ v.directives, d.Grammatical

structure TypeHead.Grammatical (head : TypeHead) : Prop where
  name : isName head.name = true
  directives : ∀ d ∈ head.directives, d.Grammatical

def Definition.Grammatical : Definition → Prop
  | scalar head => head.Grammatical
  | object head interfaces fields | interface head interfaces fields =>
    head.Grammatical ∧ (∀ name ∈ interfaces, isName name = true) ∧ ∀ f ∈ fields, f.Grammatical
  | union head members => head.Grammatical ∧ ∀ name ∈ members, isName name = true
  | enum head values => head.Grammatical ∧ ∀ v ∈ values, v.Grammatical
  | inputObject head fields => head.Grammatical ∧ ∀ v ∈ fields, v.Grammatical
  | extension name fields => isName name = true ∧ fields ≠ [] ∧ ∀ f ∈ fields, f.Grammatical

/-- A document that the grammar allows: names are names of the language, no enum value is a value of
another kind, extensions add something, and something is defined at all. -/
def Document.Grammatical (d : Document) : Prop :=
  d.definitions ≠ [] ∧ ∀ definition ∈ d.definitions, definition.Grammatical

/-! ## What is read is grammatical -/

namespace Tokens

variable {α : Type} {P : α → Prop} {item : List Token → Option (α × List Token)}
  {ts rest : List Token}

theorem name?_sound {name : String} (h : name? ts = some (name, rest)) : isName name = true := by
  unfold name? at h
  split at h
  · split at h
    · simp only [Option.some.injEq, Prod.mk.injEq] at h
      rwa [← h.1]
    · cases h
  · cases h

theorem many?_sound {starts : Token → Bool} {as : List α}
    (hitem : ∀ ts a rest, item ts = some (a, rest) → P a)
    (h : many? starts item ts = some (as, rest)) : ∀ a ∈ as, P a := by
  fun_induction many? starts item ts generalizing as rest with
  | case1 =>
    cases h
    exact nofun
  | case2 t ts hstart ih =>
    simp only [Option.bind_eq_bind, Option.bind_eq_some_iff, Prod.exists] at h
    obtain ⟨a, more, ha, h⟩ := h
    split at h
    · rename_i hle
      simp only [Option.bind_eq_some_iff, Prod.exists, Option.some.injEq, Prod.mk.injEq] at h
      obtain ⟨as, rest, has, rfl, rfl⟩ := h
      exact List.forall_mem_cons.mpr ⟨hitem _ _ _ ha, ih _ hle has⟩
    · cases h
  | case3 t ts hstart =>
    cases h
    exact nofun

theorem enclosed?_sound {opening closing : Char} {as : List α}
    (hitem : ∀ ts a rest, item ts = some (a, rest) → P a)
    (h : enclosed? opening closing item ts = some (as, rest)) : ∀ a ∈ as, P a := by
  unfold enclosed? at h
  split at h
  · simp only [Option.bind_eq_bind, Option.bind_eq_some_iff, Prod.exists] at h
    obtain ⟨as', more, has, rest', -, h⟩ := h
    split at h
    · cases h
    · cases h
      exact many?_sound hitem has
  · cases h
    exact nofun

theorem names?_sound {opening : Token} {mark : Char} {names : List String}
    (h : names? opening mark ts = some (names, rest)) : ∀ name ∈ names, isName name = true := by
  unfold names? at h
  split at h
  · simp only [Option.bind_eq_bind, Option.bind_eq_some_iff, Prod.exists, Option.some.injEq,
      Prod.mk.injEq] at h
    obtain ⟨first, more, hfirst, names, rest, hnames, rfl, rfl⟩ := h
    exact List.forall_mem_cons.mpr
      ⟨name?_sound hfirst, many?_sound (fun _ _ _ => name?_sound) hnames⟩
  · cases h
    exact nofun

end Tokens

theorem TypeNode.grammatical_marked {t : TypeNode} (h : t.Grammatical) (hne : ∀ u, t ≠ nonNull u)
    (ts : List Token) : (t.marked ts).1.Grammatical := by
  unfold marked
  split
  · exact ⟨h, hne⟩
  · exact h

theorem TypeNode.grammatical_read? {ts rest : List Token} {t : TypeNode}
    (h : read? ts = some (t, rest)) : t.Grammatical := by
  fun_induction read? ts generalizing t rest with
  | case1 text ts hname =>
    rw [Option.some_inj] at h
    have hmarked := grammatical_marked (t := named text) hname nofun ts
    rwa [h] at hmarked
  | case2 => cases h
  | case3 ts ih =>
    simp only [Option.bind_eq_bind, Option.bind_eq_some_iff, Prod.exists, Option.some_inj] at h
    obtain ⟨item, more, hitem, more', -, h⟩ := h
    have hitem : item.Grammatical := ih hitem
    have hmarked := grammatical_marked (t := list item) hitem nofun more'
    rwa [h] at hmarked
  | case4 => cases h

section Parts

variable {ts rest : List Token}

theorem Directive.grammatical_readArgument? {a : String × String}
    (h : readArgument? ts = some (a, rest)) : isName a.1 = true := by
  simp only [readArgument?, Option.bind_eq_bind, Option.bind_eq_some_iff, Prod.exists] at h
  obtain ⟨name, more, hname, more', -, h⟩ := h
  split at h
  · cases h
    exact name?_sound hname
  · cases h

theorem Directive.grammatical_read? {d : Directive} (h : read? ts = some (d, rest)) :
    d.Grammatical := by
  simp only [read?, Option.bind_eq_bind, Option.bind_eq_some_iff, Prod.exists, Option.some.injEq,
    Prod.mk.injEq] at h
  obtain ⟨ts, -, name, ts, hname, arguments, ts, harguments, rfl, -⟩ := h
  exact ⟨name?_sound hname, enclosed?_sound (fun _ _ _ => grammatical_readArgument?) harguments⟩

theorem grammatical_directives? {ds : List Directive} (h : directives? ts = some (ds, rest)) :
    ∀ d ∈ ds, d.Grammatical :=
  many?_sound (fun _ _ _ => Directive.grammatical_read?) h

theorem InputValueNode.grammatical_read? {v : InputValueNode} (h : read? ts = some (v, rest)) :
    v.Grammatical := by
  simp only [read?, Option.bind_eq_bind, Option.bind_eq_some_iff, Prod.exists, Option.some.injEq,
    Prod.mk.injEq] at h
  obtain ⟨name, ts, hname, ts, -, type, ts, htype, directives, ts, hdirectives, rfl, -⟩ := h
  exact ⟨name?_sound hname, TypeNode.grammatical_read? htype, grammatical_directives? hdirectives⟩

theorem FieldNode.grammatical_read? {f : FieldNode} (h : read? ts = some (f, rest)) :
    f.Grammatical := by
  simp only [read?, Option.bind_eq_bind, Option.bind_eq_some_iff, Prod.exists, Option.some.injEq,
    Prod.mk.injEq] at h
  obtain ⟨name, ts, hname, arguments, ts, harguments, ts, -, type, ts, htype, directives, ts,
    hdirectives, rfl, -⟩ := h
  exact ⟨name?_sound hname,
    enclosed?_sound (fun _ _ _ => InputValueNode.grammatical_read?) harguments,
    TypeNode.grammatical_read? htype, grammatical_directives? hdirectives⟩

theorem EnumValueNode.grammatical_read? {v : EnumValueNode} (h : read? ts = some (v, rest)) :
    v.Grammatical := by
  simp only [read?, Option.bind_eq_bind, Option.bind_eq_some_iff, Prod.exists] at h
  obtain ⟨name, ts, hname, directives, ts, hdirectives, h⟩ := h
  split at h
  · cases h
  · rename_i hvalue
    cases h
    exact ⟨name?_sound hname, hvalue, grammatical_directives? hdirectives⟩

theorem grammatical_readFields? {fields : List FieldNode}
    (h : readFields? ts = some (fields, rest)) : ∀ f ∈ fields, f.Grammatical :=
  enclosed?_sound (fun _ _ _ => FieldNode.grammatical_read?) h

namespace Definition

theorem grammatical_readMembers? {head : TypeHead} {keyword : String} {d : Definition}
    (hhead : head.Grammatical) (h : readMembers? head keyword ts = some (d, rest)) :
    d.Grammatical := by
  unfold readMembers? at h
  simp only [Option.bind_eq_bind] at h
  split_ifs at h
  · cases h
    exact hhead
  · simp only [Option.bind_eq_some_iff, Prod.exists, Option.some.injEq, Prod.mk.injEq] at h
    obtain ⟨members, ts, hmembers, rfl, -⟩ := h
    exact ⟨hhead, names?_sound hmembers⟩
  · simp only [Option.bind_eq_some_iff, Prod.exists, Option.some.injEq, Prod.mk.injEq] at h
    obtain ⟨values, ts, hvalues, rfl, -⟩ := h
    exact ⟨hhead, enclosed?_sound (fun _ _ _ => EnumValueNode.grammatical_read?) hvalues⟩
  · simp only [Option.bind_eq_some_iff, Prod.exists, Option.some.injEq, Prod.mk.injEq] at h
    obtain ⟨fields, ts, hfields, rfl, -⟩ := h
    exact ⟨hhead, enclosed?_sound (fun _ _ _ => InputValueNode.grammatical_read?) hfields⟩

theorem grammatical_readType? {description : Option String} {keyword : String} {d : Definition}
    (h : readType? description keyword ts = some (d, rest)) : d.Grammatical := by
  simp only [readType?, Option.bind_eq_bind, Option.bind_eq_some_iff, Prod.exists] at h
  obtain ⟨name, ts, hname, h⟩ := h
  have hhead {directives : List Directive} {ts rest : List Token}
      (h : directives? ts = some (directives, rest)) :
      (⟨description, name, directives⟩ : TypeHead).Grammatical :=
    ⟨name?_sound hname, grammatical_directives? h⟩
  split at h
  · simp only [Option.bind_eq_some_iff, Prod.exists, Option.some.injEq, Prod.mk.injEq] at h
    obtain ⟨interfaces, ts, hinterfaces, directives, ts, hdirectives, fields, ts, hfields, rfl,
      -⟩ := h
    have hgrammatical := And.intro (hhead hdirectives)
      (And.intro (names?_sound hinterfaces) (grammatical_readFields? hfields))
    split <;> exact hgrammatical
  · simp only [Option.bind_eq_some_iff, Prod.exists] at h
    obtain ⟨directives, ts, hdirectives, h⟩ := h
    exact grammatical_readMembers? (hhead hdirectives) h

theorem grammatical_readExtension? {d : Definition} (h : readExtension? ts = some (d, rest)) :
    d.Grammatical := by
  unfold readExtension? at h
  split at h
  · simp only [Option.bind_eq_bind, Option.bind_eq_some_iff, Prod.exists] at h
    obtain ⟨name, ts, hname, fields, ts, hfields, h⟩ := h
    split at h
    · cases h
    · rename_i hne
      cases h
      exact ⟨name?_sound hname, hne, grammatical_readFields? hfields⟩
  · cases h

theorem grammatical_read? {d : Definition} (h : read? ts = some (d, rest)) : d.Grammatical := by
  unfold read? at h
  split at h
  · exact grammatical_readExtension? h
  · exact grammatical_readType? h
  · cases h

end Definition

end Parts

/-- A document that is read is one that the grammar allows. -/
theorem Document.grammatical_ofText? {text : String} {d : Document} (h : ofText? text = some d) :
    d.Grammatical := by
  simp only [ofText?, Option.bind_eq_bind, Option.bind_eq_some_iff, Prod.exists] at h
  obtain ⟨ts, -, definitions, rest, hdefinitions, h⟩ := h
  split at h
  · cases h
  · rename_i hne
    cases h
    exact ⟨hne, many?_sound (fun _ _ _ => Definition.grammatical_read?) hdefinitions⟩

end SchemaCompiler.GraphQL

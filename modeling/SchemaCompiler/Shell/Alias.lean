import SchemaCompiler.Shell.Quote
import SchemaCompiler.Shell.Syntax

/-!
# Aliases

An alias is a word that stands for a text where a command starts. The text takes the place of the
word before it is read, so what a line of a script means hangs on the lines that have run before it.
-/

namespace SchemaCompiler.Shell

/-- The texts that words stand for, in the order in which they were introduced. -/
abbrev Aliases := List (String × String)

namespace Aliases

def set (name text : String) : Aliases → Aliases
  | [] => [(name, text)]
  | (other, old) :: rest =>
    if other = name then (name, text) :: rest else (other, old) :: set name text rest

def remove (name : String) (aliases : Aliases) : Aliases := aliases.filter (·.1 ≠ name)

/-- A number of characters that a word cannot grow beyond, times the length of what stands behind
it. No alias is replaced in its own text, so texts nest at most as deep as there are aliases. -/
def growth (aliases : Aliases) : Nat :=
  Nat.pow (aliases.foldl (fun n a => n + a.2.length) 1) aliases.length

/-! ## Lists of aliases -/

/-- How many groups aliases are listed in. -/
def groups : Nat := 39

/-- The group of a word. -/
def group (name : String) : Nat :=
  let bytes := name.toUTF8.toList.map (·.toNat)
  bytes.foldl (· + ·) (16 * bytes.headD 0) % groups

/-- The aliases as they are listed: group by group. -/
def listed (aliases : Aliases) : Aliases :=
  (List.range groups).flatMap fun n => aliases.filter fun a => group a.1 = n

/-- An alias as it is listed. -/
def line (a : String × String) : String :=
  a.1 ++ "=" ++ Shell.listed a.2 ++ "\n"

end Aliases

end SchemaCompiler.Shell

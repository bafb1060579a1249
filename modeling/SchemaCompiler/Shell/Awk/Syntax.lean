import SchemaCompiler.Shell.Regex

/-!
# Programs for records

A program is a list of rules. A rule has a pattern, which selects records, and an action, which is
run on every record that is selected.
-/

namespace SchemaCompiler.Shell.Awk

mutual

inductive Expr where
  | number (value : Float)
  | text (value : String)
  /-- Whether the record matches, unless it is an operand that a regular expression may be. -/
  | regex (regex : Regex)
  | target (t : Target)
  | unary (operator : String) (operand : Expr)
  /-- Two operands and an operator; the empty one joins two texts. -/
  | binary (operator : String) (left right : Expr)
  /-- Whether an array has an item under a key. -/
  | contained (key : List Expr) (array : String)
  | conditional (test whenTrue whenFalse : Expr)
  /-- An assignment, with the operator in front of its `=` if there is one. -/
  | assign (t : Target) (operator : Option String) (value : Expr)
  /-- Counts a target up or down; the value is the one `before` or behind the change. -/
  | count (t : Target) (step : Float) (before : Bool)
  | call (function : String) (arguments : List Expr)
  /-- Reads a line into a target or the place of the record. -/
  | getline (into : Option Target) (source : LineSource)
  /-- Several expressions in parentheses. -/
  | group (items : List Expr)

/-- What can be assigned to. -/
inductive Target where
  | variable (name : String)
  | field (index : Expr)
  | item (array : String) (key : List Expr)

/-- Where a line comes from that is asked for. -/
inductive LineSource where
  | records
  | file (name : Expr)
  /-- The output of a command. -/
  | command (line : Expr)

end

/-- What becomes of output. -/
inductive OutputMode where
  /-- A file is emptied before the first text. -/
  | write
  | append
  /-- It is the input of a command. -/
  | command
deriving DecidableEq

structure Redirect where
  mode : OutputMode
  target : Expr

inductive Statement where
  | expr (e : Expr)
  | print (items : List Expr) (redirect : Option Redirect)
  | printf (items : List Expr) (redirect : Option Redirect)
  | block (body : List Statement)
  | branch (test : Expr) (whenTrue : Statement) (whenFalse : Option Statement)
  | while (test : Expr) (body : Statement)
  | doWhile (body : Statement) (test : Expr)
  | for (start : Option Statement) (test : Option Expr) (step : Option Statement)
      (body : Statement)
  /-- Runs over the keys of an array. -/
  | each (name array : String) (body : Statement)
  | delete (array : String) (key : Option (List Expr))
  | next
  | break
  | continue
  | exit (status : Option Expr)
  | return (value : Option Expr)

inductive RulePattern where
  /-- Before all records. -/
  | start
  /-- Behind all records. -/
  | finish
  | always
  | when (test : Expr)
  | range (first last : Expr)

structure Rule where
  pattern : RulePattern
  action : List Statement

/-- A function of a program. Parameters that it is given nothing for are variables of its own. -/
structure Function where
  name : String
  parameters : List String
  body : List Statement

structure Program where
  rules : List Rule := []
  functions : List Function := []

end SchemaCompiler.Shell.Awk

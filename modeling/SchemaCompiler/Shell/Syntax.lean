/-!
# Commands

The shape of a script: commands made of words, and words made of parts that are replaced before a
command runs.
-/

namespace SchemaCompiler.Shell

/-- What happens where a parameter without a value is used. -/
inductive Fallback where
  /-- Another value takes its place. -/
  | value
  /-- As `value`, and the parameter keeps it. -/
  | assign
  | complain
  /-- Another value takes the place of the one that is there. -/
  | alternative
deriving DecidableEq, Repr

/-- Which end of a value is cut off where a pattern matches it. -/
structure Trim where
  atEnd : Bool
  longest : Bool
deriving DecidableEq, Repr

inductive RedirectMode where
  | write
  /-- As `write`, whatever the options say. -/
  | overwrite
  | append
  | read
  /-- Sends a stream where another one goes. -/
  | copy
  /-- The text that follows is the input. -/
  | text
deriving DecidableEq, Repr

mutual

/-- A part of a word. What comes out of an expansion is cut into several words, and special
characters make patterns, unless they are quoted. -/
inductive Part where
  | text (chars : String) (quoted : Bool)
  | parameter (name : String) (quoted : Bool)
  | length (name : String) (quoted : Bool)
  /-- A parameter with something else in its place when it is unset, or empty if `orEmpty` is
  set. -/
  | fallback (name : String) (quoted : Bool) (kind : Fallback) (orEmpty : Bool) (word : List Part)
  | trimmed (name : String) (quoted : Bool) (trim : Trim) (pattern : List Part)
  /-- The output of a command. -/
  | output (command : Command) (quoted : Bool)
  | arithmetic (expression : List Part) (quoted : Bool)
  /-- A use of a parameter that means nothing. -/
  | senseless

inductive Redirect where
  | mk (stream : Nat) (mode : RedirectMode) (target : List Part)

/-- A branch of a choice: its patterns and what is done. -/
inductive Branch where
  | mk (patterns : List (List Part)) (body : Command)

inductive Command where
  /-- Assignments, words and redirections; `line` is where they stand. -/
  | simple (line : Nat) (assignments : List (String × List Part)) (words : List (List Part))
      (redirects : List Redirect)
  | nothing
  | sequence (first second : Command)
  | andThen (first second : Command)
  | orElse (first second : Command)
  | not (command : Command)
  | pipe (first second : Command)
  | background (command : Command)
  /-- Commands in parentheses, which leave nothing behind but their output. -/
  | subshell (body : Command)
  | redirected (body : Command) (redirects : List Redirect)
  | ifThen (condition body otherwise : Command)
  /-- Repeats while the condition has the given outcome. -/
  | loop (whileTrue : Bool) (condition body : Command)
  /-- Repeats for each word; without a list of words for each argument. -/
  | forEach (name : String) (words : Option (List (List Part))) (body : Command)
  | choose (subject : List Part) (branches : List Branch)
  | function (name : String) (body : Command)

end

instance : Inhabited Command := ⟨.nothing⟩

abbrev Word := List Part

/-- What is wrong with a script, and in which line. -/
structure Problem where
  line : Nat
  text : String
deriving DecidableEq, Repr

/-- A message about a line of a script; `name` is what the shell is called. -/
def complaint (name : String) (line : Nat) (text : String) : String :=
  name ++ ": " ++ toString line ++ ": " ++ text ++ "\n"

/-- The message about a problem; `command` is the one that runs the script, if it is one of the
shell itself. -/
def Problem.message (p : Problem) (name : String) (command : Option String) : String :=
  let source := match command with
    | some command => command ++ ": "
    | none => ""
  complaint name p.line (source ++ "Syntax error: " ++ p.text)

end SchemaCompiler.Shell

import SchemaCompiler.Path.Basic

/-!
# Module specifiers

A specifier that starts with `./` or `../`, or is `.` or `..`, names a file relative to the file
that holds it; every other specifier names a package.

* `resolveSpecifier` finds the source file that a relative specifier means;
* `relativeImport` writes the specifier by which a file in a directory reaches another file.
-/

namespace SchemaCompiler

def isRelative (specifier : String) : Bool :=
  specifier.startsWith "./" || specifier.startsWith "../" || specifier == "." || specifier == ".."

namespace Path

def isSource (p : Path) : Bool := p.extension? == some "ts" || p.extension? == some "tsx"

/-- A name without the ending `.js`. -/
def withoutJs? (text : String) : Option String :=
  match text.toList.reverse with
  | 's' :: 'j' :: '.' :: stem => some (String.ofList stem.reverse)
  | _ => none

/-- The files that a path without a fixed extension may mean, in order of preference. -/
def candidates (base : Path) : List Path :=
  let renamed :=
    match withoutJs? base.text with
    | some stem => [⟨stem ++ ".ts"⟩, ⟨stem ++ ".tsx"⟩]
    | none => []
  renamed ++ base :: [".ts", ".tsx", ".d.ts"].map (fun ending => ⟨base.text ++ ending⟩) ++
    [base.join "index.ts", base.join "index.tsx"]

end Path

/-- The first candidate that is a source file and present. -/
def resolveSpecifier (source : Path) (specifier : String) (present : Path → Bool) : Option Path :=
  ((source.directory.join specifier).normalize.candidates).find? fun candidate =>
    candidate.isSource && present candidate

/-- Appends a component to a path written as components; the root starts anew. -/
def Path.append (steps : List Component) : Component → List Component
  | .root => [.root]
  | component => steps ++ [component]

/-- How many components two lists share from the start. -/
def sharedCount : List Component → List Component → Nat
  | a :: as, b :: bs => if a = b then sharedCount as bs + 1 else 0
  | _, _ => 0

/-- The specifier of `target`, without its extension, from a file in `directory`. -/
def relativeImport (directory target : Path) : String :=
  let source := directory.components.filter (· ≠ .here)
  let goal := target.withoutExtension.components.filter (· ≠ .here)
  let shared := sharedCount source goal
  let climb := List.replicate (source.length - shared) Component.up
  let steps := (goal.drop shared).foldl Path.append climb
  let text := String.ofList ((Path.ofComponents steps).text.toList.map fun c =>
    if c = '\\' then '/' else c)
  if text.startsWith ".." then text else "./" ++ text

end SchemaCompiler

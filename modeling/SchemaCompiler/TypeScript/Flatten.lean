import SchemaCompiler.TypeScript.Syntax

/-!
# Members of unions and intersections

* `TypeExpr.splitNullable` lists the members of nested unions without `null` and `undefined`;
* `mergeOrder` lists the parts of an intersection level by level, in the order in which their
  properties are merged; parentheses put a part behind its neighbours;
* `argumentOrder` does the same and looks through parentheses at once.
-/

namespace SchemaCompiler.TypeScript

namespace TypeExpr

/-! ## Unions -/

mutual

/-- The members of a type that are not `null` or `undefined`, and whether one of these was there. -/
def members : TypeExpr → List TypeExpr × Bool
  | paren _ inner => members inner
  | union _ types => splitNullable types
  | keyword s word => if word = .null ∨ word = .undefined then ([], true) else ([keyword s word], false)
  | literal s v => ([literal s v], false)
  | reference s n a => ([reference s n a], false)
  | object s ms => ([object s ms], false)
  | array s e => ([array s e], false)
  | intersection s ts => ([intersection s ts], false)
  | readonly s t => ([readonly s t], false)
  | other s => ([other s], false)

def splitNullable : List TypeExpr → List TypeExpr × Bool
  | [] => ([], false)
  | t :: ts =>
    let first := members t
    let rest := splitNullable ts
    (first.1 ++ rest.1, first.2 || rest.2)

end

/-- The types of a union, or the type alone. -/
def alternatives (t : TypeExpr) : List TypeExpr :=
  match t.stripParens with
  | union _ types => types
  | single => [single]

/-! ## Intersections -/

noncomputable def totalSize : List TypeExpr → Nat
  | [] => 0
  | t :: types => sizeOf t + totalSize types

theorem sizeOf_pos (t : TypeExpr) : 0 < sizeOf t := by
  cases t <;> simp +arith

theorem totalSize_lt_cons (t : TypeExpr) (types : List TypeExpr) :
    totalSize types < totalSize (t :: types) := by
  have := sizeOf_pos t
  simp only [totalSize]
  omega

theorem totalSize_append (a b : List TypeExpr) :
    totalSize (a ++ b) = totalSize a + totalSize b := by
  induction a with
  | nil => simp [totalSize]
  | cons t types ih =>
    simp only [List.cons_append, totalSize, ih]
    omega

theorem totalSize_le_sizeOf (types : List TypeExpr) : totalSize types ≤ sizeOf types := by
  induction types with
  | nil => simp [totalSize]
  | cons t types ih =>
    simp only [totalSize, List.cons.sizeOf_spec]
    omega

/-- Parts of intersections, level by level, from a queue. -/
def mergeQueue : List TypeExpr → List TypeExpr
  | [] => []
  | paren _ inner :: queue => mergeQueue (queue ++ [inner])
  | intersection _ types :: queue => mergeQueue (queue ++ types)
  | t :: queue => t :: mergeQueue queue
termination_by queue => totalSize queue
decreasing_by
  · simp only [totalSize_append, totalSize, paren.sizeOf_spec]
    omega
  · have := totalSize_le_sizeOf types
    simp only [totalSize_append, totalSize, intersection.sizeOf_spec]
    omega
  · exact totalSize_lt_cons _ _

/-- The parts of a type whose properties are merged, in order. -/
def mergeOrder (t : TypeExpr) : List TypeExpr := mergeQueue [t]

theorem sizeOf_stripParens_le (t : TypeExpr) : sizeOf t.stripParens ≤ sizeOf t := by
  fun_induction stripParens t with
  | case1 s inner ih => simp only [paren.sizeOf_spec]; omega
  | case2 t => exact Nat.le_refl _

/-- As `mergeQueue`, with parentheses taken off first. -/
def argumentQueue : List TypeExpr → List TypeExpr
  | [] => []
  | t :: queue =>
    match _h : t.stripParens with
    | intersection _ types => argumentQueue (queue ++ types)
    | part => part :: argumentQueue queue
termination_by queue => totalSize queue
decreasing_by
  · have h1 := totalSize_le_sizeOf types
    have h2 := sizeOf_stripParens_le t
    rw [_h] at h2
    simp only [totalSize_append, totalSize, intersection.sizeOf_spec] at h2 ⊢
    omega
  · exact totalSize_lt_cons _ _

/-- The parts of the type of a resolver's arguments. -/
def argumentOrder (t : TypeExpr) : List TypeExpr := argumentQueue [t]

/-- The keys that a string literal or a union of them names. -/
def literalKeys? (t : TypeExpr) : Option (List String) :=
  match t.stripParens with
  | union _ types => types.mapM stringLiteral?
  | single => single.stringLiteral?.map ([·])

end TypeExpr

end SchemaCompiler.TypeScript

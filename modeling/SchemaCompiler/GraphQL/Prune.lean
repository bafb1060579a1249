import SchemaCompiler.GraphQL.Schema

/-!
# Types that nothing leads to

A type is reachable from the root types and from the extensions through field and argument types,
union members and interfaces, and from an interface to the types that implement it. Pruning keeps
the reachable types.
-/

namespace SchemaCompiler.GraphQL.Schema

/-! ## References -/

def fieldReferences (f : Field) : List String := f.type.typeName :: f.args.map (·.type.typeName)

/-- The base types that implement an interface. -/
def implementors (s : Schema) (name : String) : List String :=
  (s.baseTypes.filter (·.interfaces.contains name)).map (·.name)

def baseReferences (s : Schema) (t : TypeDef) : List String :=
  t.fields.flatMap fieldReferences ++ t.unionMembers ++ t.interfaces ++
    (if t.kind = .interface then s.implementors t.name else [])

def inputReferences (t : InputType) : List String := t.fields.map (·.type.typeName)

/-- The names that the types of a name refer to. -/
def references (s : Schema) (name : String) : List String :=
  ((s.baseType? name).map (s.baseReferences ·)).getD [] ++
    ((s.inputType? name).map inputReferences).getD []

def typeNames (s : Schema) : List String :=
  s.baseTypes.map (·.name) ++ s.inputTypes.map (·.name)

theorem references_eq_nil {s : Schema} {name : String} (h : name ∉ s.typeNames) :
    s.references name = [] := by
  simp only [typeNames, List.mem_append, List.mem_map, not_or, not_exists, not_and] at h
  have hbase : s.baseType? name = none := by
    simp only [baseType?, List.find?_eq_none, beq_iff_eq]
    exact fun t ht heq => h.1 t ht heq
  have hinput : s.inputType? name = none := by
    simp only [inputType?, List.find?_eq_none, beq_iff_eq]
    exact fun t ht heq => h.2 t ht heq
  simp [references, hbase, hinput]

/-! ## Reachable names -/

/-- The types that were not reached yet. -/
def unseen (s : Schema) (seen : List String) : List String :=
  s.typeNames.filter fun n => !seen.contains n

theorem unseen_cons (s : Schema) (seen : List String) (name : String) :
    s.unseen (name :: seen) = (s.unseen seen).filter (· != name) := by
  simp only [unseen, List.filter_filter]
  apply List.filter_congr
  intro n _
  rw [List.contains_cons, Bool.not_or, bne]

theorem length_unseen_cons_le (s : Schema) (seen : List String) (name : String) :
    (s.unseen (name :: seen)).length ≤ (s.unseen seen).length := by
  rw [unseen_cons]
  exact List.length_filter_le _ _

theorem length_unseen_cons_lt {s : Schema} {seen : List String} {name : String}
    (hmem : name ∈ s.typeNames) (hnew : name ∉ seen) :
    (s.unseen (name :: seen)).length < (s.unseen seen).length := by
  rw [unseen_cons]
  apply List.length_filter_lt_length_iff_exists.2
  exact ⟨name, by simp [unseen, hmem, hnew], by simp⟩

/-- The names that a queue leads to, added to those that were seen. -/
def reach (s : Schema) (seen queue : List String) : List String :=
  match queue with
  | [] => seen
  | name :: rest =>
    if name ∈ seen then s.reach seen rest
    else s.reach (name :: seen) (rest ++ s.references name)
termination_by ((s.unseen seen).length, queue.length)
decreasing_by
  · exact .right _ (by simp)
  · rename_i hnew
    by_cases hmem : name ∈ s.typeNames
    · exact .left _ _ (length_unseen_cons_lt hmem hnew)
    · rcases Nat.lt_or_eq_of_le (length_unseen_cons_le s seen name) with hlt | heq
      · exact .left _ _ hlt
      · rw [heq]
        exact .right _ (by simp [references_eq_nil hmem])

/-- Where reaching starts. -/
def roots (s : Schema) : List String :=
  [queryType, mutationType].filter (fun name => (s.baseType? name).isSome) ++
    s.extensions.flatMap fun e => e.target :: e.fields.flatMap fun f => fieldReferences f.field

def reachable (s : Schema) : List String := s.reach [] s.roots

/-! ## Pruning -/

/-- A schema without the types that were removed from it; their names are sorted. -/
structure Pruned where
  schema : Schema
  removed : List String

def prune (s : Schema) : Pruned :=
  let names := s.reachable
  { schema :=
      { s with
        baseTypes := s.baseTypes.filter fun t => names.contains t.name
        inputTypes := s.inputTypes.filter fun t => names.contains t.name }
    removed := (s.typeNames.filter fun n => !names.contains n).mergeSort (· ≤ ·) }

end SchemaCompiler.GraphQL.Schema

import Mathlib.Data.Ordering.Lemmas
import SchemaCompiler.Path.Basic

/-!
# The order of paths

Paths are the same when their components are, and sort by their components. The order is total, and
the paths that it does not tell apart are the same.
-/

namespace SchemaCompiler

open Std

/-- Things that are compared by a key of theirs. -/
theorem equivBEq_of_key {α β : Type} [BEq α] (key : α → β)
    (h : ∀ a b : α, (a == b) = true ↔ key a = key b) : EquivBEq α where
  rfl := (h _ _).mpr rfl
  symm hab := (h _ _).mpr ((h _ _).mp hab).symm
  trans hab hbc := (h _ _).mpr (((h _ _).mp hab).trans ((h _ _).mp hbc))

namespace Component

/-- What tells two steps of one rank apart. -/
def tag : Component → String
  | name s => s
  | _ => ""

theorem compare_eq_compareLex :
    compare = compareLex (compareOn rank) (compareOn tag) := by
  funext a b
  cases a <;> cases b <;> simp [compare, compareLex, compareOn, rank, tag] <;> rfl

instance : TransCmp compare := compare_eq_compareLex ▸ inferInstance

instance : LawfulEqCmp compare where
  eq_of_compare {a b} h := by
    cases a <;> cases b <;> simp_all [compare, rank]

instance : Ord Component := ⟨compare⟩

instance : TransOrd Component := inferInstanceAs (TransCmp compare)

instance : LawfulEqOrd Component := inferInstanceAs (LawfulEqCmp compare)

end Component

namespace Path

theorem beq_iff {p q : Path} : (p == q) = true ↔ p.components = q.components := by
  show (p.components == q.components) = true ↔ _
  rw [beq_iff_eq]

instance : EquivBEq Path := equivBEq_of_key components fun _ _ => beq_iff

theorem option_beq_iff {p q : Option Path} :
    (p == q) = true ↔ p.map components = q.map components := by
  cases p <;> cases q <;> simp [beq_iff]

instance : EquivBEq (Option Path) :=
  equivBEq_of_key (Option.map components) fun _ _ => option_beq_iff

theorem compareComponents_eq :
    compareComponents = List.compareLex Component.compare := by
  funext a b
  induction a generalizing b with
  | nil => cases b <;> rfl
  | cons x as ih =>
    cases b with
    | nil => rfl
    | cons y bs =>
      rw [compareComponents, ih, List.compareLex_cons_cons]

theorem compare_eq_compareOn :
    compare = fun p q => List.compareLex Component.compare p.components q.components := by
  funext p q
  rw [compare, compareComponents_eq]

instance : TransCmp compare where
  eq_swap {p q} := by
    rw [compare_eq_compareOn]
    exact OrientedCmp.eq_swap
  isLE_trans {p q r} := by
    rw [compare_eq_compareOn]
    exact TransCmp.isLE_trans

theorem compare_eq_iff {p q : Path} : p.compare q = .eq ↔ (p == q) = true := by
  rw [compare_eq_compareOn, beq_iff]
  exact LawfulEqCmp.compare_eq_iff_eq

end Path

end SchemaCompiler

import Mathlib
import SchemaCompiler.Program.Basic
import SchemaCompiler.Proofs.Lists
import SchemaCompiler.Proofs.Path.Order

/-!
# Modules in their places

A module is put where its path sorts, and takes the place of a module with the same path. Modules
with distinct paths are all kept, and make the same program in every order.
-/

namespace SchemaCompiler

open Std

namespace Program

/-- Modules whose paths differ. -/
def Distinct (modules : List SourceModule) : Prop :=
  modules.Pairwise fun a b => ¬ (a.path == b.path) = true

theorem Distinct.perm {modules modules' : List SourceModule} (h : Distinct modules)
    (hperm : modules.Perm modules') : Distinct modules' :=
  hperm.pairwise h fun hne hsame => hne (BEq.symm hsame)

theorem module?_of_mem {p : Program} (h : Distinct p.modules) {m : SourceModule}
    (hm : m ∈ p.modules) : p.module? m.path = some m := by
  rw [module?, ← List.head?_filter, filter_key_eq_singleton h hm BEq.rfl, List.head?_cons]

/-! ## One module -/

section Insertion

variable {m n other : SourceModule} {rest modules : List SourceModule}

theorem insertSorted_of_lt (h : m.path.compare other.path = .lt) :
    insertSorted m (other :: rest) = m :: other :: rest := by
  simp only [insertSorted, h]

theorem insertSorted_of_eq (h : m.path.compare other.path = .eq) :
    insertSorted m (other :: rest) = m :: rest := by
  simp only [insertSorted, h]

theorem insertSorted_of_gt (h : m.path.compare other.path = .gt) :
    insertSorted m (other :: rest) = other :: insertSorted m rest := by
  simp only [insertSorted, h]

theorem insertSorted_perm
    (h : ∀ other ∈ modules, ¬ (m.path == other.path) = true) :
    (insertSorted m modules).Perm (m :: modules) := by
  induction modules with
  | nil => exact .refl _
  | cons first rest ih =>
    obtain ⟨hfirst, hrest⟩ := List.forall_mem_cons.mp h
    cases horder : m.path.compare first.path with
    | lt => rw [insertSorted_of_lt horder]
    | eq => exact absurd (Path.compare_eq_iff.mp horder) hfirst
    | gt =>
      rw [insertSorted_of_gt horder]
      exact ((ih hrest).cons first).trans (.swap m first rest)

/-- Two modules find their places in either order. -/
theorem insertSorted_comm_of_lt (h : m.path.compare n.path = .lt) (modules : List SourceModule) :
    insertSorted m (insertSorted n modules) = insertSorted n (insertSorted m modules) := by
  have hswap : n.path.compare m.path = .gt := OrientedCmp.gt_of_lt h
  induction modules with
  | nil =>
    show insertSorted m [n] = insertSorted n [m]
    rw [insertSorted_of_lt h, insertSorted_of_gt hswap, insertSorted]
  | cons first rest ih =>
    cases hn : n.path.compare first.path with
    | lt =>
      have hm : m.path.compare first.path = .lt := TransCmp.lt_trans h hn
      rw [insertSorted_of_lt hn, insertSorted_of_lt h, insertSorted_of_lt hm,
        insertSorted_of_gt hswap, insertSorted_of_lt hn]
    | eq =>
      have hm : m.path.compare first.path = .lt := TransCmp.lt_of_lt_of_eq h hn
      rw [insertSorted_of_eq hn, insertSorted_of_lt h, insertSorted_of_lt hm,
        insertSorted_of_gt hswap, insertSorted_of_eq hn]
    | gt =>
      rw [insertSorted_of_gt hn]
      cases hm : m.path.compare first.path with
      | lt => rw [insertSorted_of_lt hm, insertSorted_of_lt hm, insertSorted_of_gt hswap,
          insertSorted_of_gt hn]
      | eq => rw [insertSorted_of_eq hm, insertSorted_of_eq hm, insertSorted_of_gt hswap]
      | gt => rw [insertSorted_of_gt hm, insertSorted_of_gt hm, insertSorted_of_gt hn, ih]

theorem insert_comm (p : Program) (h : ¬ (m.path == n.path) = true) :
    (p.insert m).insert n = (p.insert n).insert m := by
  refine congrArg Program.mk ?_
  cases horder : m.path.compare n.path with
  | lt => exact (insertSorted_comm_of_lt horder p.modules).symm
  | eq => exact absurd (Path.compare_eq_iff.mp horder) h
  | gt => exact insertSorted_comm_of_lt (OrientedCmp.gt_iff_lt.mp horder) p.modules

end Insertion

/-! ## Many modules -/

/-- Modules with distinct paths are all kept. -/
theorem perm_foldl_insert {p : Program} {modules : List SourceModule}
    (h : Distinct (p.modules ++ modules)) :
    (modules.foldl insert p).modules.Perm (p.modules ++ modules) := by
  induction modules generalizing p with
  | nil => simp
  | cons m rest ih =>
    have hswap : (p.modules ++ m :: rest).Perm (m :: p.modules ++ rest) := List.perm_middle
    have hapart : Distinct (m :: p.modules ++ rest) := h.perm hswap
    have hfresh : ∀ other ∈ p.modules, ¬ (m.path == other.path) = true := fun other hother =>
      (List.pairwise_cons.mp hapart).1 other (List.mem_append_left _ hother)
    have hplaced : ((p.insert m).modules ++ rest).Perm (m :: p.modules ++ rest) :=
      (insertSorted_perm hfresh).append_right rest
    have hkept := ih (p := p.insert m) (hapart.perm hplaced.symm)
    exact hkept.trans (hplaced.trans hswap.symm)

/-- Modules with distinct paths make the same program in every order. -/
theorem foldl_insert_perm {modules modules' : List SourceModule} (hperm : modules.Perm modules')
    (hdistinct : Distinct modules) (p : Program) :
    modules.foldl insert p = modules'.foldl insert p := by
  have : Std.Symm fun a b : SourceModule => ¬ (a.path == b.path) = true :=
    ⟨fun _ _ hne hsame => hne (BEq.symm hsame)⟩
  refine hperm.foldl_eq' (fun m hm n hn q => ?_) p
  by_cases hsame : m = n
  · rw [hsame]
  · exact insert_comm q (List.Pairwise.forall hdistinct hm hn hsame)

end Program

end SchemaCompiler

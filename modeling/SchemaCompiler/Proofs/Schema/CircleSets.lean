import Mathlib.Data.List.Chain
import Mathlib.Data.List.Sort
import Mathlib.Data.List.TakeWhile
import Mathlib.Data.Ordering.Lemmas
import Mathlib.Data.String.Basic
import SchemaCompiler.GraphQL.Validate
import SchemaCompiler.Proofs.Lists

/-!
# Circles as they are kept

A circle is turned until it starts with its smallest name, and it is kept under the set of its
names, of which each is kept once. Turning a circle leaves it a circle, two circles have one key
exactly when they have the same names, and keeping one more loses none of those that were kept.
-/

namespace SchemaCompiler.GraphQL

/-! ## Closed lists -/

section Closed

variable {α : Type} {R : α → α → Prop}

/-- Each item leads to the next one, and the last one to the first. -/
def Closed (R : α → α → Prop) (items : List α) : Prop := (items ++ items.take 1).IsChain R

theorem Closed.turn {xs ys : List α} (h : Closed R (xs ++ ys)) : Closed R (ys ++ xs) := by
  cases xs with
  | nil => simpa using h
  | cons x xs =>
    cases ys with
    | nil => simpa using h
    | cons y ys =>
      have hfrom : (x :: xs ++ y :: (ys ++ [x])).IsChain R := by simpa [Closed] using h
      obtain ⟨hfront, hback⟩ := List.isChain_split.mp hfrom
      have hturned : (y :: ys ++ x :: (xs ++ [y])).IsChain R :=
        List.isChain_split.mpr ⟨hback, hfront⟩
      simpa [Closed] using hturned

theorem Closed.imp_of_mem {S : α → α → Prop} {items : List α} (h : Closed R items)
    (himp : ∀ a ∈ items, ∀ b, R a b → S a b) : Closed S items :=
  List.IsChain.imp_of_mem_imp (fun a b ha _ hab =>
    himp a ((List.mem_append.mp ha).elim id List.mem_of_mem_take) b hab) h

theorem closed_map {β : Type} {f : β → α} {items : List β} :
    Closed R (items.map f) ↔ Closed (fun a b => R (f a) (f b)) items := by
  rw [Closed, ← List.map_take, ← List.map_append, List.isChain_map, Closed]

/-- Where a rank falls from item to item, no item is reached again. -/
theorem Closed.eq_nil_of_rank {rank : α → Nat} {items : List α}
    (h : Closed (fun a b => rank b < rank a) items) : items = [] := by
  cases items with
  | nil => rfl
  | cons first rest =>
    let falls (a b : α) : Prop := rank b < rank a
    have : Trans falls falls falls := ⟨fun hab hbc => Nat.lt_trans hbc hab⟩
    have hchain : (first :: (rest ++ [first])).IsChain falls := h
    have hfirst := (List.pairwise_cons.mp (List.isChain_iff_pairwise.mp hchain)).1 first (by simp)
    exact absurd hfirst (Nat.lt_irrefl _)

end Closed

/-! ## The smallest name first -/

theorem foldl_smallest (names : List String) (first : String) :
    names.foldl (fun a b => if b < a then b else a) first ∈ first :: names ∧
      ∀ name ∈ first :: names, names.foldl (fun a b => if b < a then b else a) first ≤ name := by
  induction names generalizing first with
  | nil => simp
  | cons next rest ih =>
    obtain ⟨hmem, hle⟩ := ih (if next < first then next else first)
    rw [List.foldl_cons]
    by_cases hlt : next < first
    · rw [if_pos hlt] at hmem hle ⊢
      refine ⟨List.mem_cons_of_mem _ hmem, fun name hname => ?_⟩
      rcases List.mem_cons.mp hname with rfl | hname
      · exact le_trans (hle next List.mem_cons_self) hlt.le
      · exact hle name hname
    · rw [if_neg hlt] at hmem hle ⊢
      refine ⟨?_, fun name hname => ?_⟩
      · rcases List.mem_cons.mp hmem with heq | hmem
        · rw [heq]
          exact List.mem_cons_self
        · exact List.mem_cons_of_mem _ (List.mem_cons_of_mem _ hmem)
      · rcases List.mem_cons.mp hname with rfl | hname
        · exact hle name List.mem_cons_self
        · rcases List.mem_cons.mp hname with rfl | hname
          · exact le_trans (hle first List.mem_cons_self) (not_lt.mp hlt)
          · exact hle name (List.mem_cons_of_mem _ hname)

/-- What is left from a name on starts with a step of that name. -/
theorem exists_dropWhile_name {steps : List Step} {name : String}
    (h : name ∈ steps.map (·.name)) :
    ∃ first rest, steps.dropWhile (·.name != name) = first :: rest ∧ first.name = name := by
  cases hrest : steps.dropWhile (·.name != name) with
  | nil =>
    obtain ⟨step, hstep, hname⟩ := List.mem_map.mp h
    have hdropped := List.dropWhile_eq_nil_iff.mp hrest step hstep
    simp [hname] at hdropped
  | cons first rest =>
    refine ⟨first, rest, rfl, ?_⟩
    have hstays := List.head_dropWhile_not (·.name != name) (l := steps)
      (by rw [hrest]; exact List.cons_ne_nil _ _)
    simpa [hrest] using hstays

/-- A circle is turned so that a step with the smallest name comes first. -/
theorem rotateToSmallest_turns {steps : List Step} (h : steps ≠ []) :
    ∃ before first after, steps = before ++ first :: after ∧
      rotateToSmallest steps = first :: after ++ before ∧
      ∀ step ∈ steps, first.name ≤ step.name := by
  cases steps with
  | nil => exact absurd rfl h
  | cons head tail =>
    obtain ⟨hmem, hle⟩ := foldl_smallest (tail.map (·.name)) head.name
    rw [show head.name :: tail.map (·.name) = (head :: tail).map (·.name) from rfl] at hmem hle
    simp only [rotateToSmallest, List.map_cons, List.span_eq_takeWhile_dropWhile]
    generalize (tail.map (·.name)).foldl (fun a b => if b < a then b else a) head.name = least
      at hmem hle ⊢
    obtain ⟨first, after, hback, hfirst⟩ := exists_dropWhile_name hmem
    rw [hback]
    refine ⟨(head :: tail).takeWhile (·.name != least), first, after, ?_, rfl, fun step hstep => ?_⟩
    · rw [← hback, List.takeWhile_append_dropWhile]
    · exact hfirst ▸ hle step.name (List.mem_map_of_mem hstep)

theorem mem_rotateToSmallest {steps : List Step} {step : Step} :
    step ∈ rotateToSmallest steps ↔ step ∈ steps := by
  by_cases h : steps = []
  · rw [h]
    rfl
  · obtain ⟨before, first, after, hsteps, hturned, -⟩ := rotateToSmallest_turns h
    rw [hturned, hsteps, List.mem_append, List.mem_append, or_comm]

/-! ## Keys -/

namespace Cycle

/-- The names on a circle. -/
def names (c : Cycle) : List String := c.steps.map (·.name)

theorem mem_names_ofSteps {steps : List Step} {name : String} :
    name ∈ (ofSteps steps).names ↔ name ∈ steps.map (·.name) := by
  simp only [names, ofSteps, List.mem_map, mem_rotateToSmallest]

theorem mem_key_ofSteps {steps : List Step} {name : String} :
    name ∈ (ofSteps steps).key ↔ name ∈ (ofSteps steps).names := by
  rw [ofSteps, List.mem_eraseDups, List.mem_mergeSort, names]

theorem pairwise_key_ofSteps (steps : List Step) : (ofSteps steps).key.Pairwise (· ≤ ·) := by
  have hsorted := List.pairwise_mergeSort' (· ≤ ·) ((rotateToSmallest steps).map (·.name))
  exact hsorted.sublist (eraseDups_sublist _)

/-- Circles with one key are those with the same names. -/
theorem key_ofSteps_eq_iff {xs ys : List Step} :
    (ofSteps xs).key = (ofSteps ys).key ↔
      ∀ name, name ∈ (ofSteps xs).names ↔ name ∈ (ofSteps ys).names := by
  simp only [← mem_key_ofSteps]
  constructor
  · intro h name
    rw [h]
  · intro h
    have hperm : ((ofSteps xs).key).Perm (ofSteps ys).key :=
      (List.perm_ext_iff_of_nodup (nodup_eraseDups _) (nodup_eraseDups _)).mpr h
    exact hperm.eq_of_pairwise (fun a b _ _ => le_antisymm) (pairwise_key_ofSteps xs)
      (pairwise_key_ofSteps ys)

end Cycle

theorem compareNames_eq : compareNames = List.compareLex compare := by
  funext a b
  induction a generalizing b with
  | nil => cases b <;> rfl
  | cons x as ih =>
    cases b with
    | nil => rfl
    | cons y bs => rw [compareNames, ih, List.compareLex_cons_cons]

instance : Std.TransCmp compareNames := compareNames_eq ▸ inferInstance

instance : Std.LawfulEqCmp compareNames := compareNames_eq ▸ inferInstance

/-! ## Circles that are kept -/

namespace Cycle

variable {c d : Cycle} {cycles : List Cycle}

theorem mem_insert (h : d ∈ c.insert cycles) : d = c ∨ d ∈ cycles := by
  induction cycles with
  | nil => exact Or.inl (List.mem_singleton.mp h)
  | cons first rest ih =>
    rw [insert] at h
    split at h
    · exact List.mem_cons.mp h
    · exact Or.inr h
    · rcases List.mem_cons.mp h with rfl | h
      · exact Or.inr List.mem_cons_self
      · exact (ih h).imp_right (List.mem_cons_of_mem _)

theorem subset_insert (c : Cycle) (cycles : List Cycle) : cycles ⊆ c.insert cycles := by
  induction cycles with
  | nil => exact List.nil_subset _
  | cons first rest ih =>
    rw [insert]
    split
    · exact List.subset_cons_self _ _
    · exact List.Subset.refl _
    · exact List.cons_subset_cons _ ih

/-- A circle of the same names is kept. -/
theorem exists_key_insert (c : Cycle) (cycles : List Cycle) :
    ∃ d ∈ c.insert cycles, d.key = c.key := by
  induction cycles with
  | nil => exact ⟨c, List.mem_singleton_self c, rfl⟩
  | cons first rest ih =>
    rw [insert]
    split
    · exact ⟨c, List.mem_cons_self, rfl⟩
    · rename_i heq
      exact ⟨first, List.mem_cons_self, (Std.LawfulEqCmp.eq_of_compare heq).symm⟩
    · obtain ⟨d, hd, hkey⟩ := ih
      exact ⟨d, List.mem_cons_of_mem _ hd, hkey⟩

/-- Keys ascend, so no two circles have the same one. -/
def Ascending (cycles : List Cycle) : Prop :=
  cycles.Pairwise fun c d => compareNames c.key d.key = .lt

theorem Ascending.insert (h : Ascending cycles) (c : Cycle) : Ascending (c.insert cycles) := by
  induction cycles with
  | nil => exact List.pairwise_singleton _ _
  | cons first rest ih =>
    obtain ⟨hfirst, hrest⟩ := List.pairwise_cons.mp h
    rw [Cycle.insert]
    split
    · rename_i hlt
      refine List.pairwise_cons.mpr ⟨fun d hd => ?_, h⟩
      rcases List.mem_cons.mp hd with rfl | hd
      · exact hlt
      · exact Std.TransCmp.lt_trans hlt (hfirst d hd)
    · exact h
    · rename_i hgt
      refine List.pairwise_cons.mpr ⟨fun d hd => ?_, ih hrest⟩
      rcases mem_insert hd with rfl | hd
      · exact Std.OrientedCmp.lt_of_gt hgt
      · exact hfirst d hd

theorem Ascending.key_ne (h : Ascending cycles) : cycles.Pairwise fun c d => c.key ≠ d.key := by
  refine h.imp fun {c d} hlt heq => ?_
  have hself : compareNames d.key d.key = .eq := Std.ReflCmp.compare_self
  rw [heq, hself] at hlt
  cases hlt

end Cycle

end SchemaCompiler.GraphQL

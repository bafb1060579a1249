import Mathlib.Algebra.BigOperators.Group.List.Basic
import Mathlib.Algebra.GroupWithZero.Nat
import Mathlib.Data.List.Forall2
import Mathlib.Data.List.Nodup
import Mathlib.Data.List.Pairwise
import Mathlib.Data.Set.Subsingleton

/-!
# Lists side by side and in groups

Two lists that correspond item by item, lists whose items are replaced, and lists that are taken apart
by a key.
-/

namespace SchemaCompiler

variable {α β : Type}

/-! ## Corresponding lists -/

section Corresponding

variable {R : α → β → Prop} {xs : List α} {ys : List β}

theorem exists_of_forall₂ (h : List.Forall₂ R xs ys) {x : α} (hx : x ∈ xs) : ∃ y ∈ ys, R x y := by
  induction h with
  | nil => cases hx
  | cons hfirst _ ih =>
    rcases List.mem_cons.mp hx with rfl | hx
    · exact ⟨_, List.mem_cons_self, hfirst⟩
    · obtain ⟨y, hy, hrelated⟩ := ih hx
      exact ⟨y, List.mem_cons_of_mem _ hy, hrelated⟩

theorem forall₂_snoc (h : List.Forall₂ R xs ys) {x : α} {y : β} (hxy : R x y) :
    List.Forall₂ R (xs ++ [x]) (ys ++ [y]) :=
  List.rel_append h (.cons hxy .nil)

theorem map_eq_map_of_forall₂ {γ : Type} {f : α → γ} {g : β → γ} (h : List.Forall₂ R xs ys)
    (hsame : ∀ x y, R x y → f x = g y) : xs.map f = ys.map g := by
  induction h with
  | nil => rfl
  | cons hfirst _ ih => rw [List.map_cons, List.map_cons, hsame _ _ hfirst, ih]

/-- Partners belong together exactly where a condition on the first of them holds. -/
theorem forall₂_iff_forall {P : α → Prop} (h : List.Forall₂ (fun x y => R x y ↔ P x) xs ys) :
    List.Forall₂ R xs ys ↔ ∀ x ∈ xs, P x := by
  induction h with
  | nil => simp
  | cons hfirst _ ih => rw [List.forall₂_cons, List.forall_mem_cons, hfirst, ih]

/-- Where every item can be read, all can, each as what it is read as. -/
theorem exists_mapM {f : α → Option β} (h : ∀ x ∈ xs, ∃ y, f x = some y ∧ R x y) :
    ∃ ys, xs.mapM f = some ys ∧ List.Forall₂ R xs ys := by
  induction xs with
  | nil => exact ⟨[], rfl, .nil⟩
  | cons x xs ih =>
    obtain ⟨y, hy, hxy⟩ := h x List.mem_cons_self
    obtain ⟨ys, hys, hrest⟩ := ih fun other hother => h other (List.mem_cons_of_mem _ hother)
    exact ⟨y :: ys, by simp [List.mapM_cons, hy, hys], .cons hxy hrest⟩

end Corresponding

/-! ## Groups -/

/-- The first item stays, and the ones like it go. -/
theorem eraseDups_induction [BEq α] {motive : List α → List α → Prop} (nil : motive [] [])
    (cons : ∀ first rest, motive (rest.filter fun b => !b == first)
      (rest.filter fun b => !b == first).eraseDups →
        motive (first :: rest) (first :: (rest.filter fun b => !b == first).eraseDups))
    (items : List α) : motive items items.eraseDups := by
  induction hlength : items.length using Nat.strongRecOn generalizing items with
  | ind n ih =>
    cases items with
    | nil => exact nil
    | cons first rest =>
      rw [List.eraseDups_cons]
      have hshorter := List.length_filter_le (fun b => !b == first) rest
      refine cons first rest (ih _ ?_ _ rfl)
      rw [← hlength, List.length_cons]
      omega

theorem eraseDups_sublist [BEq α] (items : List α) :
    items.eraseDups.Sublist items := by
  induction items using eraseDups_induction with
  | nil => exact List.Sublist.slnil
  | cons first rest ih => exact (ih.trans List.filter_sublist).cons_cons first

theorem mem_of_mem_eraseDups [BEq α] {items : List α} {a : α} (h : a ∈ items.eraseDups) :
    a ∈ items :=
  (eraseDups_sublist items).subset h

theorem exists_mem_eraseDups [BEq α] [EquivBEq α] {items : List α} {a : α} (h : a ∈ items) :
    ∃ b ∈ items.eraseDups, (a == b) = true := by
  induction items using eraseDups_induction with
  | nil => cases h
  | cons first rest ih =>
    by_cases hfirst : (a == first) = true
    · exact ⟨first, List.mem_cons_self, hfirst⟩
    · rcases List.mem_cons.mp h with rfl | h
      · exact absurd BEq.rfl hfirst
      · obtain ⟨b, hb, hsame⟩ := ih (List.mem_filter.mpr ⟨h, by simp [hfirst]⟩)
        exact ⟨b, List.mem_cons_of_mem _ hb, hsame⟩

theorem pairwise_eraseDups [BEq α] (items : List α) :
    items.eraseDups.Pairwise fun a b => ¬ (b == a) = true := by
  induction items using eraseDups_induction with
  | nil => exact .nil
  | cons first rest ih =>
    refine List.pairwise_cons.mpr ⟨fun b hb => ?_, ih⟩
    have hkept := (List.mem_filter.mp (mem_of_mem_eraseDups hb)).2
    simpa using hkept

theorem nodup_eraseDups [BEq α] [LawfulBEq α] (items : List α) : items.eraseDups.Nodup :=
  (pairwise_eraseDups items).imp fun h heq => h (by simp [heq])

theorem sum_map_ite_eq [DecidableEq β] {keys : List β} (hnodup : keys.Nodup) (b : β) :
    (keys.map fun other => if b = other then 1 else 0).sum = if b ∈ keys then 1 else 0 := by
  induction keys with
  | nil => simp
  | cons first rest ih =>
    obtain ⟨hnew, hrest⟩ := List.nodup_cons.mp hnodup
    by_cases hfirst : b = first
    · subst hfirst
      simp [hnew, ih hrest]
    · simp [hfirst, ih hrest]

theorem eraseDups_snoc [DecidableEq α] (items : List α) (a : α) :
    (items ++ [a]).eraseDups =
      if a ∈ items then items.eraseDups else items.eraseDups ++ [a] := by
  rw [List.eraseDups_append]
  by_cases h : a ∈ items <;> simp [List.removeAll, h, List.eraseDups_cons]

/-- Groups by key hold each item that has a key once. -/
theorem sum_length_groups [DecidableEq β] (key : α → Option β) {keys : List β}
    (hnodup : keys.Nodup) (items : List α)
    (hkeys : ∀ a ∈ items, ∀ b, key a = some b → b ∈ keys) :
    (keys.map fun b => (items.filter (key · = some b)).length).sum =
      (items.filter fun a => (key a).isSome).length := by
  induction items with
  | nil => simp
  | cons a rest ih =>
    have hrest := ih fun x hx => hkeys x (List.mem_cons_of_mem _ hx)
    cases hkey : key a with
    | none => simpa [hkey] using hrest
    | some b =>
      have hone := sum_map_ite_eq hnodup b
      rw [if_pos (hkeys a List.mem_cons_self b hkey)] at hone
      have hsplit : ∀ other, ((a :: rest).filter (key · = some other)).length =
          (if b = other then 1 else 0) + (rest.filter (key · = some other)).length := by
        intro other
        by_cases heq : b = other <;> simp [hkey, heq, Nat.add_comm]
      simp only [hsplit, List.sum_map_add, hone, hrest]
      simp [hkey, Nat.add_comm]

/-! ## Items that are new -/

section New

variable {same : α → α → Bool}

/-- Adds an item unless one that is the same is there. -/
def addNew (same : α → α → Bool) (done : List α) (a : α) : List α :=
  if done.any (same · a) then done else done ++ [a]

theorem foldl_addNew_sublist (items done : List α) :
    (items.foldl (addNew same) done).Sublist (done ++ items) := by
  induction items generalizing done with
  | nil => rw [List.foldl_nil, List.append_nil]
  | cons first rest ih =>
    refine (ih _).trans ?_
    unfold addNew
    split
    · exact (List.sublist_cons_self first rest).append_left done
    · rw [List.append_assoc, List.singleton_append]

theorem subset_foldl_addNew (items done : List α) : done ⊆ items.foldl (addNew same) done := by
  induction items generalizing done with
  | nil => exact List.Subset.refl _
  | cons first rest ih =>
    refine List.Subset.trans ?_ (ih _)
    unfold addNew
    split
    · exact List.Subset.refl _
    · exact List.subset_append_left _ _

/-- Each item is there in the end, or one that is the same. -/
theorem exists_mem_foldl_addNew (same : α → α → Bool) (hself : ∀ a, same a a = true)
    {items done : List α} {a : α} (h : a ∈ items) :
    ∃ b ∈ items.foldl (addNew same) done, same b a = true := by
  induction items generalizing done with
  | nil => cases h
  | cons first rest ih =>
    rcases List.mem_cons.mp h with rfl | hrest
    · have hadded : ∃ b ∈ addNew same done a, same b a = true := by
        unfold addNew
        split
        · rename_i hany
          exact List.any_eq_true.mp hany
        · exact ⟨a, List.mem_append_right _ (List.mem_singleton_self a), hself a⟩
      obtain ⟨b, hb, hsame⟩ := hadded
      exact ⟨b, subset_foldl_addNew rest _ hb, hsame⟩
    · exact ih hrest

theorem addNew_of_forall {done : List α} {a : α} (h : ∀ b ∈ done, same b a = false) :
    addNew same done a = done ++ [a] := by
  have hnone : ¬ done.any (same · a) = true := by
    rw [List.any_eq_true]
    rintro ⟨b, hb, hsame⟩
    rw [h b hb] at hsame
    cases hsame
  rw [addNew, if_neg hnone]

/-- No item that is kept is the same as an earlier one. -/
theorem pairwise_foldl_addNew (items : List α) {done : List α}
    (h : done.Pairwise fun a b => same a b = false) :
    (items.foldl (addNew same) done).Pairwise fun a b => same a b = false := by
  induction items generalizing done with
  | nil => exact h
  | cons first rest ih =>
    apply ih
    by_cases hany : done.any (same · first) = true
    · rwa [addNew, if_pos hany]
    · have hnew : ∀ b ∈ done, same b first = false := by simpa using hany
      rw [addNew_of_forall hnew]
      exact List.pairwise_append.mpr ⟨h, List.pairwise_singleton _ _, by simpa using hnew⟩

/-- Where no item is the same as an earlier one, all are kept. -/
theorem foldl_addNew_of_pairwise {items done : List α}
    (h : (done ++ items).Pairwise fun a b => same a b = false) :
    items.foldl (addNew same) done = done ++ items := by
  induction items generalizing done with
  | nil => rw [List.foldl_nil, List.append_nil]
  | cons first rest ih =>
    have hnew : ∀ b ∈ done, same b first = false := fun b hb =>
      (List.pairwise_append.mp h).2.2 b hb first List.mem_cons_self
    rw [List.append_cons] at h
    rw [List.foldl_cons, addNew_of_forall hnew, ih h, ← List.append_cons]

theorem foldl_addNew_eq_nil_iff {items : List α} :
    items.foldl (addNew same) [] = [] ↔ items = [] := by
  constructor
  · intro h
    cases items with
    | nil => rfl
    | cons first rest =>
      have hkept : first ∈ rest.foldl (addNew same) [first] :=
        subset_foldl_addNew rest [first] List.mem_cons_self
      rw [List.foldl_cons, show addNew same [] first = [first] from rfl] at h
      rw [h] at hkept
      cases hkept
  · rintro rfl
    rfl

/-- Where items that are the same are of one kind, those of a kind do not depend on the others. -/
theorem filter_foldl_addNew {kind : α → Bool} (hkind : ∀ a b, same a b = true → kind a = kind b)
    (items done : List α) :
    (items.foldl (addNew same) done).filter kind =
      (items.filter kind).foldl (addNew same) (done.filter kind) := by
  induction items generalizing done with
  | nil => rfl
  | cons first rest ih =>
    rw [List.foldl_cons, ih, List.filter_cons]
    by_cases hfirst : kind first = true
    · have hany : (done.filter kind).any (same · first) = done.any (same · first) := by
        rw [Bool.eq_iff_iff, List.any_eq_true, List.any_eq_true]
        constructor
        · rintro ⟨b, hb, hsame⟩
          exact ⟨b, List.mem_of_mem_filter hb, hsame⟩
        · rintro ⟨b, hb, hsame⟩
          exact ⟨b, List.mem_filter.mpr ⟨hb, (hkind b first hsame).trans hfirst⟩, hsame⟩
      rw [if_pos hfirst, List.foldl_cons, addNew, addNew, hany]
      split
      · rfl
      · rw [List.filter_append, List.filter_cons, if_pos hfirst, List.filter_nil]
    · rw [if_neg hfirst, addNew]
      split
      · rfl
      · rw [List.filter_append, List.filter_cons, if_neg hfirst, List.filter_nil, List.append_nil]

/-- Where items that are the same are of one kind, the first of a kind is not left out. -/
theorem find?_foldl_addNew {kind : α → Bool} (hkind : ∀ a b, same a b = true → kind a = kind b)
    (items done : List α) :
    (items.foldl (addNew same) done).find? kind = (done ++ items).find? kind := by
  induction items generalizing done with
  | nil => rw [List.foldl_nil, List.append_nil]
  | cons first rest ih =>
    rw [List.foldl_cons, ih]
    unfold addNew
    split
    · rename_i hany
      obtain ⟨b, hb, hsame⟩ := List.any_eq_true.mp hany
      rw [List.find?_append, List.find?_append, List.find?_cons]
      split
      · rename_i hfirst
        obtain ⟨found, hfound⟩ : ∃ found, done.find? kind = some found :=
          Option.isSome_iff_exists.mp
            (List.find?_isSome.mpr ⟨b, hb, (hkind b first hsame).trans hfirst⟩)
        rw [hfound, Option.some_or, Option.some_or]
      · rfl
    · rw [List.append_assoc, List.singleton_append]

end New

/-! ## Items replaced -/

theorem map_eq_self_iff {f : α → α} {items : List α} :
    items.map f = items ↔ ∀ a ∈ items, f a = a := by
  refine Iff.trans ?_ List.map_inj_left
  rw [List.map_id' items]

/-- Items that are replaced by at least one item each stay only when each is replaced by itself. -/
theorem flatMap_eq_self_iff {f : α → List α} (hf : ∀ a, f a ≠ []) (items : List α) :
    items.flatMap f = items ↔ ∀ a ∈ items, f a = [a] := by
  have hlength (items : List α) : items.length ≤ (items.flatMap f).length := by
    induction items with
    | nil => simp
    | cons a items ih =>
      have ha := List.length_pos_iff.mpr (hf a)
      rw [List.flatMap_cons, List.length_append, List.length_cons]
      omega
  induction items with
  | nil => simp
  | cons a items ih =>
    simp only [List.flatMap_cons, List.forall_mem_cons, ← ih]
    constructor
    · intro h
      have hlengths := congrArg List.length h
      rw [List.length_append, List.length_cons] at hlengths
      have hitems := hlength items
      have ha := List.length_pos_iff.mpr (hf a)
      exact List.append_inj (h.trans List.singleton_append.symm) (by simp; omega)
    · rintro ⟨ha, hitems⟩
      rw [ha, hitems, List.singleton_append]

theorem intercalate_cons (sep first : List α) (more : List (List α)) :
    sep.intercalate (first :: more) = first ++ more.flatMap (sep ++ ·) := by
  induction more generalizing first with
  | nil => simp
  | cons next more ih =>
    rw [List.intercalate_cons_cons, ih, List.flatMap_cons]
    simp only [List.append_assoc]

/-! ## Keys -/

theorem one_lt_length_iff_nontrivial {items : List α} (h : items.Nodup) :
    1 < items.length ↔ {a | a ∈ items}.Nontrivial := by
  match items with
  | [] => simp
  | [a] => simp
  | a :: b :: rest =>
    have hne : a ≠ b := List.ne_of_not_mem_cons (List.nodup_cons.mp h).1
    exact iff_of_true (by simp) ⟨a, by simp, b, by simp, hne⟩

/-- Where no key stands twice, a key selects one item. -/
theorem filter_key_eq_singleton [BEq β] [EquivBEq β] {key : α → β} {items : List α}
    (h : items.Pairwise fun a b => ¬ (key a == key b) = true) {a : α} (ha : a ∈ items) {b : β}
    (hb : (key a == b) = true) : items.filter (key · == b) = [a] := by
  induction items with
  | nil => cases ha
  | cons first rest ih =>
    obtain ⟨hfirst, hrest⟩ := List.pairwise_cons.mp h
    rcases List.mem_cons.mp ha with rfl | ha
    · have hnone : rest.filter (key · == b) = [] := by
        refine List.filter_eq_nil_iff.mpr fun other hother hsame => ?_
        exact hfirst other hother (BEq.trans hb (BEq.symm hsame))
      rw [List.filter_cons, if_pos hb, hnone]
    · have hno : ¬ (key first == b) = true := fun hsame =>
        hfirst a ha (BEq.trans hsame (BEq.symm hb))
      rw [List.filter_cons, if_neg hno, ih hrest ha]

/-- What is in the parts of two items is in the parts of one, when no part repeats anything. -/
theorem eq_of_nodup_flatMap {f : α → List β} {items : List α} (h : (items.flatMap f).Nodup)
    {a b : α} (ha : a ∈ items) (hb : b ∈ items) {x : β} (hxa : x ∈ f a) (hxb : x ∈ f b) :
    a = b := by
  have hsymm : Std.Symm (Function.onFun List.Disjoint f) := ⟨fun _ _ => List.disjoint_symm⟩
  by_contra hne
  exact (List.nodup_flatMap.mp h).2.forall ha hb hne hxa hxb

end SchemaCompiler

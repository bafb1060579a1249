import Mathlib.Data.List.Sort
import Mathlib.Data.String.Basic
import SchemaCompiler.Proofs.ScalarCompleteness

/-!
# The order of bindings

Where no binding repeats another one of its scalar, a group holds all bindings of its scalar, in the
order in which they come. What is collected of a group does not depend on that order: descriptions
are sorted by their places, faults are found by counting, and a complete scalar has one input type
only. Output types may come in another order.
-/

namespace SchemaCompiler

open Std

/-! ## Descriptions -/

/-- Lists with the same items read the same once they are sorted, when the items that the order does
not tell apart read the same. -/
theorem map_mergeSort_congr {α β : Type} {cmp : α → α → Ordering} [TransCmp cmp] {key : α → β}
    (hkey : ∀ a b, cmp a b = .eq ↔ key a = key b) {items items' : List α}
    (hperm : items.Perm items') :
    (items.mergeSort fun a b => (cmp a b).isLE).map key =
      (items'.mergeSort fun a b => (cmp a b).isLE).map key := by
  have hsorted : ∀ list : List α,
      ((list.mergeSort fun a b => (cmp a b).isLE).map key).Pairwise fun x y =>
        ∃ a b, key a = x ∧ key b = y ∧ (cmp a b).isLE = true := by
    intro list
    rw [List.pairwise_map]
    refine (List.pairwise_mergeSort ?_ ?_ list).imp fun h => ⟨_, _, rfl, rfl, h⟩
    · exact fun _ _ _ => TransCmp.isLE_trans
    · intro a b
      have hswap : cmp b a = (cmp a b).swap := OrientedCmp.eq_swap
      rw [hswap]
      cases cmp a b <;> rfl
  have hitems : (items.mergeSort fun a b => (cmp a b).isLE).Perm
      (items'.mergeSort fun a b => (cmp a b).isLE) :=
    (List.mergeSort_perm _ _).trans (hperm.trans (List.mergeSort_perm _ _).symm)
  refine (hitems.map key).eq_of_pairwise ?_ (hsorted items) (hsorted items')
  rintro _ _ - - ⟨a, b, rfl, rfl, hab⟩ ⟨b', a', hb, ha, hba⟩
  have hb' : (cmp b b').isLE = true := by rw [(hkey b b').mpr hb.symm]; rfl
  have ha' : (cmp a' a).isLE = true := by rw [(hkey a' a).mpr ha]; rfl
  have hback : (cmp b a).isLE = true := TransCmp.isLE_trans hb' (TransCmp.isLE_trans hba ha')
  exact (hkey a b).mp (OrientedCmp.isLE_antisymm hab hback)

namespace ScalarGroup

namespace Described

def place (d : Described) : Option (List Component) := d.file.map Path.components

/-- What descriptions are sorted by. -/
def key (d : Described) : Option (List Component) × Nat × String := (d.place, d.line, d.text)

def order : Described → Described → Ordering :=
  compareLex (compareOn place) (compareLex (compareOn line) (compareOn text))

theorem compareFiles_eq (a b : Option Path) :
    compareFiles a b = compare (a.map Path.components) (b.map Path.components) := by
  cases a with
  | none => cases b <;> rfl
  | some a =>
    cases b with
    | none => rfl
    | some b =>
      rw [compareFiles, Path.compare_eq_compareOn]
      rfl

theorem before_eq : before = fun a b => (order a b).isLE := by
  funext a b
  rw [before, compareFiles_eq]
  rfl

theorem order_eq_iff (a b : Described) : order a b = .eq ↔ a.key = b.key := by
  simp only [order, compareLex_eq_eq, compareOn, Std.compare_eq_iff_eq, key, Prod.mk.injEq]

instance : TransCmp order := inferInstanceAs (TransCmp (compareLex _ _))

end Described

/-- A group with its bindings in another order. -/
structure Reorders (g g' : ScalarGroup) : Prop where
  name : g.name = g'.name
  bindings : g.bindings.Perm g'.bindings

section Reorders

variable {g g' : ScalarGroup} (h : g.Reorders g')

include h

theorem Reorders.description_eq : g.description = g'.description := by
  have hkeys := map_mergeSort_congr Described.order_eq_iff
    (h.bindings.filterMap Described.ofBinding?)
  have htexts :
      ((g.bindings.filterMap Described.ofBinding?).mergeSort Described.before).map (·.text) =
        ((g'.bindings.filterMap Described.ofBinding?).mergeSort Described.before).map (·.text) := by
    rw [Described.before_eq]
    simpa [Function.comp_def, Described.key] using congrArg (List.map fun key => key.2.2) hkeys
  simp only [description, htexts]

theorem Reorders.on (side : Side) : (g.on side).Perm (g'.on side) := h.bindings.filter _

theorem Reorders.faults_eq : g.faults = g'.faults := by
  have hlength : g.inputs.length = g'.inputs.length := by
    rw [inputs_eq, inputs_eq, (h.on .input).length_eq]
  have hinputs : g.inputs.isEmpty = g'.inputs.isEmpty := by
    rw [inputs_eq, inputs_eq, (h.on .input).isEmpty_eq]
  have houtputs : g.outputTypes.isEmpty = g'.outputTypes.isEmpty := by
    rw [Bool.eq_iff_iff, List.isEmpty_iff, List.isEmpty_iff, outputTypes_eq_nil_iff,
      outputTypes_eq_nil_iff, ← List.isEmpty_iff, (h.on .output).isEmpty_eq, List.isEmpty_iff]
  rw [faults, faults, hlength, hinputs, houtputs]

/-- The output types are the same ones. -/
theorem Reorders.exists_outputType (t : ScalarTypeRef) :
    (∃ u ∈ g.outputTypes, (t == u) = true) → ∃ u ∈ g'.outputTypes, (t == u) = true := by
  rintro ⟨u, hu, ht⟩
  obtain ⟨b, hb, rfl⟩ := exists_of_mem_outputTypes hu
  have hb' : ScalarTypeRef.ofBinding b ∈ (g'.on .output).map ScalarTypeRef.ofBinding :=
    List.mem_map_of_mem ((h.on .output).mem_iff.mp hb)
  obtain ⟨v, hv, hsame⟩ :=
    exists_mem_foldl_addNew (fun known t => t == known) (fun _ => BEq.rfl) hb'
  rw [outputTypes_eq_on]
  exact ⟨v, hv, BEq.trans ht hsame⟩

theorem Reorders.symm : g'.Reorders g := ⟨h.name.symm, h.bindings.symm⟩

end Reorders

/-! ## Groups of bindings that do not repeat one another -/

/-- The group of a scalar. -/
def ofName (bindings : List ScalarBinding) (name : String) : ScalarGroup :=
  ⟨name, distinct (bindings.filter (·.scalar == name))⟩

theorem ofBindings_eq_map (bindings : List ScalarBinding) :
    ofBindings bindings = ((ofBindings bindings).map (·.name)).map (ofName bindings) := by
  have heach : ∀ g ∈ ofBindings bindings, ofName bindings g.name = g := by
    intro g hg
    rw [ofName, ← (bindings_of_mem_ofBindings hg).2]
  rw [List.map_map]
  exact (List.map_id _).symm.trans (List.map_congr_left fun g hg => (heach g hg).symm)

theorem reorders_ofName {bindings bindings' : List ScalarBinding}
    (hdistinct : (bindings.map fun b => (b.scalar, b.key)).Nodup)
    (hperm : bindings.Perm bindings') (name : String) :
    (ofName bindings name).Reorders (ofName bindings' name) := by
  have hall : ∀ list : List ScalarBinding, (list.map fun b => (b.scalar, b.key)).Nodup →
      (ofName list name).bindings = list.filter (·.scalar == name) := by
    intro list hlist
    rw [List.nodup_iff_pairwise_ne, List.pairwise_map] at hlist
    refine foldl_addNew_of_pairwise ?_
    rw [List.nil_append, List.pairwise_filter]
    refine hlist.imp fun hne ha hb => ?_
    rw [ScalarBinding.repeats_eq_false_iff]
    rw [beq_iff_eq] at ha hb
    intro hkey
    exact hne (by rw [ha, hb, hkey])
  refine ⟨rfl, ?_⟩
  rw [hall bindings hdistinct, hall bindings' ((hperm.map _).nodup_iff.mp hdistinct)]
  exact hperm.filter _

theorem names_ofBindings_congr {bindings bindings' : List ScalarBinding}
    (hperm : bindings.Perm bindings') :
    (ofBindings bindings).map (·.name) = (ofBindings bindings').map (·.name) := by
  have hsame : ∀ name, name ∈ (ofBindings bindings).map (·.name) ↔
      name ∈ (ofBindings bindings').map (·.name) := by
    intro name
    rw [(entries_ofBindings bindings).2, (entries_ofBindings bindings').2, customNames, customNames]
    exact ((hperm.filter _).map _).mem_iff
  exact (pairwise_names_ofBindings bindings).eq_of_mem_iff (pairwise_names_ofBindings bindings')
    hsame

theorem forall₂_reorders {bindings bindings' : List ScalarBinding}
    (hdistinct : (bindings.map fun b => (b.scalar, b.key)).Nodup)
    (hperm : bindings.Perm bindings') :
    List.Forall₂ Reorders (ofBindings bindings) (ofBindings bindings') := by
  rw [ofBindings_eq_map bindings, ofBindings_eq_map bindings', ← names_ofBindings_congr hperm,
    List.forall₂_map_left_iff, List.forall₂_map_right_iff, List.forall₂_same]
  exact fun name _ => reorders_ofName hdistinct hperm name

end ScalarGroup

/-! ## What is collected -/

/-- Two definitions of a scalar that differ in the order of output types, and in the input type. -/
structure ScalarDefinition.Agrees (s s' : ScalarDefinition) : Prop where
  name : s.name = s'.name
  description : s.description = s'.description
  outputTypes : ∀ t, (∃ u ∈ s.outputTypes, (t == u) = true) ↔ ∃ u ∈ s'.outputTypes, (t == u) = true

structure ScalarsResult.Agrees (r r' : ScalarsResult) : Prop where
  success : r.success = r'.success
  scalars : List.Forall₂ ScalarDefinition.Agrees r.scalars r'.scalars
  inputTypes : r.success = true → r.scalars.map (·.inputType) = r'.scalars.map (·.inputType)
  faults : ∃ faults, List.Forall₂ ScalarFault.Reports faults r.diagnostics ∧
    List.Forall₂ ScalarFault.Reports faults r'.diagnostics

section Agrees

variable {bindings bindings' : List ScalarBinding}

theorem scalarFaults_congr
    (h : List.Forall₂ ScalarGroup.Reorders (ScalarGroup.ofBindings bindings)
      (ScalarGroup.ofBindings bindings')) :
    scalarFaults bindings = scalarFaults bindings' := by
  rw [scalarFaults, scalarFaults, List.flatMap_def, List.flatMap_def]
  refine congrArg List.flatten (map_eq_map_of_forall₂ h fun g g' hreorders => ?_)
  rw [hreorders.name, hreorders.faults_eq]

/-- A scalar with one binding for input has the same one in every order. -/
theorem ScalarGroup.Reorders.inputType_eq {g g' : ScalarGroup} (h : g.Reorders g')
    (hsingle : ¬ 1 < (g.on .input).length) : g.definition.inputType = g'.definition.inputType := by
  have hon := h.on .input
  show g.inputs.head?.map _ = g'.inputs.head?.map _
  rw [inputs_eq, inputs_eq]
  match hfound : g.on .input with
  | [] => rw [hfound, List.nil_perm] at hon; rw [hon]
  | [b] => rw [hfound, List.singleton_perm] at hon; rw [← hon]
  | _ :: _ :: _ => simp [hfound] at hsingle

theorem ScalarGroup.Reorders.agrees {g g' : ScalarGroup} (h : g.Reorders g') :
    g.definition.Agrees g'.definition where
  name := h.name
  description := h.description_eq
  outputTypes t := ⟨h.exists_outputType t, h.symm.exists_outputType t⟩

/-- Where no binding repeats another one of its scalar, another order of bindings changes nothing
but the order of output types, the input types of scalars that have several, and the places and the
types that errors mention. -/
theorem collectScalars_agrees_of_perm
    (hdistinct : (bindings.map fun b => (b.scalar, b.key)).Nodup)
    (hperm : bindings.Perm bindings') :
    (collectScalars bindings).Agrees (collectScalars bindings') := by
  have hgroups := ScalarGroup.forall₂_reorders hdistinct hperm
  have hfaults := scalarFaults_congr hgroups
  refine ⟨?_, ?_, ?_, ?_⟩
  · rw [Bool.eq_iff_iff, success_iff_faults, success_iff_faults, hfaults]
  · show List.Forall₂ _ (List.map _ _) (List.map _ _)
    rw [List.forall₂_map_left_iff, List.forall₂_map_right_iff]
    exact hgroups.imp fun _ _ h => h.agrees
  · intro hsuccess
    have hmem : ∀ g ∈ ScalarGroup.ofBindings bindings, ¬ 1 < (g.on .input).length := by
      intro g hg hmany
      have hnone := completelyBound_iff.mp (completelyBound_of_success hsuccess hg) .manyInputs
      exact hnone ((ScalarGroup.one_lt_length_on_iff hg).mp hmany)
    show (List.map _ _).map _ = (List.map _ _).map _
    rw [List.map_map, List.map_map]
    exact map_eq_map_of_forall₂ ((List.forall₂_and_left _ _).mpr ⟨hmem, hgroups⟩)
      fun _ _ h => h.2.inputType_eq h.1
  · refine ⟨scalarFaults bindings, forall₂_diagnostics bindings, ?_⟩
    rw [hfaults]
    exact forall₂_diagnostics bindings'

end Agrees

/-- A configured type of a scalar. -/
def Sample.typeFor (scalar typeName : String) (only : Option Side) : ScalarBinding :=
  .ofMapping ⟨scalar, typeName, none, only, some ("As " ++ typeName ++ ".")⟩

/-- A scalar with a type for each side, and one with a type for both. -/
theorem collectScalars_agrees_swapped :
    let taken := Sample.typeFor "Day" "Date" (some .input)
    let given := Sample.typeFor "Day" "LocalDate" (some .output)
    let both := Sample.typeFor "Url" "URL" none
    (collectScalars [taken, given, both]).Agrees (collectScalars [both, given, taken]) :=
  collectScalars_agrees_of_perm
    (by simp [Sample.typeFor, ScalarBinding.key, ScalarBinding.ofMapping])
    (List.reverse_perm _).symm

end SchemaCompiler

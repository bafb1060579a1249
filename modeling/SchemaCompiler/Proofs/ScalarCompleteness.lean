import Mathlib.Data.List.Nodup
import SchemaCompiler.Proofs.Scalars

/-!
# Scalars that are complete

A scalar is complete when its bindings give it exactly one type to read input from and at least one
to write output to. Bindings that repeat one another count once, wherever they stand and whatever
describes them. A group of bindings holds one binding for each key, so what is wrong with a group is
what is wrong with the scalar, and each fault of each scalar is reported once.
-/

namespace SchemaCompiler

namespace ScalarBinding

/-- What tells the bindings of a scalar apart. -/
structure Key where
  typeName : String
  sourceFile : Option (List Component)
  importPath : Option String
  only : Option Side

def key (b : ScalarBinding) : Key :=
  ⟨b.typeName, b.sourceFile.map Path.components, b.importPath, b.only⟩

theorem repeats_iff_key {a b : ScalarBinding} : a.repeats b = true ↔ a.key = b.key := by
  rw [repeats_iff, Path.option_beq_iff, key, key, Key.mk.injEq]

theorem repeats_eq_false_iff {a b : ScalarBinding} : a.repeats b = false ↔ a.key ≠ b.key := by
  rw [← Bool.not_eq_true, repeats_iff_key]

/-- A binding gives a scalar a type on one side. -/
def Binds (b : ScalarBinding) (name : String) (side : Side) : Prop :=
  b.scalar = name ∧ admits b.only side = true

end ScalarBinding

/-- The bindings that a scalar has on one side, each counted once. -/
def keysOn (bindings : List ScalarBinding) (name : String) (side : Side) : Set ScalarBinding.Key :=
  {key | ∃ b ∈ bindings, b.Binds name side ∧ b.key = key}

/-- A scalar has exactly one binding that takes input, and one that gives output. -/
structure CompletelyBound (bindings : List ScalarBinding) (name : String) : Prop where
  input : ∃! key, key ∈ keysOn bindings name .input
  output : (keysOn bindings name .output).Nonempty

/-! ## Faults -/

/-- What can be wrong with the types of a scalar. -/
inductive ScalarFault where
  | manyInputs
  | noInput
  | noOutput
deriving DecidableEq

namespace ScalarFault

def Holds (bindings : List ScalarBinding) (name : String) : ScalarFault → Prop
  | manyInputs => (keysOn bindings name .input).Nontrivial
  | noInput => keysOn bindings name .input = ∅
  | noOutput => keysOn bindings name .output = ∅

def code : ScalarFault → Code
  | manyInputs => .multipleInputTypes
  | noInput => .missingInputType
  | noOutput => .missingOutputType

def text : ScalarFault → String
  | manyInputs => " has multiple input types: "
  | noInput => " has no input type"
  | noOutput => " has no output type"

/-- A diagnostic is the error that a scalar has a fault. -/
structure Reports (fault : String × ScalarFault) (d : Diagnostic) : Prop where
  code : d.code = fault.2.code
  severity : d.severity = .error
  message : ∃ types, d.message = ScalarGroup.quoted fault.1 ++ fault.2.text ++ types

end ScalarFault

/-- A scalar without faults is complete. -/
theorem completelyBound_iff {bindings : List ScalarBinding} {name : String} :
    CompletelyBound bindings name ↔ ∀ fault, ¬ ScalarFault.Holds bindings name fault := by
  constructor
  · rintro ⟨⟨key, hkey, hunique⟩, houtput⟩ fault hfault
    cases fault with
    | manyInputs =>
      obtain ⟨a, ha, b, hb, hne⟩ := hfault
      exact hne ((hunique a ha).trans (hunique b hb).symm)
    | noInput =>
      have hempty : keysOn bindings name .input = ∅ := hfault
      rw [hempty] at hkey
      exact hkey
    | noOutput => exact houtput.ne_empty hfault
  · intro h
    have hinput : (keysOn bindings name .input).Nonempty :=
      Set.nonempty_iff_ne_empty.mpr (h .noInput)
    have hsingle : (keysOn bindings name .input).Subsingleton :=
      Set.not_nontrivial_iff.mp (h .manyInputs)
    obtain ⟨key, hkey⟩ := hinput
    exact ⟨⟨key, hkey, fun other hother => hsingle hother hkey⟩,
      Set.nonempty_iff_ne_empty.mpr (h .noOutput)⟩

/-! ## Groups -/

namespace ScalarGroup

/-- The bindings of a group for one side. -/
def on (g : ScalarGroup) (side : Side) : List ScalarBinding :=
  g.bindings.filter fun b => admits b.only side

theorem inputs_eq (g : ScalarGroup) : g.inputs = g.on .input := by
  simp only [inputs, on, ScalarBinding.takesInput_eq]

theorem outputTypes_eq_on (g : ScalarGroup) :
    g.outputTypes = ((g.on .output).map ScalarTypeRef.ofBinding).foldl
      (addNew fun known t => t == known) [] := by
  simp only [outputTypes_eq, on, ScalarBinding.givesOutput_eq]

theorem outputTypes_eq_nil_iff {g : ScalarGroup} : g.outputTypes = [] ↔ g.on .output = [] := by
  rw [outputTypes_eq_on, foldl_addNew_eq_nil_iff, List.map_eq_nil_iff]

/-- No output type of a group is there twice. -/
theorem pairwise_outputTypes (g : ScalarGroup) :
    g.outputTypes.Pairwise fun t u => (u == t) = false := by
  rw [outputTypes_eq_on]
  exact pairwise_foldl_addNew _ List.Pairwise.nil

theorem exists_of_mem_outputTypes {g : ScalarGroup} {t : ScalarTypeRef} (h : t ∈ g.outputTypes) :
    ∃ b ∈ g.on .output, .ofBinding b = t := by
  rw [outputTypes_eq_on] at h
  exact List.mem_map.mp ((foldl_addNew_sublist _ []).subset h)

section OfBindings

variable {bindings : List ScalarBinding} {g : ScalarGroup} (hg : g ∈ ofBindings bindings)

include hg

theorem binds_of_mem_on {side : Side} {b : ScalarBinding} (hb : b ∈ g.on side) :
    b ∈ bindings ∧ b.Binds g.name side := by
  obtain ⟨hgroup, hside⟩ := List.mem_filter.mp hb
  obtain ⟨hmem, hscalar⟩ := mem_of_mem_group hg hgroup
  exact ⟨hmem, hscalar, hside⟩

/-- Each key of a scalar is there once. -/
theorem nodup_keys_on (side : Side) : ((g.on side).map ScalarBinding.key).Nodup := by
  have hgroup : g.bindings.Pairwise fun a b => a.repeats b = false := by
    rw [(bindings_of_mem_ofBindings hg).2]
    exact pairwise_foldl_addNew _ List.Pairwise.nil
  rw [List.nodup_iff_pairwise_ne, List.pairwise_map]
  exact (hgroup.filter _).imp ScalarBinding.repeats_eq_false_iff.mp

theorem mem_keys_on_iff {side : Side} {key : ScalarBinding.Key} :
    key ∈ (g.on side).map ScalarBinding.key ↔ key ∈ keysOn bindings g.name side := by
  constructor
  · intro h
    obtain ⟨b, hb, hkey⟩ := List.mem_map.mp h
    obtain ⟨hmem, hbinds⟩ := binds_of_mem_on hg hb
    exact ⟨b, hmem, hbinds, hkey⟩
  · rintro ⟨b, hb, ⟨hscalar, hside⟩, rfl⟩
    have hkept : ∃ c ∈ g.bindings, c.repeats b = true := by
      rw [(bindings_of_mem_ofBindings hg).2]
      refine exists_mem_foldl_addNew _ (fun a => ScalarBinding.repeats_iff_key.mpr rfl) ?_
      exact List.mem_filter.mpr ⟨hb, by simp [hscalar]⟩
    obtain ⟨c, hc, hrepeats⟩ := hkept
    have hkey : c.key = b.key := ScalarBinding.repeats_iff_key.mp hrepeats
    have honly : c.only = b.only := congrArg ScalarBinding.Key.only hkey
    refine List.mem_map.mpr ⟨c, List.mem_filter.mpr ⟨hc, ?_⟩, hkey⟩
    rwa [honly]

theorem on_eq_nil_iff {side : Side} : g.on side = [] ↔ keysOn bindings g.name side = ∅ := by
  rw [← List.map_eq_nil_iff (f := ScalarBinding.key), List.eq_nil_iff_forall_not_mem,
    Set.eq_empty_iff_forall_notMem]
  exact forall_congr' fun key => not_congr (mem_keys_on_iff hg)

theorem one_lt_length_on_iff {side : Side} :
    1 < (g.on side).length ↔ (keysOn bindings g.name side).Nontrivial := by
  have hkeys : keysOn bindings g.name side = {key | key ∈ (g.on side).map ScalarBinding.key} :=
    Set.ext fun key => (mem_keys_on_iff hg).symm
  have hnodup := nodup_keys_on hg side
  rw [hkeys, ← List.length_map ScalarBinding.key]
  exact one_lt_length_iff_nontrivial hnodup

end OfBindings

/-- What is wrong with a group. -/
def faults (g : ScalarGroup) : List ScalarFault :=
  (if 1 < g.inputs.length then [.manyInputs] else []) ++
    (if g.inputs.isEmpty then [.noInput] else []) ++
    (if g.outputTypes.isEmpty then [.noOutput] else [])

theorem mem_faults_iff {bindings : List ScalarBinding} {g : ScalarGroup}
    (hg : g ∈ ofBindings bindings) {fault : ScalarFault} :
    fault ∈ g.faults ↔ fault.Holds bindings g.name := by
  cases fault with
  | manyInputs =>
    rw [ScalarFault.Holds, ← one_lt_length_on_iff hg, ← inputs_eq]
    simp [faults]
  | noInput =>
    rw [ScalarFault.Holds, ← on_eq_nil_iff hg, ← inputs_eq]
    simp [faults]
  | noOutput =>
    rw [ScalarFault.Holds, ← on_eq_nil_iff hg, ← outputTypes_eq_nil_iff]
    simp [faults]

theorem nodup_faults (g : ScalarGroup) : g.faults.Nodup := by
  unfold faults
  split <;> split <;> split <;> decide

theorem forall₂_if {p : Prop} [Decidable p] {name : String} {fault : ScalarFault} {d : Diagnostic}
    (h : ScalarFault.Reports (name, fault) d) :
    List.Forall₂ (fun fault d => ScalarFault.Reports (name, fault) d)
      (if p then [fault] else []) (if p then [d] else []) := by
  split
  · exact .cons h .nil
  · exact .nil

/-- What is reported of a group are its faults. -/
theorem forall₂_problems (g : ScalarGroup) :
    List.Forall₂ (fun fault d => ScalarFault.Reports (g.name, fault) d) g.faults g.problems := by
  refine List.rel_append (List.rel_append (forall₂_if ?_) (forall₂_if ?_)) (forall₂_if ?_)
  · exact ⟨rfl, rfl, _, rfl⟩
  · exact ⟨rfl, rfl, "", (String.append_empty).symm⟩
  · exact ⟨rfl, rfl, "", (String.append_empty).symm⟩

end ScalarGroup

/-! ## What is collected -/

/-- The faults of all scalars. -/
def scalarFaults (bindings : List ScalarBinding) : List (String × ScalarFault) :=
  (ScalarGroup.ofBindings bindings).flatMap fun g => g.faults.map (g.name, ·)

theorem mem_scalarFaults_iff {bindings : List ScalarBinding} {name : String} {fault : ScalarFault} :
    (name, fault) ∈ scalarFaults bindings ↔
      name ∈ customNames bindings ∧ fault.Holds bindings name := by
  rw [← (ScalarGroup.entries_ofBindings bindings).2 name, scalarFaults, List.mem_flatMap]
  constructor
  · rintro ⟨g, hg, hfault⟩
    obtain ⟨_, hfault, heq⟩ := List.mem_map.mp hfault
    cases heq
    exact ⟨List.mem_map_of_mem hg, (ScalarGroup.mem_faults_iff hg).mp hfault⟩
  · rintro ⟨hname, hfault⟩
    obtain ⟨g, hg, rfl⟩ := List.mem_map.mp hname
    exact ⟨g, hg, List.mem_map_of_mem ((ScalarGroup.mem_faults_iff hg).mpr hfault)⟩

theorem pairwise_names_ofBindings (bindings : List ScalarBinding) :
    ((ScalarGroup.ofBindings bindings).map (·.name)).Pairwise (· < ·) := by
  rw [← ScalarGroup.keys_entries, List.pairwise_map]
  exact (ScalarGroup.entries_ofBindings bindings).1

/-- No fault is there twice. -/
theorem nodup_scalarFaults (bindings : List ScalarBinding) : (scalarFaults bindings).Nodup := by
  rw [scalarFaults, List.nodup_flatMap]
  constructor
  · intro g _
    exact g.nodup_faults.map fun _ _ h => congrArg Prod.snd h
  · refine (List.pairwise_map.mp (pairwise_names_ofBindings bindings)).imp ?_
    intro g g' hlt fault hfault hfault'
    obtain ⟨_, -, rfl⟩ := List.mem_map.mp hfault
    obtain ⟨_, -, heq⟩ := List.mem_map.mp hfault'
    have hname : g'.name = g.name := congrArg Prod.fst heq
    rw [hname] at hlt
    exact String.lt_irrefl _ hlt

theorem forall₂_diagnostics (bindings : List ScalarBinding) :
    List.Forall₂ ScalarFault.Reports (scalarFaults bindings)
      (collectScalars bindings).diagnostics := by
  have hgroups : List.Forall₂ Eq (ScalarGroup.ofBindings bindings)
      (ScalarGroup.ofBindings bindings) := List.forall₂_same.mpr fun _ _ => rfl
  refine List.rel_flatMap hgroups ?_
  rintro g _ rfl
  exact List.forall₂_map_left_iff.mpr g.forall₂_problems

theorem success_iff_faults {bindings : List ScalarBinding} :
    (collectScalars bindings).success = true ↔ scalarFaults bindings = [] := by
  have hlength := (forall₂_diagnostics bindings).length_eq
  rw [← List.length_eq_zero_iff, hlength, List.length_eq_zero_iff]
  exact List.isEmpty_iff

theorem success_iff_completelyBound {bindings : List ScalarBinding} :
    (collectScalars bindings).success = true ↔
      ∀ name ∈ customNames bindings, CompletelyBound bindings name := by
  rw [success_iff_faults, List.eq_nil_iff_forall_not_mem]
  simp only [completelyBound_iff, Prod.forall, mem_scalarFaults_iff, not_and]
  exact forall_congr' fun _ => forall_comm

theorem completelyBound_of_success {bindings : List ScalarBinding} {g : ScalarGroup}
    (h : (collectScalars bindings).success = true) (hg : g ∈ ScalarGroup.ofBindings bindings) :
    CompletelyBound bindings g.name := by
  apply success_iff_completelyBound.mp h
  exact ((ScalarGroup.entries_ofBindings bindings).2 g.name).mp (List.mem_map_of_mem hg)

/-- A scalar that is complete has bindings on both sides. -/
theorem on_ne_nil_of_success {bindings : List ScalarBinding} {g : ScalarGroup}
    (h : (collectScalars bindings).success = true) (hg : g ∈ ScalarGroup.ofBindings bindings)
    (side : Side) : g.on side ≠ [] := by
  have hcomplete := completelyBound_of_success h hg
  rw [ne_eq, ScalarGroup.on_eq_nil_iff hg, ← ne_eq, ← Set.nonempty_iff_ne_empty]
  cases side with
  | input => exact hcomplete.input.exists
  | output => exact hcomplete.output

/-- What is collected from bindings: a definition for each scalar that is not built in, and an error
for each fault of each of them. -/
structure ScalarsResult.Covers (r : ScalarsResult) (bindings : List ScalarBinding) : Prop where
  names : ∀ name, name ∈ r.scalars.map (·.name) ↔ name ∈ customNames bindings
  increasing : (r.scalars.map (·.name)).Pairwise (· < ·)
  success : r.success = true ↔ ∀ name ∈ customNames bindings, CompletelyBound bindings name
  inputType : r.success = true → ∀ s ∈ r.scalars,
    ∃ b ∈ bindings, b.Binds s.name .input ∧ s.inputType = some (.ofBinding b)
  outputTypes : r.success = true → ∀ s ∈ r.scalars, s.outputTypes ≠ []
  outputType : ∀ s ∈ r.scalars, ∀ t ∈ s.outputTypes,
    ∃ b ∈ bindings, b.Binds s.name .output ∧ t = .ofBinding b
  distinct : ∀ s ∈ r.scalars, s.outputTypes.Pairwise fun t u => (u == t) = false
  diagnostics : ∃ faults, faults.Nodup ∧
    (∀ name fault, (name, fault) ∈ faults ↔
      name ∈ customNames bindings ∧ fault.Holds bindings name) ∧
    List.Forall₂ ScalarFault.Reports faults r.diagnostics

/-- Every list of bindings is covered: one definition for each scalar that is not built in, which is
complete when nothing is reported, and one error for each fault. -/
theorem collectScalars_covers (bindings : List ScalarBinding) :
    (collectScalars bindings).Covers bindings where
  names := mem_names_collectScalars bindings
  increasing := by
    rw [names_collectScalars]
    exact pairwise_names_ofBindings bindings
  success := success_iff_completelyBound
  inputType hsuccess s hs := by
    obtain ⟨g, hg, rfl⟩ := List.mem_map.mp hs
    obtain ⟨b, rest, hb⟩ := List.exists_cons_of_ne_nil (on_ne_nil_of_success hsuccess hg .input)
    obtain ⟨hmem, hbinds⟩ := ScalarGroup.binds_of_mem_on hg (hb ▸ List.mem_cons_self)
    refine ⟨b, hmem, hbinds, ?_⟩
    rw [ScalarGroup.definition, ScalarGroup.inputs_eq, hb]
    rfl
  outputTypes hsuccess s hs := by
    obtain ⟨g, hg, rfl⟩ := List.mem_map.mp hs
    intro hnil
    exact on_ne_nil_of_success hsuccess hg .output (ScalarGroup.outputTypes_eq_nil_iff.mp hnil)
  outputType s hs t ht := by
    obtain ⟨g, hg, rfl⟩ := List.mem_map.mp hs
    obtain ⟨b, hb, rfl⟩ := ScalarGroup.exists_of_mem_outputTypes ht
    obtain ⟨hmem, hbinds⟩ := ScalarGroup.binds_of_mem_on hg hb
    exact ⟨b, hmem, hbinds, rfl⟩
  distinct s hs := by
    obtain ⟨g, -, rfl⟩ := List.mem_map.mp hs
    exact g.pairwise_outputTypes
  diagnostics := ⟨scalarFaults bindings, nodup_scalarFaults bindings,
    fun _ _ => mem_scalarFaults_iff, forall₂_diagnostics bindings⟩

end SchemaCompiler

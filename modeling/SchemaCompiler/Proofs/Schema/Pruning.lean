import Mathlib
import SchemaCompiler.Proofs.Schema.Circles
import SchemaCompiler.Proofs.Schema.Reach

/-!
# Pruned schemas stay valid

Nothing checks a schema again after it was pruned. What a pruned schema still refers to stands for
the same as before, so each check comes out at each place as it did there: the faults of the pruned
schema are faults of the whole one, and taking input objects away makes no circle.
-/

namespace SchemaCompiler.GraphQL

/-! ## Domains that agree -/

namespace NameDomains

/-- A name stands in the same domains. -/
def AgreeOn (d d' : NameDomains) (name : String) : Prop :=
  ∀ kind, name ∈ d.names kind ↔ name ∈ d'.names kind

theorem AgreeOn.contains {d d' : NameDomains} {name : String} (h : AgreeOn d d' name)
    (kind : Kind) : (d.names kind).contains name = (d'.names kind).contains name := by
  rw [Bool.eq_iff_iff, List.contains_iff_mem, List.contains_iff_mem, h kind]

theorem AgreeOn.givesOutput {d d' : NameDomains} {name : String} (h : AgreeOn d d' name) :
    d.givesOutput name = d'.givesOutput name := by
  have houtput := h.contains .object
  have henum := h.contains .enum
  have hscalar := h.contains .scalar
  simp only [names] at houtput henum hscalar
  rw [NameDomains.givesOutput, NameDomains.givesOutput, houtput, henum, hscalar]

end NameDomains

theorem checkOutput_congr {d d' : NameDomains} {f : Field} (h : d.AgreeOn d' f.type.typeName)
    (owner : String) (location : Option SourceLocation) :
    checkOutput d owner f location = checkOutput d' owner f location := by
  have hinput := h.contains .inputObject
  simp only [NameDomains.names] at hinput
  simp only [checkOutput, h.givesOutput, hinput]

theorem checkMember_congr {d d' : NameDomains} {member : String} (h : d.AgreeOn d' member)
    (t : TypeDef) : checkMember d t member = checkMember d' t member := by
  have houtput := h.contains .object
  simp only [NameDomains.names] at houtput
  simp only [checkMember, houtput]

theorem checkBase_congr {d d' : NameDomains} {t : TypeDef}
    (hfields : ∀ f ∈ t.fields, d.AgreeOn d' f.type.typeName)
    (hmembers : ∀ member ∈ t.unionMembers, d.AgreeOn d' member) :
    checkBase d t = checkBase d' t := by
  have hchecked : ∀ f ∈ t.fields, checkOutput d t.name f (f.location.or t.location) =
      checkOutput d' t.name f (f.location.or t.location) :=
    fun f hf => checkOutput_congr (hfields f hf) _ _
  have hmember : ∀ member ∈ t.unionMembers, checkMember d t member = checkMember d' t member :=
    fun member hm => checkMember_congr (hmembers member hm) t
  rw [checkBase, checkBase, List.filterMap_congr hchecked, List.filterMap_congr hmember]

namespace Schema

variable {s : Schema}

/-! ## Output positions -/

theorem Distinct.agreeOn_prune (h : s.Distinct) {name : String}
    (hname : s.prune.schema.Refers name) :
    (NameDomains.ofSchema s.prune.schema).AgreeOn (.ofSchema s) name := by
  intro kind
  have hout := NameDomains.mem_outputTypes s.prune.schema name
  simp only [h.defines_prune_iff hname, ← NameDomains.mem_outputTypes] at hout
  cases kind with
  | object => exact hout
  | interface => exact hout
  | union => exact hout
  | inputObject =>
    simp only [NameDomains.names, NameDomains.mem_inputTypes, h.defines_prune_iff hname]
  | enum => simp only [NameDomains.names, NameDomains.mem_enumTypes, h.defines_prune_iff hname]
  | scalar =>
    simp only [NameDomains.names, NameDomains.mem_scalarTypes, h.defines_prune_iff hname]

theorem Distinct.outputFaults_prune_subset (h : s.Distinct) :
    outputFaults s.prune.schema (.ofSchema s.prune.schema) ⊆ outputFaults s (.ofSchema s) := by
  intro d hd
  rcases List.mem_append.mp hd with hd | hd
  · obtain ⟨t, ht, hd⟩ := List.mem_flatMap.mp hd
    rw [checkBase_congr (fun f hf => h.agreeOn_prune (refers_field ht hf))
      fun member hm => h.agreeOn_prune (refers_member ht hm)] at hd
    exact List.mem_append_left _ (List.mem_flatMap.mpr ⟨t, (mem_baseTypes_prune.mp ht).1, hd⟩)
  · obtain ⟨e, he, hd⟩ := List.mem_flatMap.mp hd
    obtain ⟨f, hf, hd⟩ := List.mem_filterMap.mp hd
    rw [checkOutput_congr (h.agreeOn_prune (refers_resolved he hf))] at hd
    exact List.mem_append_right _
      (List.mem_flatMap.mpr ⟨e, he, List.mem_filterMap.mpr ⟨f, hf, hd⟩⟩)

/-- What is reported of a pruned schema is reported of the whole one, but perhaps with a location
that is written in another way. -/
theorem Distinct.validateOutputs_prune (h : s.Distinct) {d : Diagnostic}
    (hd : d ∈ validateOutputs s.prune.schema (.ofSchema s.prune.schema)) :
    ∃ k ∈ validateOutputs s (.ofSchema s), k == d := by
  rw [validateOutputs_eq] at hd ⊢
  have hfault := h.outputFaults_prune_subset (mem_of_mem_dropRepeated hd)
  obtain ⟨k, hk, hrepeats⟩ := exists_mem_dropRepeated hfault
  refine ⟨k, hk, ?_⟩
  have hseverity : k.severity = d.severity :=
    (beq_iff_eq.mp (isError_outputFaults (mem_of_mem_dropRepeated hk))).trans
      (beq_iff_eq.mp (isError_outputFaults hfault)).symm
  simp only [Repeats, Bool.and_eq_true] at hrepeats
  simp only [Diagnostic.beq_def, hrepeats.1.1, hrepeats.1.2, hrepeats.2, hseverity, beq_self_eq_true,
    Bool.and_self]

/-! ## Input positions -/

theorem Distinct.validateArguments_prune (h : s.Distinct)
    (hok : hasErrors (validateArguments s.extensions s.inputTypes (.ofSchema s)) = false) :
    hasErrors (validateArguments s.prune.schema.extensions s.prune.schema.inputTypes
      (.ofSchema s.prune.schema)) = false := by
  rw [validateArguments_ok_iff] at hok ⊢
  obtain ⟨harguments, hfields, hcircles⟩ := hok
  refine ⟨fun e he f hf a ha => ?_, fun t ht f hf => ?_, ?_⟩
  · exact (h.takesInput_prune_iff (refers_argument he hf ha)).mpr (harguments e he f hf a ha)
  · exact (h.takesInput_prune_iff (refers_inputField ht hf)).mpr
      (hfields t (mem_inputTypes_prune.mp ht).1 f hf)
  · exact circularReferences_of_subset (fun t ht => (mem_inputTypes_prune.mp ht).1) hcircles

/-! ## The whole schema -/

/-- The schema `p` lacks some types of `r` and is as valid: what it refers to is still there, its
outputs have no other faults, its arguments stay without faults, and the rest is the same. -/
structure KeepsValidity (r p : Reported Schema) : Prop where
  base : ∀ name, p.value.Refers name → ∀ t ∈ r.value.baseTypes, t.name = name → t ∈ p.value.baseTypes
  input : ∀ name, p.value.Refers name →
    ∀ t ∈ r.value.inputTypes, t.name = name → t ∈ p.value.inputTypes
  outputs : ∀ d ∈ validateOutputs p.value (.ofSchema p.value),
    ∃ k ∈ validateOutputs r.value (.ofSchema r.value), k == d
  arguments :
    hasErrors (validateArguments r.value.extensions r.value.inputTypes (.ofSchema r.value)) = false →
      hasErrors (validateArguments p.value.extensions p.value.inputTypes (.ofSchema p.value)) = false
  extensions : p.value.extensions = r.value.extensions
  customScalars : p.value.customScalars = r.value.customScalars
  hasQuery : p.value.hasQuery = r.value.hasQuery
  hasMutation : p.value.hasMutation = r.value.hasMutation
  diagnostics : p.diagnostics = r.diagnostics

/-- Pruning keeps a schema valid when no two of its base types and no two of its input types have
the same name. -/
theorem keepsValidity_prune (r : Reported Schema) (h : r.value.Distinct) :
    KeepsValidity r ((·.prune.schema) <$> r) where
  base _ hname _ ht heq :=
    mem_baseTypes_prune.mpr ⟨ht, heq ▸ h.mem_reachable_of_refers hname⟩
  input _ hname _ ht heq :=
    mem_inputTypes_prune.mpr ⟨ht, heq ▸ h.mem_reachable_of_refers hname⟩
  outputs _ hd := h.validateOutputs_prune hd
  arguments hok := h.validateArguments_prune hok
  extensions := rfl
  customScalars := rfl
  hasQuery := rfl
  hasMutation := rfl
  diagnostics := List.append_nil _

/-- A schema whose query gives nodes and takes a filter; two of its types are never reached. -/
def nodeSchema : Schema where
  baseTypes :=
    [{ name := queryType, kind := .object },
      { name := "Node", kind := .interface, fields := [field "id" "ID" []] },
      { name := "User", kind := .object, fields := [field "profile" "Profile" []],
        interfaces := ["Node"] },
      { name := "Profile", kind := .object },
      { name := "Orphan", kind := .object }]
  inputTypes := [inputType "FilterInput", inputType "UnusedInput"]
  extensions := [⟨queryType, [⟨field "users" "Node" [inputValue "filter" "FilterInput"], none, none⟩]⟩]
  hasQuery := true
where
  field (name typeName : String) (args : List InputValue) : Field :=
    ⟨name, .named typeName false, args, none, none, none⟩
  inputValue (name typeName : String) : InputValue := ⟨name, .named typeName true, none, none, none⟩
  inputType (name : String) : InputType := ⟨name, [], false, none, none, none, none⟩

/-- Two types are taken away, and what is left is as valid. -/
theorem keepsValidity_nodeSchema :
    nodeSchema.Distinct ∧ nodeSchema.prune.removed = ["Orphan", "UnusedInput"] ∧
      KeepsValidity ⟨nodeSchema, []⟩ ((·.prune.schema) <$> ⟨nodeSchema, []⟩) := by
  have hdistinct : nodeSchema.Distinct := ⟨by decide, by decide⟩
  exact ⟨hdistinct, by cbv, keepsValidity_prune ⟨nodeSchema, []⟩ hdistinct⟩

end Schema

end SchemaCompiler.GraphQL

/-!
## What pruning takes away

The names that a walk from the roots ends with are the least ones that hold the roots and whatever a
type of theirs leads to. A type is kept when its name is one of them, so all types on the way to it
are kept as well, and a pruned schema leads to no fewer names than the whole one.
-/

namespace SchemaCompiler.GraphQL.Schema

/-- The least names that hold the root types and what extensions name, and that are closed under
field and argument types, union members, interfaces, the types that implement an interface, and the
field types of input objects. -/
inductive Reached (s : Schema) : String → Prop
  | query {t} : t ∈ s.baseTypes → t.name = queryType → Reached s queryType
  | mutation {t} : t ∈ s.baseTypes → t.name = mutationType → Reached s mutationType
  | target {e} : e ∈ s.extensions → Reached s e.target
  | resolved {e f} : e ∈ s.extensions → f ∈ e.fields → Reached s f.field.type.typeName
  | resolvedArgument {e f a} :
      e ∈ s.extensions → f ∈ e.fields → a ∈ f.field.args → Reached s a.type.typeName
  | field {t f} : t ∈ s.baseTypes → Reached s t.name → f ∈ t.fields → Reached s f.type.typeName
  | argument {t f a} :
      t ∈ s.baseTypes → Reached s t.name → f ∈ t.fields → a ∈ f.args → Reached s a.type.typeName
  | member {t name} : t ∈ s.baseTypes → Reached s t.name → name ∈ t.unionMembers → Reached s name
  | interface {t name} : t ∈ s.baseTypes → Reached s t.name → name ∈ t.interfaces → Reached s name
  | implementor {t u} :
      t ∈ s.baseTypes → Reached s t.name → t.kind = .interface → u ∈ s.baseTypes →
        t.name ∈ u.interfaces → Reached s u.name
  | inputField {t f} :
      t ∈ s.inputTypes → Reached s t.name → f ∈ t.fields → Reached s f.type.typeName

variable {s : Schema}

/-! ### What a name leads to -/

theorem mem_fieldReferences {f : Field} {name : String} :
    name ∈ fieldReferences f ↔ f.type.typeName = name ∨ ∃ a ∈ f.args, a.type.typeName = name := by
  rw [fieldReferences, List.mem_cons, List.mem_map, eq_comm]

theorem mem_roots_iff {name : String} :
    name ∈ s.roots ↔
      (name = queryType ∨ name = mutationType) ∧ (∃ t ∈ s.baseTypes, t.name = name) ∨
        ∃ e ∈ s.extensions, e.target = name ∨ ∃ f ∈ e.fields, name ∈ fieldReferences f.field := by
  simp only [roots, List.mem_append, List.mem_filter, List.mem_flatMap, List.mem_cons,
    List.not_mem_nil, or_false, baseType?, List.find?_isSome, beq_iff_eq, eq_comm (a := name)]

theorem mem_baseReferences_iff {t : TypeDef} {name : String} :
    name ∈ s.baseReferences t ↔
      (∃ f ∈ t.fields, name ∈ fieldReferences f) ∨ name ∈ t.unionMembers ∨ name ∈ t.interfaces ∨
        t.kind = .interface ∧ ∃ u ∈ s.baseTypes, t.name ∈ u.interfaces ∧ u.name = name := by
  by_cases hkind : t.kind = .interface
  · simp [baseReferences, implementors, hkind, and_assoc]
  · simp [baseReferences, hkind]

theorem Distinct.mem_references_iff (h : s.Distinct) {n m : String} :
    m ∈ s.references n ↔
      (∃ t ∈ s.baseTypes, t.name = n ∧ m ∈ s.baseReferences t) ∨
        ∃ t ∈ s.inputTypes, t.name = n ∧ ∃ f ∈ t.fields, f.type.typeName = m := by
  have hbase : m ∈ ((s.baseType? n).map (s.baseReferences ·)).getD [] ↔
      ∃ t ∈ s.baseTypes, t.name = n ∧ m ∈ s.baseReferences t := by
    constructor
    · intro hm
      cases hfound : s.baseType? n with
      | none => simp [hfound] at hm
      | some t =>
        obtain ⟨ht, hname⟩ := baseType?_eq_some hfound
        exact ⟨t, ht, hname, by simpa [hfound] using hm⟩
    · rintro ⟨t, ht, rfl, hm⟩
      rwa [h.baseType?_of_mem ht]
  have hinput : m ∈ ((s.inputType? n).map inputReferences).getD [] ↔
      ∃ t ∈ s.inputTypes, t.name = n ∧ ∃ f ∈ t.fields, f.type.typeName = m := by
    constructor
    · intro hm
      cases hfound : s.inputType? n with
      | none => simp [hfound] at hm
      | some t =>
        obtain ⟨ht, hname⟩ := inputType?_eq_some hfound
        exact ⟨t, ht, hname, by simpa [hfound, inputReferences] using hm⟩
    · rintro ⟨t, ht, rfl, f, hf, rfl⟩
      rw [h.inputType?_of_mem ht]
      exact List.mem_map_of_mem hf
  rw [references, List.mem_append, hbase, hinput]

/-! ### All that is walked to is reached -/

theorem Reached.of_mem_roots {name : String} (h : name ∈ s.roots) : s.Reached name := by
  rcases mem_roots_iff.mp h with ⟨rfl | rfl, t, ht, hname⟩ | ⟨e, he, rfl | ⟨f, hf, h⟩⟩
  · exact .query ht hname
  · exact .mutation ht hname
  · exact .target he
  · rcases mem_fieldReferences.mp h with rfl | ⟨a, ha, rfl⟩
    · exact .resolved he hf
    · exact .resolvedArgument he hf ha

theorem Distinct.reached_of_reference (h : s.Distinct) {n m : String} (hreached : s.Reached n)
    (hrefers : m ∈ s.references n) : s.Reached m := by
  rcases h.mem_references_iff.mp hrefers with ⟨t, ht, rfl, hm⟩ | ⟨t, ht, rfl, f, hf, rfl⟩
  · rcases mem_baseReferences_iff.mp hm with
      ⟨f, hf, hm⟩ | hm | hm | ⟨hkind, u, hu, himplements, rfl⟩
    · rcases mem_fieldReferences.mp hm with rfl | ⟨a, ha, rfl⟩
      · exact .field ht hreached hf
      · exact .argument ht hreached hf ha
    · exact .member ht hreached hm
    · exact .interface ht hreached hm
    · exact .implementor ht hreached hkind hu himplements
  · exact .inputField ht hreached hf

theorem Distinct.reached_of_mem_reach (h : s.Distinct) {seen queue : List String}
    (hseen : ∀ n ∈ seen, s.Reached n) (hqueue : ∀ n ∈ queue, s.Reached n) {name : String}
    (hname : name ∈ s.reach seen queue) : s.Reached name := by
  fun_induction reach s seen queue with
  | case1 seen => exact hseen name hname
  | case2 seen first rest _ ih => exact ih hseen (List.forall_mem_cons.mp hqueue).2 hname
  | case3 seen first rest _ ih =>
    obtain ⟨hfirst, hrest⟩ := List.forall_mem_cons.mp hqueue
    refine ih (List.forall_mem_cons.mpr ⟨hfirst, hseen⟩) (fun n hn => ?_) hname
    rcases List.mem_append.mp hn with hn | hn
    · exact hrest n hn
    · exact h.reached_of_reference hfirst hn

/-! ### All that is reached is walked to -/

theorem Distinct.mem_reachable_of_base (h : s.Distinct) {t : TypeDef} (ht : t ∈ s.baseTypes)
    (hreach : t.name ∈ s.reachable) {name : String} (hname : name ∈ s.baseReferences t) :
    name ∈ s.reachable :=
  mem_reachable_of_reference hreach (h.mem_references_iff.mpr (Or.inl ⟨t, ht, rfl, hname⟩))

theorem Distinct.mem_reachable_of_field (h : s.Distinct) {t : TypeDef} (ht : t ∈ s.baseTypes)
    (hreach : t.name ∈ s.reachable) {f : Field} (hf : f ∈ t.fields) {name : String}
    (hname : name ∈ fieldReferences f) : name ∈ s.reachable :=
  h.mem_reachable_of_base ht hreach (mem_baseReferences_iff.mpr (Or.inl ⟨f, hf, hname⟩))

theorem mem_reachable_of_resolved {e : TypeExtension} (he : e ∈ s.extensions) {f : ResolvedField}
    (hf : f ∈ e.fields) {name : String} (hname : name ∈ fieldReferences f.field) :
    name ∈ s.reachable :=
  mem_reachable_of_root (mem_roots_iff.mpr (Or.inr ⟨e, he, Or.inr ⟨f, hf, hname⟩⟩))

theorem Distinct.mem_reachable_of_reached (h : s.Distinct) {name : String}
    (hreached : s.Reached name) : name ∈ s.reachable := by
  induction hreached with
  | query ht hname =>
    exact mem_reachable_of_root (mem_roots_iff.mpr (Or.inl ⟨Or.inl rfl, _, ht, hname⟩))
  | mutation ht hname =>
    exact mem_reachable_of_root (mem_roots_iff.mpr (Or.inl ⟨Or.inr rfl, _, ht, hname⟩))
  | target he => exact mem_reachable_of_root (mem_roots_iff.mpr (Or.inr ⟨_, he, Or.inl rfl⟩))
  | resolved he hf => exact mem_reachable_of_resolved he hf (mem_fieldReferences.mpr (Or.inl rfl))
  | resolvedArgument he hf ha =>
    exact mem_reachable_of_resolved he hf (mem_fieldReferences.mpr (Or.inr ⟨_, ha, rfl⟩))
  | field ht _ hf ih =>
    exact h.mem_reachable_of_field ht ih hf (mem_fieldReferences.mpr (Or.inl rfl))
  | argument ht _ hf ha ih =>
    exact h.mem_reachable_of_field ht ih hf (mem_fieldReferences.mpr (Or.inr ⟨_, ha, rfl⟩))
  | member ht _ hname ih =>
    exact h.mem_reachable_of_base ht ih (mem_baseReferences_iff.mpr (Or.inr (Or.inl hname)))
  | interface ht _ hname ih =>
    exact h.mem_reachable_of_base ht ih
      (mem_baseReferences_iff.mpr (Or.inr (Or.inr (Or.inl hname))))
  | implementor ht _ hkind hu himplements ih =>
    exact h.mem_reachable_of_base ht ih (mem_baseReferences_iff.mpr
      (Or.inr (Or.inr (Or.inr ⟨hkind, _, hu, himplements, rfl⟩))))
  | inputField ht _ hf ih =>
    exact mem_reachable_of_reference ih
      (h.mem_references_iff.mpr (Or.inr ⟨_, ht, rfl, _, hf, rfl⟩))

theorem Distinct.mem_reachable_iff (h : s.Distinct) {name : String} :
    name ∈ s.reachable ↔ s.Reached name := by
  refine ⟨h.reached_of_mem_reach (fun n hn => ?_) fun n hn => .of_mem_roots hn,
    h.mem_reachable_of_reached⟩
  cases hn

/-! ### Pruning again -/

theorem Distinct.prune (h : s.Distinct) : s.prune.schema.Distinct :=
  ⟨h.base.sublist (List.filter_sublist.map _), h.input.sublist (List.filter_sublist.map _)⟩

/-- What leads to a name is kept, so a pruned schema still leads to it. -/
theorem Distinct.reached_prune (h : s.Distinct) {name : String} (hreached : s.Reached name) :
    s.prune.schema.Reached name := by
  have hbase : ∀ t ∈ s.baseTypes, s.Reached t.name → t ∈ s.prune.schema.baseTypes :=
    fun t ht hreached => mem_baseTypes_prune.mpr ⟨ht, h.mem_reachable_of_reached hreached⟩
  induction hreached with
  | query ht hname => exact .query (hbase _ ht (hname ▸ .query ht hname)) hname
  | mutation ht hname => exact .mutation (hbase _ ht (hname ▸ .mutation ht hname)) hname
  | target he => exact .target (s := s.prune.schema) he
  | resolved he hf => exact .resolved (s := s.prune.schema) he hf
  | resolvedArgument he hf ha => exact .resolvedArgument (s := s.prune.schema) he hf ha
  | field ht hreached hf ih => exact .field (hbase _ ht hreached) ih hf
  | argument ht hreached hf ha ih => exact .argument (hbase _ ht hreached) ih hf ha
  | member ht hreached hname ih => exact .member (hbase _ ht hreached) ih hname
  | interface ht hreached hname ih => exact .interface (hbase _ ht hreached) ih hname
  | implementor ht hreached hkind hu himplements ih =>
    exact .implementor (hbase _ ht hreached) ih hkind
      (hbase _ hu (.implementor ht hreached hkind hu himplements)) himplements
  | inputField ht hreached hf ih =>
    refine .inputField (mem_inputTypes_prune.mpr ⟨ht, ?_⟩) ih hf
    exact h.mem_reachable_of_reached hreached

theorem prune_eq_self (h : ∀ name ∈ s.typeNames, name ∈ s.reachable) : s.prune = ⟨s, []⟩ := by
  have hbase : s.baseTypes.filter (fun t => s.reachable.contains t.name) = s.baseTypes :=
    List.filter_eq_self.mpr fun t ht =>
      List.contains_iff_mem.mpr (h _ (List.mem_append_left _ (List.mem_map_of_mem ht)))
  have hinput : s.inputTypes.filter (fun t => s.reachable.contains t.name) = s.inputTypes :=
    List.filter_eq_self.mpr fun t ht =>
      List.contains_iff_mem.mpr (h _ (List.mem_append_right _ (List.mem_map_of_mem ht)))
  have hremoved : s.typeNames.filter (fun n => !s.reachable.contains n) = [] :=
    List.filter_eq_nil_iff.mpr fun n hn => by simp [h n hn]
  simp only [Schema.prune, hbase, hinput, hremoved, List.mergeSort_nil]

theorem Distinct.prune_prune (h : s.Distinct) : s.prune.schema.prune = ⟨s.prune.schema, []⟩ := by
  refine prune_eq_self fun name hname => h.prune.mem_reachable_of_reached (h.reached_prune ?_)
  rw [← h.mem_reachable_iff]
  rcases List.mem_append.mp hname with hname | hname
  · obtain ⟨t, ht, rfl⟩ := List.mem_map.mp hname
    exact (mem_baseTypes_prune.mp ht).2
  · obtain ⟨t, ht, rfl⟩ := List.mem_map.mp hname
    exact (mem_inputTypes_prune.mp ht).2

/-! ### Removed names -/

/-- Each type is kept or its name is removed. -/
theorem typeNames_perm_prune (s : Schema) :
    (s.prune.schema.typeNames ++ s.prune.removed).Perm s.typeNames := by
  have hkept : s.prune.schema.typeNames = s.typeNames.filter s.reachable.contains := by
    simp [prune, typeNames, List.filter_map, Function.comp_def]
  have hremoved : s.prune.removed.Perm (s.typeNames.filter fun n => !s.reachable.contains n) :=
    List.mergeSort_perm _ _
  rw [hkept]
  exact (hremoved.append_left _).trans (List.filter_append_perm _ _)

/-- The schema `p` keeps the types of `s` that are reached, in order and as they are; the names of
the others are removed, each once, in order, and nothing is left to remove. -/
structure KeepsReached (s : Schema) (p : Pruned) : Prop where
  base : p.schema.baseTypes.Sublist s.baseTypes
  input : p.schema.inputTypes.Sublist s.inputTypes
  mem_base : ∀ t, t ∈ p.schema.baseTypes ↔ t ∈ s.baseTypes ∧ s.Reached t.name
  mem_input : ∀ t, t ∈ p.schema.inputTypes ↔ t ∈ s.inputTypes ∧ s.Reached t.name
  sorted : p.removed.Pairwise (· ≤ ·)
  removed : (p.schema.typeNames ++ p.removed).Perm s.typeNames
  again : p.schema.prune = ⟨p.schema, []⟩

/-- Pruning keeps exactly what is reached when no two base types and no two input types have the
same name. -/
theorem keepsReached_prune (s : Schema) (h : s.Distinct) : KeepsReached s s.prune where
  base := List.filter_sublist
  input := List.filter_sublist
  mem_base t := by rw [mem_baseTypes_prune, h.mem_reachable_iff]
  mem_input t := by rw [mem_inputTypes_prune, h.mem_reachable_iff]
  sorted := List.pairwise_mergeSort' (· ≤ ·) _
  removed := typeNames_perm_prune s
  again := h.prune_prune

theorem keepsReached_nodeSchema :
    nodeSchema.Distinct ∧ nodeSchema.prune.removed = ["Orphan", "UnusedInput"] ∧
      KeepsReached nodeSchema nodeSchema.prune := by
  have hdistinct : nodeSchema.Distinct := ⟨by decide, by decide⟩
  exact ⟨hdistinct, by cbv, keepsReached_prune nodeSchema hdistinct⟩

end SchemaCompiler.GraphQL.Schema

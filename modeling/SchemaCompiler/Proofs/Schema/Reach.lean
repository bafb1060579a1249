import SchemaCompiler.Proofs.Schema.Assembly
import SchemaCompiler.Proofs.Schema.Validity

/-!
# What pruning keeps

Reaching goes on until nothing new is found, so the names that it ends with are closed under
references. Whatever a pruned schema still refers to is therefore still there, with all that the
unpruned schema says about it.
-/

namespace SchemaCompiler.GraphQL.Schema

variable {s : Schema}

/-! ## Reachable names -/

theorem mem_reach_of_mem_seen {seen queue : List String} {name : String} (h : name ∈ seen) :
    name ∈ s.reach seen queue := by
  fun_induction reach s seen queue with
  | case1 seen => exact h
  | case2 seen first rest hseen ih => exact ih h
  | case3 seen first rest hnew ih => exact ih (List.mem_cons_of_mem _ h)

theorem mem_reach_of_mem_queue {seen queue : List String} {name : String} (h : name ∈ queue) :
    name ∈ s.reach seen queue := by
  fun_induction reach s seen queue with
  | case1 seen => cases h
  | case2 seen first rest hseen ih =>
    rcases List.mem_cons.mp h with rfl | h
    · exact mem_reach_of_mem_seen hseen
    · exact ih h
  | case3 seen first rest hnew ih =>
    rcases List.mem_cons.mp h with rfl | h
    · exact mem_reach_of_mem_seen List.mem_cons_self
    · exact ih (List.mem_append_left _ h)

/-- The references of the names that were seen are seen or still in the queue. -/
def Pending (s : Schema) (seen queue : List String) : Prop :=
  ∀ n ∈ seen, ∀ m ∈ s.references n, m ∈ seen ∨ m ∈ queue

theorem Pending.skip {seen rest : List String} {first : String}
    (h : s.Pending seen (first :: rest)) (hseen : first ∈ seen) : s.Pending seen rest := by
  intro n hn m hm
  rcases h n hn m hm with h | h
  · exact Or.inl h
  · rcases List.mem_cons.mp h with rfl | h
    · exact Or.inl hseen
    · exact Or.inr h

theorem Pending.take {seen rest : List String} {first : String}
    (h : s.Pending seen (first :: rest)) :
    s.Pending (first :: seen) (rest ++ s.references first) := by
  intro n hn m hm
  rcases List.mem_cons.mp hn with rfl | hn
  · exact Or.inr (List.mem_append_right _ hm)
  · rcases h n hn m hm with h | h
    · exact Or.inl (List.mem_cons_of_mem _ h)
    · rcases List.mem_cons.mp h with rfl | h
      · exact Or.inl List.mem_cons_self
      · exact Or.inr (List.mem_append_left _ h)

theorem reach_closed {seen queue : List String} (h : s.Pending seen queue) {n m : String}
    (hn : n ∈ s.reach seen queue) (hm : m ∈ s.references n) : m ∈ s.reach seen queue := by
  fun_induction reach s seen queue with
  | case1 seen =>
    rcases h n hn m hm with h | h
    · exact h
    · cases h
  | case2 seen first rest hseen ih => exact ih (h.skip hseen) hn
  | case3 seen first rest hnew ih => exact ih h.take hn

theorem mem_reachable_of_root {name : String} (h : name ∈ s.roots) : name ∈ s.reachable :=
  mem_reach_of_mem_queue h

theorem mem_reachable_of_reference {n m : String} (hn : n ∈ s.reachable)
    (hm : m ∈ s.references n) : m ∈ s.reachable :=
  reach_closed (fun _ h => by cases h) hn hm

/-! ## Pruned schemas -/

/-- A schema names something: as a field or argument type, an input field type, a union member, an
interface or the target of an extension. -/
def Refers (s : Schema) (name : String) : Prop :=
  (∃ t ∈ s.baseTypes, name ∈ t.fields.flatMap fieldReferences ++ t.unionMembers ++ t.interfaces) ∨
    (∃ t ∈ s.inputTypes, name ∈ inputReferences t) ∨
    ∃ e ∈ s.extensions, name = e.target ∨ ∃ f ∈ e.fields, name ∈ fieldReferences f.field

theorem refers_field {t : TypeDef} (ht : t ∈ s.baseTypes) {f : Field} (hf : f ∈ t.fields) :
    s.Refers f.type.typeName := by
  refine Or.inl ⟨t, ht, List.mem_append_left _ (List.mem_append_left _ ?_)⟩
  exact List.mem_flatMap.mpr ⟨f, hf, List.mem_cons_self⟩

theorem refers_member {t : TypeDef} (ht : t ∈ s.baseTypes) {member : String}
    (hmember : member ∈ t.unionMembers) : s.Refers member :=
  Or.inl ⟨t, ht, List.mem_append_left _ (List.mem_append_right _ hmember)⟩

theorem refers_interface {t : TypeDef} (ht : t ∈ s.baseTypes) {name : String}
    (hname : name ∈ t.interfaces) : s.Refers name :=
  Or.inl ⟨t, ht, List.mem_append_right _ hname⟩

theorem refers_inputField {t : InputType} (ht : t ∈ s.inputTypes) {f : InputValue}
    (hf : f ∈ t.fields) : s.Refers f.type.typeName :=
  Or.inr (Or.inl ⟨t, ht, List.mem_map_of_mem hf⟩)

theorem refers_target {e : TypeExtension} (he : e ∈ s.extensions) : s.Refers e.target :=
  Or.inr (Or.inr ⟨e, he, Or.inl rfl⟩)

theorem refers_resolved {e : TypeExtension} (he : e ∈ s.extensions) {f : ResolvedField}
    (hf : f ∈ e.fields) : s.Refers f.field.type.typeName :=
  Or.inr (Or.inr ⟨e, he, Or.inr ⟨f, hf, List.mem_cons_self⟩⟩)

theorem refers_argument {e : TypeExtension} (he : e ∈ s.extensions) {f : ResolvedField}
    (hf : f ∈ e.fields) {a : InputValue} (ha : a ∈ f.field.args) : s.Refers a.type.typeName :=
  Or.inr (Or.inr ⟨e, he, Or.inr ⟨f, hf, List.mem_cons_of_mem _ (List.mem_map_of_mem ha)⟩⟩)

theorem mem_baseTypes_prune {t : TypeDef} :
    t ∈ s.prune.schema.baseTypes ↔ t ∈ s.baseTypes ∧ t.name ∈ s.reachable := by
  simp [prune]

theorem mem_inputTypes_prune {t : InputType} :
    t ∈ s.prune.schema.inputTypes ↔ t ∈ s.inputTypes ∧ t.name ∈ s.reachable := by
  simp [prune]

theorem typeNames_prune_sublist (s : Schema) :
    List.Sublist s.prune.schema.typeNames s.typeNames :=
  List.Sublist.append (List.filter_sublist.map _) (List.filter_sublist.map _)

theorem Formed.prune (h : s.Formed) : s.prune.schema.Formed where
  kinds t ht := h.kinds t (mem_baseTypes_prune.mp ht).1
  bare t ht := h.bare t (mem_baseTypes_prune.mp ht).1
  inputs t ht := h.inputs t (mem_inputTypes_prune.mp ht).1
  nodup := h.nodup.sublist (typeNames_prune_sublist s)

theorem Distinct.mem_reachable_of_refers (h : s.Distinct) {name : String}
    (hname : s.prune.schema.Refers name) : name ∈ s.reachable := by
  rcases hname with ⟨t, ht, hname⟩ | ⟨t, ht, hname⟩ | ⟨e, he, hname⟩
  · obtain ⟨ht, hreach⟩ := mem_baseTypes_prune.mp ht
    refine mem_reachable_of_reference hreach ?_
    rw [references, h.baseType?_of_mem ht, Option.map_some, Option.getD_some, baseReferences]
    exact List.mem_append_left _ (List.mem_append_left _ hname)
  · obtain ⟨ht, hreach⟩ := mem_inputTypes_prune.mp ht
    refine mem_reachable_of_reference hreach ?_
    rw [references, h.inputType?_of_mem ht, Option.map_some, Option.getD_some]
    exact List.mem_append_right _ hname
  · apply mem_reachable_of_root
    refine List.mem_append_right _ (List.mem_flatMap.mpr ⟨e, he, ?_⟩)
    rcases hname with rfl | ⟨f, hf, hname⟩
    · exact List.mem_cons_self
    · exact List.mem_cons_of_mem _ (List.mem_flatMap.mpr ⟨f, hf, hname⟩)

theorem defines_of_prune {kind : Kind} {name : String} (h : s.prune.schema.Defines kind name) :
    s.Defines kind name := by
  rcases h with ⟨t, ht, h⟩ | ⟨hkind, t, ht, h⟩ | h
  · exact Or.inl ⟨t, (mem_baseTypes_prune.mp ht).1, h⟩
  · exact Or.inr (Or.inl ⟨hkind, t, (mem_inputTypes_prune.mp ht).1, h⟩)
  · exact Or.inr (Or.inr h)

/-- What a pruned schema refers to is what it was before. -/
theorem Distinct.defines_prune_iff (h : s.Distinct) {name : String}
    (hname : s.prune.schema.Refers name) (kind : Kind) :
    s.prune.schema.Defines kind name ↔ s.Defines kind name := by
  refine ⟨defines_of_prune, ?_⟩
  have hreach := h.mem_reachable_of_refers hname
  rintro (⟨t, ht, hkind, rfl⟩ | ⟨hkind, t, ht, rfl⟩ | hscalar)
  · exact Or.inl ⟨t, mem_baseTypes_prune.mpr ⟨ht, hreach⟩, hkind, rfl⟩
  · exact Or.inr (Or.inl ⟨hkind, t, mem_inputTypes_prune.mpr ⟨ht, hreach⟩, rfl⟩)
  · exact Or.inr (Or.inr hscalar)

theorem Distinct.takesInput_prune_iff (h : s.Distinct) {name : String}
    (hname : s.prune.schema.Refers name) :
    s.prune.schema.TakesInput name ↔ s.TakesInput name := by
  simp only [TakesInput, h.defines_prune_iff hname]

theorem Distinct.givesOutput_prune_iff (h : s.Distinct) {name : String}
    (hname : s.prune.schema.Refers name) :
    s.prune.schema.GivesOutput name ↔ s.GivesOutput name := by
  simp only [GivesOutput, h.defines_prune_iff hname]

end SchemaCompiler.GraphQL.Schema

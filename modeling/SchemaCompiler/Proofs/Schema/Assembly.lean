import SchemaCompiler.GraphQL.Prune
import SchemaCompiler.Proofs.Diagnostics
import SchemaCompiler.Proofs.ResolverFields

/-!
# How a schema is put together

A schema is put together from lowered types, one at a time. `Schema.Formed` is what every step keeps:
input objects stand apart from the other types, no field of a type has arguments, and no name is
taken twice. Root types can be added because no input object is called `Query` or `Mutation`.

Extensions are checked against the types that were put together. Without errors every one of them
extends an object and keeps all its fields, which then have different names.
-/

namespace SchemaCompiler.GraphQL

namespace Schema

/-- What every schema keeps while it is put together. -/
structure Formed (s : Schema) : Prop where
  kinds : ∀ t ∈ s.baseTypes, t.kind ≠ .inputObject
  bare : ∀ t ∈ s.baseTypes, Bare t.fields
  inputs : ∀ t ∈ s.inputTypes, isInputName t.name = true
  nodup : s.typeNames.Nodup

theorem mem_typeNames {s : Schema} {name : String} :
    name ∈ s.typeNames ↔
      (∃ t ∈ s.baseTypes, t.name = name) ∨ ∃ t ∈ s.inputTypes, t.name = name := by
  simp [typeNames]

/-! ## Lookups -/

theorem baseType?_eq_some {s : Schema} {name : String} {t : TypeDef}
    (h : s.baseType? name = some t) : t ∈ s.baseTypes ∧ t.name = name := by
  refine ⟨List.mem_of_find?_eq_some h, ?_⟩
  simpa using List.find?_some h

theorem inputType?_eq_some {s : Schema} {name : String} {t : InputType}
    (h : s.inputType? name = some t) : t ∈ s.inputTypes ∧ t.name = name := by
  refine ⟨List.mem_of_find?_eq_some h, ?_⟩
  simpa using List.find?_some h

/-- Where names are not taken twice, a list of items is looked up by name. -/
theorem find?_name_of_mem {α : Type} {name : α → String} {items : List α}
    (hnodup : (items.map name).Nodup) {a : α} (ha : a ∈ items) :
    items.find? (name · == name a) = some a := by
  induction items with
  | nil => cases ha
  | cons first rest ih =>
    rw [List.map_cons, List.nodup_cons] at hnodup
    rcases List.mem_cons.mp ha with rfl | hrest
    · simp
    · have hne : name first ≠ name a := fun h =>
        hnodup.1 (h ▸ List.mem_map_of_mem hrest)
      rw [List.find?_cons_of_neg (by simpa using hne)]
      exact ih hnodup.2 hrest

theorem find?_name_eq_none_iff {types : List TypeDef} {name : String} :
    types.find? (·.name == name) = none ↔ name ∉ types.map (·.name) := by
  simp

/-- No two base types and no two input types have the same name. -/
structure Distinct (s : Schema) : Prop where
  base : (s.baseTypes.map (·.name)).Nodup
  input : (s.inputTypes.map (·.name)).Nodup

theorem Formed.distinct {s : Schema} (h : s.Formed) : s.Distinct :=
  ⟨(List.nodup_append.mp h.nodup).1, (List.nodup_append.mp h.nodup).2.1⟩

theorem Distinct.baseType?_of_mem {s : Schema} (h : s.Distinct) {t : TypeDef}
    (ht : t ∈ s.baseTypes) : s.baseType? t.name = some t :=
  find?_name_of_mem h.base ht

theorem Distinct.inputType?_of_mem {s : Schema} (h : s.Distinct) {t : InputType}
    (ht : t ∈ s.inputTypes) : s.inputType? t.name = some t :=
  find?_name_of_mem h.input ht

/-! ## Adding types -/

theorem mem_typeNames_addType {s : Schema} {t : TypeDef} {name : String} :
    name ∈ (s.addType t).typeNames ↔ name ∈ s.typeNames ∨ name = t.name := by
  rw [addType]
  split
  · simp [typeNames, InputType.ofTypeDef, or_assoc, eq_comm]
  · simp only [typeNames, List.map_append, List.mem_append, List.map_cons, List.map_nil,
      List.mem_singleton]
    grind

theorem nodup_typeNames_addBase {s : Schema} {t : TypeDef} (hs : s.typeNames.Nodup)
    (hnew : t.name ∉ s.typeNames) :
    ({ s with baseTypes := s.baseTypes ++ [t] } : Schema).typeNames.Nodup := by
  have hperm : ({ s with baseTypes := s.baseTypes ++ [t] } : Schema).typeNames.Perm
      (t.name :: s.typeNames) := by
    simp only [typeNames, List.map_append, List.map_cons, List.map_nil, List.append_assoc,
      List.singleton_append]
    exact List.perm_middle
  exact hperm.nodup_iff.mpr (List.nodup_cons.mpr ⟨hnew, hs⟩)

theorem nodup_typeNames_addInput {s : Schema} {t : InputType} (hs : s.typeNames.Nodup)
    (hnew : t.name ∉ s.typeNames) :
    ({ s with inputTypes := s.inputTypes ++ [t] } : Schema).typeNames.Nodup := by
  have heq : ({ s with inputTypes := s.inputTypes ++ [t] } : Schema).typeNames =
      s.typeNames ++ [t.name] := by
    simp [typeNames]
  rw [heq]
  exact (List.perm_append_singleton t.name s.typeNames).nodup_iff.mpr
    (List.nodup_cons.mpr ⟨hnew, hs⟩)

theorem Formed.addType {s : Schema} (h : s.Formed) {t : TypeDef} (ht : t.Lowered)
    (hnew : t.name ∉ s.typeNames) : (s.addType t).Formed := by
  rw [Schema.addType]
  split
  · rename_i hkind
    refine ⟨h.kinds, h.bare, ?_, nodup_typeNames_addInput h.nodup hnew⟩
    intro u hu
    rcases List.mem_append.mp hu with hu | hu
    · exact h.inputs u hu
    · rw [List.mem_singleton] at hu
      subst hu
      exact ht.inputName hkind
  · rename_i hkind
    refine ⟨?_, ?_, h.inputs, nodup_typeNames_addBase h.nodup hnew⟩
    all_goals
      intro u hu
      rcases List.mem_append.mp hu with hu | hu
    · exact h.kinds u hu
    · rw [List.mem_singleton] at hu
      exact hu ▸ hkind
    · exact h.bare u hu
    · rw [List.mem_singleton] at hu
      exact hu ▸ ht.bare

theorem Formed.addTypes {s : Schema} (h : s.Formed) {ts : List TypeDef}
    (hts : ∀ t ∈ ts, t.Lowered) (hnodup : (ts.map (·.name)).Nodup)
    (hnew : ∀ t ∈ ts, t.name ∉ s.typeNames) : (ts.foldl Schema.addType s).Formed := by
  induction ts generalizing s with
  | nil => exact h
  | cons t rest ih =>
    rw [List.map_cons, List.nodup_cons] at hnodup
    refine ih (h.addType (hts t List.mem_cons_self) (hnew t List.mem_cons_self))
      (fun u hu => hts u (List.mem_cons_of_mem _ hu)) hnodup.2 ?_
    intro u hu hmem
    rcases mem_typeNames_addType.mp hmem with hmem | hmem
    · exact hnew u (List.mem_cons_of_mem _ hu) hmem
    · exact hnodup.1 (hmem ▸ List.mem_map_of_mem hu)

theorem typeNames_foldl_addType {ts : List TypeDef} {s : Schema} {name : String} :
    name ∈ (ts.foldl Schema.addType s).typeNames ↔
      name ∈ s.typeNames ∨ name ∈ ts.map (·.name) := by
  induction ts generalizing s with
  | nil => simp
  | cons t rest ih => simp [ih, mem_typeNames_addType, or_assoc]

/-- A root type can be added: no input object has its name. -/
theorem Formed.addRoot {s : Schema} (h : s.Formed) {name : String}
    (hname : isInputName name = false) : (s.addRoot name).Formed := by
  rw [Schema.addRoot]
  split
  · exact h
  · rename_i hnone
    rw [Option.not_isSome_iff_eq_none] at hnone
    have hnew : name ∉ s.typeNames := by
      rw [mem_typeNames]
      rintro (⟨t, ht, rfl⟩ | ⟨t, ht, rfl⟩)
      · rw [h.distinct.baseType?_of_mem ht] at hnone
        cases hnone
      · rw [h.inputs t ht] at hname
        cases hname
    have hadd : ((s.addType { name, kind := .object })).Formed :=
      h.addType ⟨bare_nil, fun hkind => by cases hkind⟩ hnew
    simpa [Schema.addType] using hadd

theorem typeNames_addRoot {s : Schema} {root name : String} (h : name ∈ (s.addRoot root).typeNames) :
    name ∈ s.typeNames ∨ name = root := by
  rw [addRoot] at h
  split at h
  · exact Or.inl h
  · have hadd : name ∈ (s.addType { name := root, kind := .object }).typeNames := by
      simpa [addType] using h
    exact mem_typeNames_addType.mp hadd

theorem isInputName_queryType : isInputName queryType = false := by
  rw [Bool.eq_false_iff, ne_eq, isInputName_iff]
  decide

theorem isInputName_mutationType : isInputName mutationType = false := by
  rw [Bool.eq_false_iff, ne_eq, isInputName_iff]
  decide

/-! ## All types -/

theorem value_distinctTypes_cons (seen : List TypeDef) (t : TypeDef) (rest : List TypeDef) :
    (distinctTypes seen (t :: rest)).value =
      (distinctTypes (if t.name ∈ seen.map (·.name) then seen else seen ++ [t]) rest).value := by
  rw [distinctTypes]
  cases hfind : seen.find? (·.name == t.name) with
  | none =>
    rw [if_neg (find?_name_eq_none_iff.mp hfind)]
  | some first =>
    rw [if_pos (List.mem_map.mpr ⟨first, List.mem_of_find?_eq_some hfind,
      by simpa using List.find?_some hfind⟩)]
    simp only
    split <;> rfl

theorem mem_distinctTypes {seen ts : List TypeDef} {t : TypeDef}
    (h : t ∈ (distinctTypes seen ts).value) : t ∈ seen ∨ t ∈ ts := by
  induction ts generalizing seen with
  | nil => exact Or.inl h
  | cons first rest ih =>
    rw [value_distinctTypes_cons] at h
    rcases ih h with h | h
    · split at h
      · exact Or.inl h
      · rcases List.mem_append.mp h with h | h
        · exact Or.inl h
        · rw [List.mem_singleton] at h
          exact Or.inr (h ▸ List.mem_cons_self)
    · exact Or.inr (List.mem_cons_of_mem _ h)

theorem nodup_distinctTypes {seen ts : List TypeDef} (h : (seen.map (·.name)).Nodup) :
    ((distinctTypes seen ts).value.map (·.name)).Nodup := by
  induction ts generalizing seen with
  | nil => exact h
  | cons first rest ih =>
    rw [value_distinctTypes_cons]
    apply ih
    split
    · exact h
    · rename_i hnew
      rw [List.map_append, List.map_singleton]
      exact (List.perm_append_singleton _ _).nodup_iff.mpr (List.nodup_cons.mpr ⟨hnew, h⟩)

theorem formed_ofTypes {ts : List TypeDef} (scalars : List ScalarDefinition) (r : ResolverFields)
    (hts : ∀ t ∈ ts, t.Lowered) (hnodup : (ts.map (·.name)).Nodup) :
    (ofTypes ts scalars r).Formed := by
  have hempty : ({} : Schema).Formed := ⟨by simp, by simp, by simp, List.nodup_nil⟩
  have htypes : (ts.foldl Schema.addType {}).Formed :=
    hempty.addTypes hts hnodup fun _ _ h => by cases h
  have hscalars : ({ ts.foldl Schema.addType {} with customScalars := scalars } : Schema).Formed :=
    ⟨htypes.kinds, htypes.bare, htypes.inputs, htypes.nodup⟩
  -- marking that there is a root changes none of the types
  have hroot : ∀ {s : Schema} (_ : s.Formed) {name : String} (_ : isInputName name = false)
      (query mutation : Bool),
      ({ s.addRoot name with hasQuery := query, hasMutation := mutation } : Schema).Formed :=
    fun hs _ hname _ _ =>
      ⟨(hs.addRoot hname).kinds, (hs.addRoot hname).bare, (hs.addRoot hname).inputs,
        (hs.addRoot hname).nodup⟩
  unfold ofTypes
  cases r.query.isEmpty with
  | true =>
    cases r.mutation.isEmpty with
    | true => exact hscalars
    | false => exact hroot hscalars isInputName_mutationType _ true
  | false =>
    cases r.mutation.isEmpty with
    | true => exact hroot hscalars isInputName_queryType true _
    | false =>
      exact hroot (hroot hscalars isInputName_queryType true _) isInputName_mutationType _ true

theorem mem_typeNames_ofTypes {ts : List TypeDef} {scalars : List ScalarDefinition}
    {r : ResolverFields} {name : String} (h : name ∈ (ofTypes ts scalars r).typeNames) :
    name ∈ ts.map (·.name) ∨ name = queryType ∨ name = mutationType := by
  have htypes : ∀ {n}, n ∈ (ts.foldl Schema.addType {}).typeNames → n ∈ ts.map (·.name) := by
    intro n hn
    rcases typeNames_foldl_addType.mp hn with hn | hn
    · cases hn
    · exact hn
  unfold ofTypes at h
  cases hquery : r.query.isEmpty with
  | true =>
    cases hmutation : r.mutation.isEmpty with
    | true =>
      rw [hquery, hmutation] at h
      exact Or.inl (htypes h)
    | false =>
      rw [hquery, hmutation] at h
      rcases typeNames_addRoot h with h | h
      · exact Or.inl (htypes h)
      · exact Or.inr (Or.inr h)
  | false =>
    cases hmutation : r.mutation.isEmpty with
    | true =>
      rw [hquery, hmutation] at h
      rcases typeNames_addRoot h with h | h
      · exact Or.inl (htypes h)
      · exact Or.inr (Or.inl h)
    | false =>
      rw [hquery, hmutation] at h
      rcases typeNames_addRoot h with h | h
      · rcases typeNames_addRoot h with h | h
        · exact Or.inl (htypes h)
        · exact Or.inr (Or.inl h)
      · exact Or.inr (Or.inr h)

/-! ## Extensions -/

theorem nodup_keepFields (declared : List Field) (target : String)
    {kept : List ResolvedField} (fields : List ResolvedField) (h : (kept.map (·.field.name)).Nodup) :
    ((keepFields declared target kept fields).value.map (·.field.name)).Nodup := by
  induction fields generalizing kept with
  | nil => exact h
  | cons first rest ih =>
    rw [keepFields]
    split
    · exact ih h
    · rename_i hclash
      apply ih
      rw [List.map_append, List.map_singleton]
      refine (List.perm_append_singleton _ _).nodup_iff.mpr (List.nodup_cons.mpr ⟨?_, h⟩)
      intro hmem
      obtain ⟨g, hg, hname⟩ := List.mem_map.mp hmem
      have hany : kept.any (·.field.name == first.field.name) = true :=
        List.any_eq_true.mpr ⟨g, hg, by simpa using hname⟩
      simp only [clash?, hany, if_true] at hclash
      split at hclash
      · cases hclash
      · cases hclash

/-- Fields that are kept without errors are all kept. -/
theorem keepFields_eq_append {declared : List Field} {target : String}
    {kept fields : List ResolvedField}
    (h : hasErrors (keepFields declared target kept fields).diagnostics = false) :
    (keepFields declared target kept fields).value = kept ++ fields := by
  induction fields generalizing kept with
  | nil => simp [keepFields]
  | cons first rest ih =>
    rw [keepFields] at h ⊢
    split at h
    · simp [Reported.report, hasErrors] at h
    · rw [ih h, List.append_assoc, List.singleton_append]

theorem code_of_mem_keepFields {declared : List Field} {target : String}
    {kept fields : List ResolvedField} {d : Diagnostic}
    (h : d ∈ (keepFields declared target kept fields).diagnostics) :
    d.code = .duplicateFieldDefinition := by
  induction fields generalizing kept with
  | nil => cases h
  | cons f rest ih =>
    rw [keepFields] at h
    split at h
    · rcases List.mem_append.mp h with h | h
      · rw [List.mem_singleton.mp h]
        rfl
      · exact ih h
    · exact ih h

theorem code_of_mem_checkTarget {s : Schema} {e : TypeExtension} {d : Diagnostic}
    (h : d ∈ (s.checkTarget e).diagnostics) :
    d.code = .invalidExtensionTarget ∨ d.code = .unknownTargetType := by
  unfold checkTarget at h
  split at h
  · cases h
  · rw [List.mem_singleton.mp h]
    exact Or.inl rfl
  · rw [List.mem_singleton.mp h]
    exact Or.inr rfl

theorem checkTarget_object {s : Schema} {e : TypeExtension}
    (h : hasErrors (s.checkTarget e).diagnostics = false) :
    ∃ t, s.baseType? e.target = some t ∧ t.kind = .object := by
  have hkind : s.kindOf? e.target = some .object := by
    unfold checkTarget at h
    split at h
    · assumption
    · cases h
    · cases h
  unfold kindOf? at hkind
  cases hbase : s.baseType? e.target with
  | some t =>
    rw [hbase] at hkind
    exact ⟨t, rfl, Option.some.inj hkind⟩
  | none =>
    rw [hbase] at hkind
    split at hkind
    · rename_i hother
      cases hother
    · split at hkind
      · cases hkind
      · split at hkind
        · cases hkind
        · cases hkind

/-- Extensions that are checked without errors extend objects and keep all their fields. -/
theorem checkedExtension_ok {s : Schema} {entry : String × List ResolvedField}
    (h : hasErrors (s.checkedExtension entry).diagnostics = false) :
    (∃ t, s.baseType? entry.1 = some t ∧ t.kind = .object) ∧
      (s.checkedExtension entry).value = ⟨entry.1, entry.2⟩ ∧
      (entry.2.map (·.field.name)).Nodup := by
  simp only [checkedExtension, extension, Reported.diagnostics_bind, Reported.value_bind,
    Reported.diagnostics_pure, Reported.value_pure, List.append_nil, hasErrors_append,
    Bool.or_eq_false_iff] at h
  have hkept := keepFields_eq_append h.1
  rw [List.nil_append] at hkept
  refine ⟨checkTarget_object h.2, ?_, ?_⟩
  · simp only [checkedExtension, extension, Reported.value_bind, Reported.value_pure, hkept]
  · rw [← hkept]
    exact nodup_keepFields _ _ _ List.nodup_nil

end Schema

/-! ## The whole schema -/

theorem Schema.customScalars_addRoot (s : Schema) (name : String) :
    (s.addRoot name).customScalars = s.customScalars := by
  rw [addRoot]
  split <;> rfl

theorem Schema.customScalars_ofTypes (types : List TypeDef) (scalars : List ScalarDefinition)
    (r : ResolverFields) : (ofTypes types scalars r).customScalars = scalars := by
  unfold ofTypes
  cases r.query.isEmpty <;> cases r.mutation.isEmpty <;> simp [customScalars_addRoot]

section Integrate

variable {types : List TypeDef} {r : ResolverFields} {scalars : List ScalarDefinition}

/-- The types and the scalars of a schema, before it is extended. -/
def Schema.unextended (types : List TypeDef) (r : ResolverFields)
    (scalars : List ScalarDefinition) : Schema :=
  ofTypes (distinctTypes [] (types ++ r.types)).value scalars r

theorem value_integrate (types : List TypeDef) (r : ResolverFields)
    (scalars : List ScalarDefinition) :
    (integrate types r scalars).value =
      { Schema.unextended types r scalars with
        extensions := (Schema.targets r).map fun entry =>
          ((Schema.unextended types r scalars).checkedExtension entry).value } := by
  simp only [integrate, Schema.unextended, Reported.value_bind, Reported.value_pure,
    Reported.value_each]

theorem customScalars_integrate (types : List TypeDef) (r : ResolverFields)
    (scalars : List ScalarDefinition) :
    (integrate types r scalars).value.customScalars = scalars := by
  rw [value_integrate]
  exact Schema.customScalars_ofTypes _ _ _

theorem formed_integrate (htypes : ∀ t ∈ types, t.Lowered) (hr : ∀ t ∈ r.types, t.Lowered) :
    (integrate types r scalars).value.Formed := by
  have hformed : (Schema.unextended types r scalars).Formed := by
    refine Schema.formed_ofTypes scalars r ?_ (Schema.nodup_distinctTypes List.nodup_nil)
    intro t ht
    rcases Schema.mem_distinctTypes ht with ht | ht
    · cases ht
    · rcases List.mem_append.mp ht with ht | ht
      · exact htypes t ht
      · exact hr t ht
  rw [value_integrate]
  exact ⟨hformed.kinds, hformed.bare, hformed.inputs, hformed.nodup⟩

/-- Without errors, every extension adds the fields of its resolvers to an object. -/
theorem integrate_ok (h : hasErrors (integrate types r scalars).diagnostics = false) :
    (integrate types r scalars).value.extensions =
        (Schema.targets r).map (fun entry => ⟨entry.1, entry.2⟩) ∧
      ∀ entry ∈ Schema.targets r,
        (∃ t ∈ (integrate types r scalars).value.baseTypes, t.name = entry.1 ∧ t.kind = .object) ∧
          (entry.2.map (·.field.name)).Nodup := by
  simp only [integrate, Reported.diagnostics_bind, Reported.diagnostics_pure, List.append_nil,
    hasErrors_append, Bool.or_eq_false_iff] at h
  have hentry : ∀ entry ∈ Schema.targets r,
      hasErrors ((Schema.unextended types r scalars).checkedExtension entry).diagnostics = false :=
    fun entry hmem => Reported.hasErrors_of_mem_each h.2 hmem
  rw [value_integrate]
  refine ⟨List.map_congr_left fun entry hmem =>
    (Schema.checkedExtension_ok (hentry entry hmem)).2.1, ?_⟩
  intro entry hmem
  obtain ⟨⟨t, hfind, hkind⟩, -, hnodup⟩ := Schema.checkedExtension_ok (hentry entry hmem)
  obtain ⟨ht, hname⟩ := Schema.baseType?_eq_some hfind
  exact ⟨⟨t, ht, hname, hkind⟩, hnodup⟩

end Integrate

end SchemaCompiler.GraphQL

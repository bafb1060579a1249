import SchemaCompiler.Proofs.Schema.Assembly

/-!
# Which fields resolvers add to a schema

Resolvers are met in groups, one for each owner, and every group extends one type. `Sifts` reads a
group in order: a resolver is refused when the type declares a field of its name, or when one before
it was kept under that name. A schema keeps exactly the fields that pass, in order, and reports every
refused resolver once, so that no resolver is lost on the way.
-/

namespace SchemaCompiler.GraphQL

/-! ## Sifting a group -/

/-- Why a resolver is refused. -/
inductive Clash where
  | declared
  | repeated

def Clash.text : Clash → String
  | declared => " is declared on the type and also defined by a resolver"
  | repeated => " is defined by more than one resolver"

/-- Of a group, the resolvers that are kept and those that are refused; `declared` are the names of
the fields that the type has. -/
inductive Sifts (declared : List String) :
    List Resolver → List Resolver → List (Resolver × Clash) → Prop where
  | nil : Sifts declared [] [] []
  | keep {group kept : List Resolver} {refused : List (Resolver × Clash)} {r : Resolver}
      (h : Sifts declared group kept refused) (hnew : r.fieldName ∉ declared)
      (hfirst : r.fieldName ∉ kept.map (·.fieldName)) :
      Sifts declared (group ++ [r]) (kept ++ [r]) refused
  | declared {group kept : List Resolver} {refused : List (Resolver × Clash)} {r : Resolver}
      (h : Sifts declared group kept refused) (hname : r.fieldName ∈ declared) :
      Sifts declared (group ++ [r]) kept (refused ++ [(r, .declared)])
  | repeated {group kept : List Resolver} {refused : List (Resolver × Clash)} {r : Resolver}
      (h : Sifts declared group kept refused) (hnew : r.fieldName ∉ declared)
      (hname : r.fieldName ∈ kept.map (·.fieldName)) :
      Sifts declared (group ++ [r]) kept (refused ++ [(r, .repeated)])

/-- Every resolver of a group is kept or refused. -/
theorem Sifts.length_eq {declared : List String} {group kept : List Resolver}
    {refused : List (Resolver × Clash)} (h : Sifts declared group kept refused) :
    group.length = kept.length + refused.length := by
  induction h with
  | nil => rfl
  | keep h hnew hfirst ih => simp [ih]; omega
  | declared h hname ih => simp [ih]; omega
  | repeated h hnew hname ih => simp [ih]; omega

def fieldText (target name : String) : String := "field \"" ++ target ++ "." ++ name ++ "\""

/-- What is reported of a refused resolver. -/
def refusal (target : String) (entry : Resolver × Clash) : Diagnostic :=
  .error .duplicateFieldDefinition (fieldText target entry.1.fieldName ++ entry.2.text)
    (some entry.1.location)

namespace Schema

theorem clash?_eq (declared : List Field) (kept : List ResolvedField) (target name : String) :
    clash? declared kept target name =
      if name ∈ declared.map (·.name) then some (fieldText target name ++ Clash.declared.text)
      else if name ∈ kept.map (·.field.name) then
        some (fieldText target name ++ Clash.repeated.text)
      else none := by
  rw [clash?]
  simp only [List.any_eq_true, beq_iff_eq, List.mem_map]
  rfl

theorem names_of_makes {resolvers : List Resolver} {fields : List ResolvedField}
    (h : List.Forall₂ Resolver.Makes resolvers fields) :
    fields.map (·.field.name) = resolvers.map (·.fieldName) := by
  induction h with
  | nil => rfl
  | cons hfirst _ ih => rw [List.map_cons, List.map_cons, hfirst.name, ih]

/-- Keeping fields sifts the resolvers that they are made for. -/
theorem keepFields_sifts (declared : List Field) (target : String)
    {before kept rest : List Resolver} {refused : List (Resolver × Clash)}
    {keptFields fields : List ResolvedField}
    (h : Sifts (declared.map (·.name)) before kept refused)
    (hkept : List.Forall₂ Resolver.Makes kept keptFields)
    (hrest : List.Forall₂ Resolver.Makes rest fields) :
    ∃ kept' refused', Sifts (declared.map (·.name)) (before ++ rest) kept' (refused ++ refused') ∧
      List.Forall₂ Resolver.Makes kept' (keepFields declared target keptFields fields).value ∧
        (keepFields declared target keptFields fields).diagnostics =
          refused'.map (refusal target) := by
  induction hrest generalizing before kept refused keptFields with
  | nil => exact ⟨kept, [], by simpa using h, hkept, rfl⟩
  | @cons r f rest fields hmakes _ ih =>
    have hnames := names_of_makes hkept
    rw [keepFields, clash?_eq, hnames, hmakes.name, List.append_cons]
    -- a refused resolver is reported where it stands, before those of the rest
    have refuse : ∀ clash : Clash,
        Sifts (declared.map (·.name)) (before ++ [r]) kept (refused ++ [(r, clash)]) →
        ∃ kept' refused', Sifts (declared.map (·.name)) (before ++ [r] ++ rest) kept'
            (refused ++ refused') ∧
          List.Forall₂ Resolver.Makes kept' (keepFields declared target keptFields fields).value ∧
            Diagnostic.error .duplicateFieldDefinition
                (fieldText target r.fieldName ++ clash.text) f.field.location ::
              (keepFields declared target keptFields fields).diagnostics =
                refused'.map (refusal target) := by
      intro clash hsifts
      obtain ⟨kept', refused', hsifts, hfields, hreports⟩ := ih hsifts hkept
      refine ⟨kept', (r, clash) :: refused', ?_, hfields, ?_⟩
      · rwa [List.append_cons refused]
      · rw [hreports, hmakes.location]
        rfl
    by_cases hdeclared : r.fieldName ∈ declared.map (·.name)
    · rw [if_pos hdeclared]
      exact refuse .declared (h.declared hdeclared)
    · rw [if_neg hdeclared]
      by_cases hrepeated : r.fieldName ∈ kept.map (·.fieldName)
      · rw [if_pos hrepeated]
        exact refuse .repeated (h.repeated hdeclared hrepeated)
      · rw [if_neg hrepeated]
        exact ih (h.keep hdeclared hrepeated) (forall₂_snoc hkept hmakes)

/-- The names of the fields that a type of the schema declares. -/
def declaredNames (s : Schema) (target : String) : List String :=
  (((s.baseType? target).map (·.fields)).getD []).map (·.name)

/-- The faults of fields that are defined twice. -/
def duplicates (ds : List Diagnostic) : List Diagnostic :=
  ds.filter (·.code = .duplicateFieldDefinition)

theorem duplicates_append (a b : List Diagnostic) :
    duplicates (a ++ b) = duplicates a ++ duplicates b :=
  List.filter_append a b

theorem duplicates_eq_nil {ds : List Diagnostic} (h : ∀ d ∈ ds, d.code ≠ .duplicateFieldDefinition) :
    duplicates ds = [] :=
  List.filter_eq_nil_iff.mpr fun d hd => by simpa using h d hd

theorem duplicates_refusals (target : String) (refused : List (Resolver × Clash)) :
    duplicates (refused.map (refusal target)) = refused.map (refusal target) := by
  refine List.filter_eq_self.mpr fun d hd => ?_
  obtain ⟨entry, -, rfl⟩ := List.mem_map.mp hd
  rfl

theorem duplicates_checkTarget (s : Schema) (e : TypeExtension) :
    duplicates (s.checkTarget e).diagnostics = [] := by
  refine duplicates_eq_nil fun d hd => ?_
  rcases code_of_mem_checkTarget hd with hcode | hcode <;> simp [hcode]

theorem duplicates_distinctTypes (seen types : List TypeDef) :
    duplicates (distinctTypes seen types).diagnostics = [] := by
  induction types generalizing seen with
  | nil => rfl
  | cons t rest ih =>
    rw [distinctTypes]
    split
    · exact ih _
    · -- a type that differs from the first of its name is a fault of another code
      simp only []
      split
      · exact ih _
      · exact ih _

/-- An extension has the fields of the resolvers that pass, and reports the others. -/
theorem checkedExtension_sifts (s : Schema) (target : String) {group : List Resolver}
    {fields : List ResolvedField} (h : List.Forall₂ Resolver.Makes group fields) :
    ∃ kept refused, Sifts (s.declaredNames target) group kept refused ∧
      (s.checkedExtension (target, fields)).value.target = target ∧
      List.Forall₂ Resolver.Makes kept (s.checkedExtension (target, fields)).value.fields ∧
      duplicates (s.checkedExtension (target, fields)).diagnostics =
        refused.map (refusal target) := by
  obtain ⟨kept, refused, hsifts, hfields, hreports⟩ :=
    keepFields_sifts (((s.baseType? target).map (·.fields)).getD []) target .nil .nil h
  refine ⟨kept, refused, hsifts, rfl, hfields, ?_⟩
  simp only [checkedExtension, extension, Reported.diagnostics_bind, Reported.diagnostics_pure,
    List.append_nil, duplicates_append, duplicates_checkTarget, hreports, duplicates_refusals]

end Schema

/-! ## All groups -/

namespace ResolverFields

/-- The owners of resolvers in the order of their extensions: the query type, the mutation type, and
the others as they are met. -/
def owners (resolvers : List Resolver) : List Owner :=
  ([.query, .mutation].filter fun owner => group resolvers owner ≠ []) ++
    (parents resolvers).map .type

theorem mem_owners_iff {resolvers : List Resolver} {owner : Owner} :
    owner ∈ owners resolvers ↔ group resolvers owner ≠ [] := by
  rw [owners, List.mem_append, List.mem_filter, List.mem_map]
  constructor
  · rintro (⟨-, hgroup⟩ | ⟨name, hname, rfl⟩)
    · simpa using hgroup
    · exact mem_parents_iff.mp hname
  · intro hgroup
    cases owner with
    | type name => exact Or.inr ⟨name, mem_parents_iff.mpr hgroup, rfl⟩
    | _ => exact Or.inl ⟨by simp, by simpa using hgroup⟩

theorem nodup_owners (resolvers : List Resolver) : (owners resolvers).Nodup := by
  rw [owners, List.nodup_append]
  refine ⟨List.Pairwise.filter _ (by decide), ?_, ?_⟩
  · exact List.Pairwise.map Owner.type (fun _ _ hne h => hne (Owner.type.inj h))
      (nodup_eraseDups _)
  · rintro owner howner other hother rfl
    obtain ⟨name, -, rfl⟩ := List.mem_map.mp hother
    simp at howner

/-- A schema is extended with the fields of every owner that has resolvers. -/
theorem Gathers.targets_eq {fields : ResolverFields} {resolvers : List Resolver}
    (h : fields.Gathers resolvers) :
    Schema.targets fields =
      (owners resolvers).map fun owner => (owner.target, fields.fieldsOf owner) := by
  have hempty : ∀ owner,
      (fields.fieldsOf owner).isEmpty = decide (group resolvers owner = []) := by
    intro owner
    rw [Bool.eq_iff_iff, List.isEmpty_iff, decide_eq_true_iff, ← List.length_eq_zero_iff,
      ← List.length_eq_zero_iff, (h.members owner).length_eq]
  have hkeys : fields.extensions.keys.Nodup := h.keys ▸ nodup_eraseDups _
  have hroots : [(queryType, fields.query), (mutationType, fields.mutation)] =
      [Owner.query, .mutation].map fun owner => (owner.target, fields.fieldsOf owner) := rfl
  rw [Schema.targets, hroots, List.filter_map, Table.entries_eq_map_keys hkeys [], h.keys, owners,
    List.map_append, List.map_map]
  congr 2
  refine List.filter_congr fun owner _ => ?_
  simp [hempty]

/-- Every resolver with an owner is in the group of one owner. -/
theorem length_owned (resolvers : List Resolver) :
    (resolvers.filter fun r => (owner? r).isSome).length =
      ((owners resolvers).map fun owner => (group resolvers owner).length).sum := by
  rw [← sum_length_groups owner? (nodup_owners resolvers)]
  · rfl
  · intro r hr owner howner
    exact mem_owners_iff.mpr (List.ne_nil_of_mem (mem_group_iff.mpr ⟨hr, howner⟩))

end ResolverFields

/-! ## The extended schema -/

open ResolverFields (Owner group owners)

/-- What a schema makes of resolvers: a part of each group is kept as the fields of an extension, and
the rest is reported. -/
structure Sorts (resolvers : List Resolver) (built : Reported Schema)
    (kept : Owner → List Resolver) (refused : Owner → List (Resolver × Clash)) : Prop where
  sifts : ∀ owner, Sifts (built.value.declaredNames owner.target) (group resolvers owner)
    (kept owner) (refused owner)
  extensions : List.Forall₂
    (fun owner e => e.target = owner.target ∧ List.Forall₂ Resolver.Makes (kept owner) e.fields)
    (owners resolvers) built.value.extensions
  reports : Schema.duplicates built.diagnostics =
    (owners resolvers).flatMap fun owner => (refused owner).map (refusal owner.target)

theorem integrate_sorts {resolvers : List Resolver} {fields : ResolverFields}
    (h : fields.Gathers resolvers) (types : List TypeDef) (scalars : List ScalarDefinition) :
    ∃ kept refused, Sorts resolvers (integrate types fields scalars) kept refused := by
  let s := Schema.unextended types fields scalars
  choose kept refused hsifts htarget hfields hreports using fun owner : Owner =>
    s.checkedExtension_sifts owner.target (h.members owner)
  have hvalue : (integrate types fields scalars).value = { s with
      extensions := (owners resolvers).map fun owner =>
        (s.checkedExtension (owner.target, fields.fieldsOf owner)).value } := by
    rw [value_integrate, h.targets_eq, List.map_map]
    rfl
  refine ⟨kept, refused, ?_, ?_, ?_⟩
  · rw [hvalue]
    exact hsifts
  · rw [hvalue, List.forall₂_map_right_iff, List.forall₂_same]
    exact fun owner _ => ⟨htarget owner, hfields owner⟩
  · rw [integrate, Reported.diagnostics_bind, Schema.duplicates_append,
      Schema.duplicates_distinctTypes, List.nil_append, Reported.diagnostics_bind,
      Reported.diagnostics_pure, List.append_nil, Reported.diagnostics_each, h.targets_eq,
      List.flatMap_map, Schema.duplicates, List.filter_flatMap]
    exact List.flatMap_congr fun owner _ => hreports owner

/-- Every resolver with an owner is a field of an extension, or is reported once. -/
theorem Sorts.length_eq {resolvers : List Resolver} {built : Reported Schema}
    {kept : Owner → List Resolver} {refused : Owner → List (Resolver × Clash)}
    (h : Sorts resolvers built kept refused) :
    (resolvers.filter fun r => (ResolverFields.owner? r).isSome).length =
      (built.value.extensions.map (·.fields.length)).sum +
        (Schema.duplicates built.diagnostics).length := by
  have hkept : built.value.extensions.map (·.fields.length) =
      (owners resolvers).map fun owner => (kept owner).length := by
    have hlengths := h.extensions
    generalize owners resolvers = all, built.value.extensions = extensions at hlengths ⊢
    induction hlengths with
    | nil => rfl
    | cons hfirst _ ih => rw [List.map_cons, List.map_cons, ih, hfirst.2.length_eq]
  rw [ResolverFields.length_owned, h.reports, hkept, List.length_flatMap, ← List.sum_map_add]
  refine congrArg List.sum (List.map_congr_left fun owner _ => ?_)
  rw [List.length_map]
  exact (h.sifts owner).length_eq

theorem duplicates_shapes {ds : List Diagnostic} (h : ∀ d ∈ ds, d.code ∈ Lowering.shapeCodes) :
    Schema.duplicates ds = [] := by
  refine Schema.duplicates_eq_nil fun d hd heq => ?_
  have hcode := h d hd
  rw [heq] at hcode
  revert hcode
  decide

/-- Every resolver with an owner becomes one field of the extension of its owner, or is refused and
reported once. Of a group, the resolvers are kept in order that neither repeat a field that the type
declares nor one that was kept. -/
theorem resolverFields_conserved (resolvers : List Resolver) (types : List TypeDef)
    (scalars : List ScalarDefinition) :
    let built := lowerResolvers resolvers >>= fun fields => integrate types fields scalars
    ∃ kept refused, Sorts resolvers built kept refused ∧
      (resolvers.filter fun r => (ResolverFields.owner? r).isSome).length =
        (built.value.extensions.map (·.fields.length)).sum +
          (Schema.duplicates built.diagnostics).length := by
  intro built
  obtain ⟨hgathers, hshapes⟩ := lowerResolvers_gathers resolvers
  obtain ⟨kept, refused, hsorts⟩ := integrate_sorts hgathers types scalars
  have hreports : Schema.duplicates built.diagnostics =
      Schema.duplicates (integrate types (lowerResolvers resolvers).value scalars).diagnostics := by
    rw [show built.diagnostics = (lowerResolvers resolvers).diagnostics ++
      (integrate types (lowerResolvers resolvers).value scalars).diagnostics from rfl,
      Schema.duplicates_append, duplicates_shapes hshapes, List.nil_append]
  have hbuilt : Sorts resolvers built kept refused :=
    ⟨hsorts.sifts, hsorts.extensions, hreports.trans hsorts.reports⟩
  exact ⟨kept, refused, hbuilt, hbuilt.length_eq⟩

end SchemaCompiler.GraphQL

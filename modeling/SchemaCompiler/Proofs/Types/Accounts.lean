import SchemaCompiler.Generate
import SchemaCompiler.Proofs.Types.Reports

/-!
# Every exported type is accounted for

Lowering refuses some exported types, and leaves out what was made for a written-out object where a
declared type has its name. Nothing is left out silently. Every exported type has an outcome, in
order: a schema type with its name, file and place, or an error at its place with the reason, and so
has every type that was made. The types of the schema are the outcomes that are types, those of
declarations first, and no name is taken twice. The other outcomes are among the diagnostics, each
on its own, behind all that was reported while types and scalars were collected.
-/

namespace SchemaCompiler.GraphQL

/-! ## Outcomes -/

/-- Why an exported type is refused, next to the types that a schema ends with. -/
inductive Refusal (ts : List TypeDef) (t : ExportedType) : Code → Prop where
  | reserved (h : isBuiltinScalar t.name = true) : Refusal ts t .reservedTypeName
  | repeated (h : t.name ∈ ts.map (·.name)) : Refusal ts t .duplicateTypeName
  /-- Only objects have the names of input objects. -/
  | notObject (hname : isInputName t.name = true)
      (hkind : t.kind = .graphqlInterface ∨ t.kind = .enum ∨ t.kind = .union ∧ t.inlineMembers = []) :
      Refusal ts t .invalidInputType
  /-- Unions of written-out objects have such names. -/
  | inlineUnion (hname : isInputName t.name = false) (hkind : t.kind = .union)
      (hmembers : t.inlineMembers ≠ []) : Refusal ts t .unsupportedSyntax

/-- What becomes of an exported type: a type of the schema, or an error at its place. -/
inductive Accounted (ts : List TypeDef) (t : ExportedType) : TypeDef ⊕ Diagnostic → Prop where
  | kept {d : TypeDef} (hname : d.name = t.name) (hfile : d.sourceFile = some t.sourceFile)
      (hlocation : d.location = some t.location) : Accounted ts t (.inl d)
  | refused {code : Code} (h : Refusal ts t code) (message : String) :
      Accounted ts t (.inr (.error code message (some t.location)))

/-- What becomes of a type that was made for a written-out object. -/
inductive Added (ts : List TypeDef) (t : TypeDef) : TypeDef ⊕ Diagnostic → Prop where
  | kept : Added ts t (.inl t)
  | collides (h : t.name ∈ ts.map (·.name)) (message : String) :
      Added ts t (.inr (.error .duplicateTypeName message t.location))

namespace Lowering

variable {t : ExportedType}

/-- What lowering an exported type reports and returns is its outcome, whatever else the schema
holds. -/
def Decides (t : ExportedType) (added : List Diagnostic) (result : Option TypeDef) : Prop :=
  ∃ outcome, (∀ ts, Accounted ts t outcome) ∧ result = outcome.getLeft? ∧
    outcome.getRight?.toList.Sublist added

theorem decides_some {added : List Diagnostic} {d : TypeDef} (hname : d.name = t.name)
    (hfile : d.sourceFile = some t.sourceFile) (hlocation : d.location = some t.location) :
    Decides t added (some d) :=
  ⟨.inl d, fun _ => .kept hname hfile hlocation, rfl, List.nil_sublist added⟩

theorem decides_none {code : Code} (h : ∀ ts, Refusal ts t code) (message : String) :
    Decides t [.error code message (some t.location)] none :=
  ⟨.inr _, fun ts => .refused (h ts) message, rfl, List.Sublist.refl _⟩

theorem outputObject_decides (t : ExportedType) (kind : Kind) :
    Reports (outputObject t kind) (Decides t) :=
  (fieldsOf_reports .output t.name t.fields).bind fun _ => .pure fun _ _ => decides_some rfl rfl rfl

theorem Route.decides {m : Lowering (Option TypeDef)} (h : Route t m) : Reports m (Decides t) := by
  cases h with
  | inputObject hname hkind =>
    exact (fieldsOf_reports .input t.name t.fields).bind fun _ =>
      .pure fun _ _ => decides_some rfl rfl rfl
  | object hname hkind => exact outputObject_decides t .object
  | graphqlInterface hname hkind => exact outputObject_decides t .interface
  | enum hname hkind =>
    exact Reports.bind (enumValues_quiet t t.enumMembers) fun _ =>
      .pure fun _ _ => decides_some rfl rfl rfl
  | oneOf hname hkind =>
    exact Reports.bind (oneOfFields_quiet t t.inlineMembers) fun _ =>
      .pure fun _ _ => decides_some rfl rfl rfl
  | union hname hkind hmembers => exact .pure (decides_some rfl rfl rfl)
  | invalidInput hname hkind =>
    exact .behind_report (.pure (decides_none (fun _ => .notObject hname hkind) _))
  | inlineUnion hname hkind hmembers =>
    exact .behind_report (.pure (decides_none (fun _ => .inlineUnion hname hkind hmembers) _))

/-- Types are lowered one by one. Each has its outcome, and those that are errors are reported in
order. -/
theorem typeDefs_accounts (types : List ExportedType) (done : List TypeDef) :
    Reports (typeDefs done types) fun added result =>
      ∃ outcomes, List.Forall₂ (Accounted result) types outcomes ∧
        result = done ++ outcomes.filterMap Sum.getLeft? ∧
          (outcomes.filterMap Sum.getRight?).Sublist added := by
  induction types generalizing done with
  | nil => exact .pure ⟨[], .nil, (List.append_nil done).symm, .slnil⟩
  | cons t rest ih =>
    rw [typeDefs]
    split
    · rename_i hbuiltin
      refine .behind_report ((ih done).mono fun more result h => ?_)
      obtain ⟨outcomes, houtcomes, hresult, hreports⟩ := h
      exact ⟨.inr (reservedName t) :: outcomes, .cons (.refused (.reserved hbuiltin) _) houtcomes,
        hresult, hreports.cons_cons _⟩
    · split
      · rename_i hrepeated
        refine .behind_report ((ih done).mono fun more result h => ?_)
        obtain ⟨outcomes, houtcomes, hresult, hreports⟩ := h
        have hname : t.name ∈ result.map (·.name) := by
          obtain ⟨d, hd, hsame⟩ := List.any_eq_true.mp hrepeated
          rw [hresult, ← beq_iff_eq.mp hsame]
          exact List.mem_map_of_mem (List.mem_append_left _ hd)
        exact ⟨.inr (repeatedName t) :: outcomes, .cons (.refused (.repeated hname) _) houtcomes,
          hresult, hreports.cons_cons _⟩
      · refine (typeDef_route t).decides.bind fun first => ?_
        cases first with
        | none =>
          refine (ih done).mono fun more result h added hfirst => ?_
          obtain ⟨outcomes, houtcomes, hresult, hreports⟩ := h
          obtain ⟨d | d, hd, hnone, hadded⟩ := hfirst
          · cases hnone
          · exact ⟨.inr d :: outcomes, .cons (hd result) houtcomes, hresult, hadded.append hreports⟩
        | some d =>
          refine (ih (done ++ [d])).mono fun more result h added hfirst => ?_
          obtain ⟨outcomes, houtcomes, hresult, hreports⟩ := h
          obtain ⟨d' | d', hd, hsome, -⟩ := hfirst
          · cases hsome
            refine ⟨.inl d :: outcomes, .cons (hd result) houtcomes, ?_,
              hreports.trans (List.sublist_append_right added more)⟩
            rw [hresult, List.append_assoc]
            rfl
          · cases hsome

end Lowering

theorem addInline_accounts (types more : List TypeDef) :
    ∃ outcomes, List.Forall₂ (Added (addInline types more).value) more outcomes ∧
      (addInline types more).value = types ++ outcomes.filterMap Sum.getLeft? ∧
        (addInline types more).diagnostics = outcomes.filterMap Sum.getRight? := by
  induction more generalizing types with
  | nil => exact ⟨[], .nil, (List.append_nil types).symm, rfl⟩
  | cons t rest ih =>
    rw [addInline]
    split
    · rename_i hcollides
      obtain ⟨outcomes, houtcomes, hvalue, hreports⟩ := ih types
      have hname : t.name ∈ (addInline types rest).value.map (·.name) := by
        obtain ⟨d, hd, hsame⟩ := List.any_eq_true.mp hcollides
        rw [hvalue, ← beq_iff_eq.mp hsame]
        exact List.mem_map_of_mem (List.mem_append_left _ hd)
      exact ⟨.inr _ :: outcomes, .cons (.collides hname _) houtcomes, hvalue,
        congrArg (_ :: ·) hreports⟩
    · obtain ⟨outcomes, houtcomes, hvalue, hreports⟩ := ih (types ++ [t])
      refine ⟨.inl t :: outcomes, .cons .kept houtcomes, ?_, hreports⟩
      rw [hvalue, List.append_assoc]
      rfl

/-! ## The whole stage -/

/-- The schema types of what was collected. What was reported of types and scalars stands before what
lowering reports. -/
def lowerCollected (types : Reported (List ExportedType)) (scalars : ScalarsResult) :
    Reported (List TypeDef) :=
  ⟨(lowerTypes types.value).value,
    types.diagnostics ++ scalars.diagnostics ++ (lowerTypes types.value).diagnostics⟩

/-- An analysis lowers what it collected, and reports first what came of this. -/
theorem lowerCollected_analyze (p : Program) (mappings : List ScalarMapping) :
    let a := analyze p mappings
    let lowered := lowerCollected a.types a.scalars
    a.typeDefs.value = lowered.value ∧
      a.schemaDiagnostics = lowered.diagnostics ++
        (a.resolvers.diagnostics ++ a.resolverFields.diagnostics) ++ a.schema.diagnostics :=
  ⟨rfl, rfl⟩

/-- A stage has lowered exported types and says what became of each of them, and of each type that
was made for a written-out object. -/
structure Accounts (types : List ExportedType) (before : List Diagnostic)
    (lowered : Reported (List TypeDef)) (declared made : List (TypeDef ⊕ Diagnostic)) : Prop where
  distinct : (lowered.value.map (·.name)).Nodup
  exported : List.Forall₂ (Accounted lowered.value) types declared
  inline : List.Forall₂ (Added lowered.value) (inlineTypes types) made
  value : lowered.value = declared.filterMap Sum.getLeft? ++ made.filterMap Sum.getLeft?
  reports : ∃ own, lowered.diagnostics = before ++ own ∧
    (declared.filterMap Sum.getRight? ++ made.filterMap Sum.getRight?).Sublist own

theorem Accounted.mono {ts more : List TypeDef} (hsub : ts ⊆ more) {t : ExportedType}
    {outcome : TypeDef ⊕ Diagnostic} (h : Accounted ts t outcome) : Accounted more t outcome := by
  cases h with
  | kept hname hfile hlocation => exact .kept hname hfile hlocation
  | refused hrefusal message =>
    refine .refused ?_ message
    cases hrefusal with
    | reserved hbuiltin => exact .reserved hbuiltin
    | repeated hname => exact .repeated (List.map_subset _ hsub hname)
    | notObject hname hkind => exact .notObject hname hkind
    | inlineUnion hname hkind hmembers => exact .inlineUnion hname hkind hmembers

/-- Lowering loses nothing silently. -/
theorem lowerCollected_accounts (types : Reported (List ExportedType)) (scalars : ScalarsResult) :
    ∃ declared made, Accounts types.value (types.diagnostics ++ scalars.diagnostics)
      (lowerCollected types scalars) declared made := by
  obtain ⟨added, hadded, declared, hexported, hdeclared, hreports⟩ :=
    Lowering.typeDefs_accounts types.value [] {}
  obtain ⟨made, hinline, hvalue, hcollisions⟩ :=
    addInline_accounts ((Lowering.typeDefs [] types.value).run {}).1 (inlineTypes types.value)
  have hresult : (lowerCollected types scalars).value =
      ((Lowering.typeDefs [] types.value).run {}).1 ++ made.filterMap Sum.getLeft? := hvalue
  refine ⟨declared, made, lowerTypes_nodup types.value, ?_, hinline, ?_,
    added ++ made.filterMap Sum.getRight?, ?_, hreports.append (List.Sublist.refl _)⟩
  · have hsub := hresult ▸ List.subset_append_left _ (made.filterMap Sum.getLeft?)
    exact hexported.imp fun _ _ h => h.mono hsub
  · rw [hresult, hdeclared, List.nil_append]
  · rw [← hcollisions]
    exact congrArg (types.diagnostics ++ scalars.diagnostics ++ ·) (congrArg (· ++ _) hadded)

end SchemaCompiler.GraphQL

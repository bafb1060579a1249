import SchemaCompiler.Proofs.Schema.Assembly

/-!
# Which types end up in a schema

A schema holds the types that it is put together from and the root types that its resolvers need. Of
types with one name it keeps the first; without errors the others are equal to it, and equal types
are alike in all that is written out of them by name.
-/

namespace SchemaCompiler.GraphQL

/-! ## Types that are alike -/

/-- Two types have the same name and kind and, by name, the same parts. -/
structure Alike (a b : TypeDef) : Prop where
  name : a.name = b.name
  kind : a.kind = b.kind
  fields : a.fields.map (·.name) = b.fields.map (·.name)
  interfaces : a.interfaces = b.interfaces
  values : a.enumValues.map (·.name) = b.enumValues.map (·.name)

theorem Alike.refl (t : TypeDef) : Alike t t := ⟨rfl, rfl, rfl, rfl, rfl⟩

theorem Alike.trans {a b c : TypeDef} (h : Alike a b) (h' : Alike b c) : Alike a c :=
  ⟨h.name.trans h'.name, h.kind.trans h'.kind, h.fields.trans h'.fields,
    h.interfaces.trans h'.interfaces, h.values.trans h'.values⟩

theorem map_eq_of_beq {α β : Type} [BEq α] {f : α → β}
    (hf : ∀ a b : α, (a == b) = true → f a = f b) {xs ys : List α} (h : (xs == ys) = true) :
    xs.map f = ys.map f := by
  induction xs generalizing ys with
  | nil =>
    cases ys with
    | nil => rfl
    | cons y ys => cases h
  | cons x xs ih =>
    cases ys with
    | nil => cases h
    | cons y ys =>
      rw [List.cons_beq_cons, Bool.and_eq_true] at h
      rw [List.map_cons, List.map_cons, hf x y h.1, ih h.2]

theorem Field.beq_def (a b : Field) :
    (a == b) = (a.name == b.name && (a.type == b.type && (a.args == b.args &&
      (a.description == b.description && (a.deprecated == b.deprecated &&
        a.location == b.location))))) := rfl

theorem Field.name_eq_of_beq (a b : Field) (h : (a == b) = true) : a.name = b.name := by
  rw [Field.beq_def, Bool.and_eq_true] at h
  exact eq_of_beq h.1

theorem EnumValue.name_eq_of_beq (a b : EnumValue) (h : (a == b) = true) : a.name = b.name := by
  have hdef : (a == b) = (a.name == b.name && (a.literal == b.literal &&
    (a.description == b.description && a.deprecated == b.deprecated))) := rfl
  rw [hdef, Bool.and_eq_true] at h
  exact eq_of_beq h.1

theorem alike_of_beq {a b : TypeDef} (h : (a == b) = true) : Alike a b := by
  have hdef : (a == b) = (a.name == b.name && (a.kind == b.kind && (a.fields == b.fields &&
    (a.unionMembers == b.unionMembers && (a.enumValues == b.enumValues &&
      (a.interfaces == b.interfaces && (a.oneOf == b.oneOf && (a.description == b.description &&
        (a.deprecated == b.deprecated && (a.sourceFile == b.sourceFile &&
          a.location == b.location)))))))))) := rfl
  rw [hdef] at h
  simp only [Bool.and_eq_true] at h
  obtain ⟨hname, hkind, hfields, -, hvalues, hinterfaces, -⟩ := h
  exact ⟨eq_of_beq hname, eq_of_beq hkind, map_eq_of_beq Field.name_eq_of_beq hfields,
    eq_of_beq hinterfaces, map_eq_of_beq EnumValue.name_eq_of_beq hvalues⟩

namespace Schema

/-! ## One type of each name -/

/-- Without errors, every type has one among the distinct types that is alike. -/
theorem exists_alike_distinctTypes {seen ts : List TypeDef}
    (h : hasErrors (distinctTypes seen ts).diagnostics = false) {t : TypeDef}
    (ht : t ∈ seen ∨ t ∈ ts) : ∃ u ∈ (distinctTypes seen ts).value, Alike u t := by
  induction ts generalizing seen t with
  | nil => exact ⟨t, ht.resolve_right (fun h => by cases h), .refl t⟩
  | cons first rest ih =>
    rw [distinctTypes] at h ⊢
    cases hfind : seen.find? (·.name == first.name) with
    | none =>
      rw [hfind] at h
      refine ih h ?_
      rw [List.mem_append, List.mem_singleton]
      rcases ht with ht | ht
      · exact Or.inl (Or.inl ht)
      · exact (List.mem_cons.mp ht).imp Or.inr id
    | some earlier =>
      simp only [hfind] at h ⊢
      split at h
      · simp [Reported.report, hasErrors] at h
      · rename_i hequal
        rw [if_neg hequal]
        have halike : Alike earlier first := alike_of_beq (by simpa [bne] using hequal)
        rcases ht with ht | ht
        · exact ih h (Or.inl ht)
        · rcases List.mem_cons.mp ht with rfl | ht
          · obtain ⟨u, hu, hu'⟩ := ih h (Or.inl (List.mem_of_find?_eq_some hfind))
            exact ⟨u, hu, hu'.trans halike⟩
          · exact ih h (Or.inr ht)

/-! ## What a schema holds -/

/-- The base types among the types that a schema is put together from. -/
def baseOf (types : List TypeDef) : List TypeDef := types.filter (·.kind ≠ .inputObject)

/-- The input objects among the types that a schema is put together from. -/
def inputsOf (types : List TypeDef) : List TypeDef := types.filter (·.kind = .inputObject)

/-- A root type that is added. -/
def rootType (name : String) : TypeDef := { name, kind := .object }

/-- The root type that fields need, where no base type has its name. -/
def missingRoot (base : List TypeDef) (name : String) (fields : List ResolvedField) :
    List TypeDef :=
  if fields ≠ [] ∧ name ∉ base.map (·.name) then [rootType name] else []

/-- The root types that resolvers need and that no base type stands for. -/
def missingRoots (base : List TypeDef) (r : ResolverFields) : List TypeDef :=
  missingRoot base queryType r.query ++ missingRoot base mutationType r.mutation

theorem baseTypes_foldl_addType (ts : List TypeDef) (s : Schema) :
    (ts.foldl addType s).baseTypes = s.baseTypes ++ baseOf ts := by
  induction ts generalizing s with
  | nil => simp [baseOf]
  | cons t rest ih =>
    rw [List.foldl_cons, ih, addType]
    by_cases hkind : t.kind = .inputObject <;> simp [baseOf, hkind]

theorem inputTypes_foldl_addType (ts : List TypeDef) (s : Schema) :
    (ts.foldl addType s).inputTypes = s.inputTypes ++ (inputsOf ts).map InputType.ofTypeDef := by
  induction ts generalizing s with
  | nil => simp [inputsOf]
  | cons t rest ih =>
    rw [List.foldl_cons, ih, addType]
    by_cases hkind : t.kind = .inputObject <;> simp [inputsOf, hkind]

/-- Resolvers add the root type that they need to the base types, where it is missing. -/
theorem baseTypes_withRoot (s rooted : Schema) (name : String) (fields : List ResolvedField)
    (hrooted : rooted.baseTypes = (s.addRoot name).baseTypes) :
    (if fields.isEmpty then s else rooted).baseTypes =
      s.baseTypes ++ missingRoot s.baseTypes name fields := by
  cases fields with
  | nil => simp [missingRoot]
  | cons f fs =>
    rw [if_neg (by simp), hrooted, addRoot, missingRoot]
    cases hfind : s.baseType? name with
    | none =>
      have hnew : name ∉ s.baseTypes.map (·.name) := find?_name_eq_none_iff.mp hfind
      rw [if_neg (by simp), if_pos ⟨List.cons_ne_nil f fs, hnew⟩]
      rfl
    | some t =>
      obtain ⟨ht, hname⟩ := baseType?_eq_some hfind
      have hmem : name ∈ s.baseTypes.map (·.name) := List.mem_map.mpr ⟨t, ht, hname⟩
      rw [if_pos (by simp), if_neg (fun hroot => hroot.2 hmem), List.append_nil]

theorem names_missingRoot (base : List TypeDef) (name : String) (fields : List ResolvedField) :
    (missingRoot base name fields).map (·.name) = [] ∨
      name ∉ base.map (·.name) ∧ (missingRoot base name fields).map (·.name) = [name] := by
  rw [missingRoot]
  split
  · rename_i hroot
    exact Or.inr ⟨hroot.2, rfl⟩
  · exact Or.inl rfl

theorem missingRoot_congr {base other : List TypeDef} {name : String}
    (h : name ∈ base.map (·.name) ↔ name ∈ other.map (·.name)) (fields : List ResolvedField) :
    missingRoot base name fields = missingRoot other name fields := by
  simp only [missingRoot, h]

/-- A root type of one name does not stand in the way of another. -/
theorem missingRoot_append (base : List TypeDef) {name other : String} (hne : name ≠ other)
    (fields more : List ResolvedField) :
    missingRoot (base ++ missingRoot base other more) name fields =
      missingRoot base name fields := by
  refine missingRoot_congr ?_ fields
  rw [List.map_append, List.mem_append]
  rcases names_missingRoot base other more with hnone | ⟨-, hone⟩
  · simp [hnone]
  · simp [hone, hne]

/-- The base types of a schema are those that it is put together from, followed by the root types
that are missing. -/
theorem baseTypes_ofTypes (ts : List TypeDef) (scalars : List ScalarDefinition)
    (r : ResolverFields) :
    (ofTypes ts scalars r).baseTypes = baseOf ts ++ missingRoots (baseOf ts) r := by
  have hstart : (ts.foldl addType {}).baseTypes = baseOf ts := baseTypes_foldl_addType ts {}
  let s : Schema := { ts.foldl addType {} with customScalars := scalars }
  let withQuery : Schema :=
    if r.query.isEmpty then s else { s.addRoot queryType with hasQuery := true }
  have hquery : withQuery.baseTypes = baseOf ts ++ missingRoot (baseOf ts) queryType r.query :=
    hstart ▸ baseTypes_withRoot s { s.addRoot queryType with hasQuery := true } queryType
      r.query rfl
  have hmutation : (ofTypes ts scalars r).baseTypes =
      withQuery.baseTypes ++ missingRoot withQuery.baseTypes mutationType r.mutation :=
    baseTypes_withRoot withQuery { withQuery.addRoot mutationType with hasMutation := true }
      mutationType r.mutation rfl
  rw [hmutation, hquery, missingRoot_append _ ResolverFields.queryType_ne_mutationType.symm,
    List.append_assoc, missingRoots]

theorem mem_missingRoot {base : List TypeDef} {name : String} {fields : List ResolvedField}
    {t : TypeDef} (h : t ∈ missingRoot base name fields) :
    t = rootType name ∧ name ∉ base.map (·.name) := by
  rw [missingRoot] at h
  split at h
  · rename_i hroot
    exact ⟨List.mem_singleton.mp h, hroot.2⟩
  · cases h

theorem inputTypes_addRoot (s : Schema) (name : String) :
    (s.addRoot name).inputTypes = s.inputTypes := by
  rw [addRoot]
  split <;> rfl

/-! ## Types that are held -/

/-- The schema has a type, input objects in a form of their own. -/
def Holds (s : Schema) (t : TypeDef) : Prop :=
  (t.kind ≠ .inputObject ∧ t ∈ s.baseTypes) ∨
    (t.kind = .inputObject ∧ InputType.ofTypeDef t ∈ s.inputTypes)

variable {ts : List TypeDef} {scalars : List ScalarDefinition} {r : ResolverFields}

theorem inputTypes_ofTypes :
    (ofTypes ts scalars r).inputTypes = (inputsOf ts).map InputType.ofTypeDef := by
  have hstart : (ofTypes ts scalars r).inputTypes = (ts.foldl addType {}).inputTypes := by
    unfold ofTypes
    cases r.query.isEmpty <;> cases r.mutation.isEmpty <;> simp [inputTypes_addRoot]
  rw [hstart, inputTypes_foldl_addType, List.nil_append]

theorem mem_baseTypes_ofTypes {u : TypeDef} (h : u ∈ (ofTypes ts scalars r).baseTypes) :
    (u ∈ ts ∧ u.kind ≠ .inputObject) ∨ u = rootType queryType ∨ u = rootType mutationType := by
  rw [baseTypes_ofTypes, missingRoots, List.mem_append, List.mem_append] at h
  rcases h with h | h | h
  · exact Or.inl (by simpa [baseOf] using h)
  · exact Or.inr (Or.inl (mem_missingRoot h).1)
  · exact Or.inr (Or.inr (mem_missingRoot h).1)

theorem mem_inputTypes_ofTypes {u : InputType} (h : u ∈ (ofTypes ts scalars r).inputTypes) :
    ∃ t ∈ ts, t.kind = .inputObject ∧ u = InputType.ofTypeDef t := by
  rw [inputTypes_ofTypes] at h
  obtain ⟨t, ht, rfl⟩ := List.mem_map.mp h
  rw [inputsOf, List.mem_filter, decide_eq_true_eq] at ht
  exact ⟨t, ht.1, ht.2, rfl⟩

theorem holds_ofTypes {t : TypeDef} (ht : t ∈ ts) : (ofTypes ts scalars r).Holds t := by
  by_cases hkind : t.kind = .inputObject
  · refine Or.inr ⟨hkind, ?_⟩
    rw [inputTypes_ofTypes]
    exact List.mem_map_of_mem (List.mem_filter.mpr ⟨ht, decide_eq_true hkind⟩)
  · refine Or.inl ⟨hkind, ?_⟩
    rw [baseTypes_ofTypes]
    exact List.mem_append_left _ (List.mem_filter.mpr ⟨ht, decide_eq_true hkind⟩)

end Schema

/-! ## The whole schema -/

section Integrate

variable {types : List TypeDef} {r : ResolverFields} {scalars : List ScalarDefinition}

/-- A base type of a schema is one of the types that it is put together from, or a root. -/
theorem mem_baseTypes_integrate {t : TypeDef}
    (h : t ∈ (integrate types r scalars).value.baseTypes) :
    t ∈ types ++ r.types ∨ t = Schema.rootType queryType ∨ t = Schema.rootType mutationType := by
  rw [value_integrate] at h
  refine (Schema.mem_baseTypes_ofTypes h).imp (fun ht => ?_) id
  exact (Schema.mem_distinctTypes ht.1).resolve_left List.not_mem_nil

theorem mem_inputTypes_integrate {u : InputType}
    (h : u ∈ (integrate types r scalars).value.inputTypes) :
    ∃ t ∈ types ++ r.types, t.kind = .inputObject ∧ u = Schema.InputType.ofTypeDef t := by
  rw [value_integrate] at h
  obtain ⟨t, ht, hkind, rfl⟩ := Schema.mem_inputTypes_ofTypes h
  exact ⟨t, (Schema.mem_distinctTypes ht).resolve_left List.not_mem_nil, hkind, rfl⟩

/-- Without errors a schema holds a type that is alike for each type that it is put together from. -/
theorem exists_alike_integrate (h : hasErrors (integrate types r scalars).diagnostics = false)
    {t : TypeDef} (ht : t ∈ types ++ r.types) :
    ∃ u, (integrate types r scalars).value.Holds u ∧ Alike u t := by
  simp only [integrate, Reported.diagnostics_bind, Reported.diagnostics_pure, List.append_nil,
    hasErrors_append, Bool.or_eq_false_iff] at h
  obtain ⟨u, hu, halike⟩ := Schema.exists_alike_distinctTypes h.1 (Or.inr ht)
  rw [value_integrate]
  exact ⟨u, Schema.holds_ofTypes hu, halike⟩

end Integrate

end SchemaCompiler.GraphQL

import Mathlib
import SchemaCompiler.Proofs.Schema.Contents

/-!
# How types of one name are merged

Types are met in order. `Merges` says what becomes of each of them: the first of a name is kept, a
later one that is equal to it is dropped, and one that differs from it is refused. A schema holds
exactly the types that are kept, input objects apart from the others and both in order, and the root
types that are missing; every type that is refused is reported once, at its place.
-/

namespace SchemaCompiler.GraphQL

/-! ## Meeting types -/

/-- Of the types that are met, those that are kept and those that are refused. -/
inductive Merges : List TypeDef → List TypeDef → List TypeDef → Prop where
  | nil : Merges [] [] []
  | first {types kept refused : List TypeDef} {t : TypeDef} (h : Merges types kept refused)
      (hnew : t.name ∉ types.map (·.name)) : Merges (types ++ [t]) (kept ++ [t]) refused
  | equal {types kept refused : List TypeDef} {t first : TypeDef} (h : Merges types kept refused)
      (hfirst : types.find? (·.name == t.name) = some first) (hequal : (first == t) = true) :
      Merges (types ++ [t]) kept refused
  | differs {types kept refused : List TypeDef} {t first : TypeDef} (h : Merges types kept refused)
      (hfirst : types.find? (·.name == t.name) = some first) (hdiffers : (first == t) = false) :
      Merges (types ++ [t]) kept (refused ++ [t])

theorem find?_name_snoc {types : List TypeDef} {t first : TypeDef}
    (h : types.find? (·.name == t.name) = some first) (name : String) :
    (types ++ [t]).find? (·.name == name) = types.find? (·.name == name) := by
  rw [List.find?_append]
  cases hfind : types.find? (·.name == name) with
  | some _ => rfl
  | none =>
    have hne : t.name ≠ name := by
      rintro rfl
      rw [h] at hfind
      cases hfind
    simp [hne]

/-- The first of a name is kept. -/
theorem Merges.find?_eq {types kept refused : List TypeDef} (h : Merges types kept refused)
    (name : String) : kept.find? (·.name == name) = types.find? (·.name == name) := by
  induction h with
  | nil => rfl
  | first h hnew ih => rw [List.find?_append, List.find?_append, ih]
  | equal h hfirst hequal ih => rw [ih, find?_name_snoc hfirst]
  | differs h hfirst hdiffers ih => rw [ih, find?_name_snoc hfirst]

theorem Merges.nodup {types kept refused : List TypeDef} (h : Merges types kept refused) :
    (kept.map (·.name)).Nodup := by
  induction h with
  | nil => exact List.nodup_nil
  | first h hnew ih =>
    rw [← Schema.find?_name_eq_none_iff, ← h.find?_eq, Schema.find?_name_eq_none_iff] at hnew
    rw [List.map_append, List.map_singleton]
    exact (List.perm_append_singleton _ _).nodup_iff.mpr (List.nodup_cons.mpr ⟨hnew, ih⟩)
  | equal h hfirst hequal ih => exact ih
  | differs h hfirst hdiffers ih => exact ih

/-- Types are kept in order. -/
theorem Merges.sublist {types kept refused : List TypeDef} (h : Merges types kept refused) :
    kept.Sublist types := by
  induction h with
  | nil => exact .slnil
  | first h hnew ih => exact ih.append (.refl _)
  | equal h hfirst hequal ih => exact ih.trans (List.sublist_append_left _ _)
  | differs h hfirst hdiffers ih => exact ih.trans (List.sublist_append_left _ _)

/-- What is reported of a type that differs from the first of its name. -/
def conflict (t : TypeDef) : Diagnostic :=
  .error .duplicateTypeName
    ("type \"" ++ t.name ++ "\" is produced by more than one declaration") t.location

/-- The faults of types that have the name of another type. -/
def conflicts (ds : List Diagnostic) : List Diagnostic := ds.filter (·.code = .duplicateTypeName)

namespace Schema

/-- Taking the distinct types merges those that are met. -/
theorem distinctTypes_merges {before kept refused : List TypeDef} (h : Merges before kept refused)
    (rest : List TypeDef) :
    ∃ refused', Merges (before ++ rest) (distinctTypes kept rest).value (refused ++ refused') ∧
      (distinctTypes kept rest).diagnostics = refused'.map conflict := by
  induction rest generalizing before kept refused with
  | nil => exact ⟨[], by simpa [distinctTypes] using h, rfl⟩
  | cons t rest ih =>
    rw [distinctTypes, List.append_cons]
    cases hfind : kept.find? (·.name == t.name) with
    | none =>
      rw [h.find?_eq, Schema.find?_name_eq_none_iff] at hfind
      exact ih (h.first hfind)
    | some first =>
      rw [h.find?_eq] at hfind
      cases hequal : first == t with
      | true =>
        simp only [bne, hequal, Bool.not_true, Bool.false_eq_true, if_false]
        exact ih (h.equal hfind hequal)
      | false =>
        obtain ⟨refused', hmerges, hreports⟩ := ih (h.differs hfind hequal)
        refine ⟨t :: refused', ?_, ?_⟩
        · rw [List.append_cons refused]
          simpa [bne, hequal] using hmerges
        · simp only [bne, hequal, Bool.not_false, if_true, Reported.diagnostics_bind, hreports]
          rfl

/-! ## Names of a schema -/

theorem mem_names_missingRoots {base : List TypeDef} {r : ResolverFields} {name : String}
    (h : name ∈ (missingRoots base r).map (·.name)) :
    (name = queryType ∨ name = mutationType) ∧ name ∉ base.map (·.name) := by
  obtain ⟨t, ht, rfl⟩ := List.mem_map.mp h
  rcases List.mem_append.mp ht with ht | ht
  · obtain ⟨rfl, hnew⟩ := mem_missingRoot ht
    exact ⟨Or.inl rfl, hnew⟩
  · obtain ⟨rfl, hnew⟩ := mem_missingRoot ht
    exact ⟨Or.inr rfl, hnew⟩

theorem nodup_names_missingRoots (base : List TypeDef) (r : ResolverFields) :
    ((missingRoots base r).map (·.name)).Nodup := by
  have hne := ResolverFields.queryType_ne_mutationType
  rw [missingRoots, List.map_append]
  rcases names_missingRoot base queryType r.query with hquery | ⟨-, hquery⟩ <;>
    rcases names_missingRoot base mutationType r.mutation with hmutation | ⟨-, hmutation⟩ <;>
    simp [hquery, hmutation, hne]

/-- A schema has the names of the types that it is put together from and of the root types that are
missing. -/
theorem typeNames_ofTypes_perm (ts : List TypeDef) (scalars : List ScalarDefinition)
    (r : ResolverFields) :
    (ofTypes ts scalars r).typeNames.Perm
      (ts.map (·.name) ++ (missingRoots (baseOf ts) r).map (·.name)) := by
  have hnames : (ofTypes ts scalars r).typeNames =
      (baseOf ts).map (·.name) ++ (missingRoots (baseOf ts) r).map (·.name) ++
        (inputsOf ts).map (·.name) := by
    rw [typeNames, baseTypes_ofTypes, inputTypes_ofTypes, List.map_append, List.map_map]
    rfl
  have hkinds : (baseOf ts ++ inputsOf ts).Perm ts := by
    refine List.perm_append_comm.trans ?_
    simpa [baseOf, inputsOf] using List.filter_append_perm (·.kind = .inputObject) ts
  have hperm : ((baseOf ts).map (·.name) ++ (inputsOf ts).map (·.name)).Perm (ts.map (·.name)) := by
    rw [← List.map_append]
    exact hkinds.map _
  rw [hnames, List.append_assoc]
  refine (List.Perm.append_left _ List.perm_append_comm).trans ?_
  rw [← List.append_assoc]
  exact hperm.append_right _

/-- Where only input objects have the names of input objects, no name of a schema is taken twice. -/
theorem nodup_typeNames_ofTypes {ts : List TypeDef} (scalars : List ScalarDefinition)
    (r : ResolverFields) (hnodup : (ts.map (·.name)).Nodup)
    (hinputs : ∀ t ∈ ts, t.kind = .inputObject → isInputName t.name = true) :
    (ofTypes ts scalars r).typeNames.Nodup := by
  rw [(typeNames_ofTypes_perm ts scalars r).nodup_iff, List.nodup_append]
  refine ⟨hnodup, nodup_names_missingRoots _ r, ?_⟩
  rintro name hname other hother rfl
  obtain ⟨hroot, hnew⟩ := mem_names_missingRoots hother
  obtain ⟨t, ht, rfl⟩ := List.mem_map.mp hname
  by_cases hkind : t.kind = .inputObject
  · have hinput := hinputs t ht hkind
    rcases hroot with hroot | hroot
    · rw [hroot, isInputName_queryType] at hinput
      cases hinput
    · rw [hroot, isInputName_mutationType] at hinput
      cases hinput
  · exact hnew (List.mem_map_of_mem (List.mem_filter.mpr ⟨ht, decide_eq_true hkind⟩))

/-! ## What is reported -/

theorem conflicts_append (a b : List Diagnostic) :
    conflicts (a ++ b) = conflicts a ++ conflicts b :=
  List.filter_append a b

theorem conflicts_map_conflict (refused : List TypeDef) :
    conflicts (refused.map conflict) = refused.map conflict := by
  refine List.filter_eq_self.mpr fun d hd => ?_
  obtain ⟨t, -, rfl⟩ := List.mem_map.mp hd
  rfl

/-- Extensions have nothing to do with types of one name. -/
theorem conflicts_extensions (s : Schema) (entries : List (String × List ResolvedField)) :
    conflicts (Reported.each s.checkedExtension entries).diagnostics = [] := by
  refine List.filter_eq_nil_iff.mpr fun d hd => ?_
  rw [Reported.diagnostics_each, List.mem_flatMap] at hd
  obtain ⟨entry, -, hd⟩ := hd
  have hcode : d.code = .duplicateFieldDefinition ∨ d.code = .invalidExtensionTarget ∨
      d.code = .unknownTargetType := by
    simp only [checkedExtension, extension, Reported.diagnostics_bind, Reported.diagnostics_pure,
      List.append_nil, List.mem_append] at hd
    exact hd.imp code_of_mem_keepFields code_of_mem_checkTarget
  rcases hcode with hcode | hcode | hcode <;> simp [hcode]

end Schema

/-! ## The whole schema -/

/-- What a schema makes of the types that are met: those that are kept are its types, along with the
root types that are missing, and those that are refused are reported. -/
structure Absorbs (types : List TypeDef) (r : ResolverFields) (built : Reported Schema)
    (kept refused : List TypeDef) : Prop where
  merges : Merges types kept refused
  nodup : built.value.typeNames.Nodup
  base : built.value.baseTypes = Schema.baseOf kept ++ Schema.missingRoots (Schema.baseOf kept) r
  inputs : built.value.inputTypes = (Schema.inputsOf kept).map Schema.InputType.ofTypeDef
  reports : conflicts built.diagnostics = refused.map conflict

/-- A schema takes no name twice. It keeps the first type of each name as it is, in order, and adds
nothing but root types; a later type of the name is equal to the first or reported at its place. -/
theorem integrate_absorbs (types : List TypeDef) (r : ResolverFields)
    (scalars : List ScalarDefinition)
    (h : ∀ t ∈ types ++ r.types, t.kind = .inputObject → isInputName t.name = true) :
    ∃ kept refused,
      Absorbs (types ++ r.types) r (integrate types r scalars) kept refused := by
  obtain ⟨refused, hmerges, hreports⟩ := Schema.distinctTypes_merges .nil (types ++ r.types)
  refine ⟨_, refused, hmerges, ?_, ?_, ?_, ?_⟩
  · rw [value_integrate]
    exact Schema.nodup_typeNames_ofTypes scalars r hmerges.nodup fun t ht =>
      h t (hmerges.sublist.subset ht)
  · rw [value_integrate]
    exact Schema.baseTypes_ofTypes _ scalars r
  · rw [value_integrate]
    exact Schema.inputTypes_ofTypes
  · rw [integrate, Reported.diagnostics_bind, Schema.conflicts_append, hreports,
      Schema.conflicts_map_conflict, Reported.diagnostics_bind, Reported.diagnostics_pure,
      List.append_nil, Schema.conflicts_extensions, List.append_nil]

/-- A user that is met three times, the last time with a description, a query type and an input
object. -/
def userTypes : List TypeDef :=
  [user none, { name := queryType, kind := .object }, user none,
    { name := "UserInput", kind := .inputObject }, user (some "A person.")]
where
  user (description : Option String) : TypeDef := { name := "User", kind := .object, description }

/-- A query and a mutation. -/
def userFields : ResolverFields := { query := [field "users"], mutation := [field "rename"] }
where
  field (name : String) : ResolvedField :=
    ⟨⟨name, .named "User" false, [], none, none, none⟩, none, none⟩

/-- The mutation type is added, and the user with a description is refused. -/
theorem integrate_absorbs_users :
    (∀ t ∈ userTypes ++ userFields.types, t.kind = .inputObject → isInputName t.name = true) ∧
      (integrate userTypes userFields []).value.typeNames =
        ["User", "Query", "Mutation", "UserInput"] ∧
      (integrate userTypes userFields []).diagnostics.length = 1 ∧
      ∃ kept refused, Absorbs (userTypes ++ userFields.types) userFields
        (integrate userTypes userFields []) kept refused := by
  have hinputs : ∀ t ∈ userTypes ++ userFields.types,
      t.kind = .inputObject → isInputName t.name = true := by
    simp only [isInputName_iff]
    decide
  exact ⟨hinputs, by cbv, by cbv, integrate_absorbs userTypes userFields [] hinputs⟩

end SchemaCompiler.GraphQL

import SchemaCompiler.Proofs.Contents

/-!
# Which implemented interfaces are defined

A type picks up its interfaces while its properties are merged, from any declaration that the merge
comes to, exported or not. Only exported declarations become types, and no check looks at the
interfaces of a type. They are all defined exactly when each of them is exported as an interface
under its own name.
-/

namespace SchemaCompiler

open GraphQL

/-- Only an interface of the schema becomes one. -/
theorem schemaKind_eq_interface_iff {t : ExportedType} :
    schemaKind t = .interface ↔ t.kind = .graphqlInterface := by
  unfold schemaKind
  cases t.kind <;> cases isInputName t.name <;> simp

variable {p : Program} {config : Config}

/-- The interfaces of a base type are those of the exported type that it comes from. -/
theorem exported_of_interfaces (h : (analyze p config.scalars).Clean) {d : TypeDef}
    (hd : d ∈ (analyze p config.scalars).schema.value.baseTypes) {name : String}
    (hname : name ∈ d.interfaces) :
    ∃ t ∈ (analyze p config.scalars).types.value, Becomes t d ∧ name ∈ implemented t := by
  cases origin_baseType h hd with
  | exported ht hbecomes => exact ⟨_, ht, hbecomes, hbecomes.interfaces ▸ hname⟩
  | made hmade =>
    rw [(made_writtenOut hmade).interfaces] at hname
    cases hname
  | query hroot =>
    rw [hroot] at hname
    cases hname
  | mutation hroot =>
    rw [hroot] at hname
    cases hname

/-- An interface is defined when it is exported. -/
theorem defines_interface_iff (h : (analyze p config.scalars).Clean) (name : String) :
    (analyze p config.scalars).schema.value.Defines .interface name ↔
      ∃ t ∈ (analyze p config.scalars).types.value, t.kind = .graphqlInterface ∧ t.name = name := by
  constructor
  · rintro (⟨d, hd, hkind, rfl⟩ | ⟨hkind, -⟩ | ⟨hkind, -⟩)
    · cases origin_baseType h hd with
      | exported ht hbecomes =>
        exact ⟨_, ht, schemaKind_eq_interface_iff.mp (hbecomes.kind ▸ hkind), hbecomes.name.symm⟩
      | made hmade =>
        rcases (made_writtenOut hmade).kind with hmade | hmade
        · rw [hmade] at hkind
          cases hkind
        · rw [hmade] at hkind
          cases hkind
      | query hroot =>
        rw [hroot] at hkind
        cases hkind
      | mutation hroot =>
        rw [hroot] at hkind
        cases hkind
    · cases hkind
    · cases hkind
  · rintro ⟨t, ht, hkind, rfl⟩
    obtain ⟨d, hd, hbecomes⟩ := exists_becomes h ht
    have hinterface := hbecomes.kind.trans (schemaKind_eq_interface_iff.mpr hkind)
    rcases hd with ⟨-, hd⟩ | ⟨hinput, -⟩
    · exact Or.inl ⟨d, hd, hinterface, hbecomes.name⟩
    · rw [hinterface] at hinput
      cases hinput

/-- After a run without errors every implemented interface is defined, exactly when the interfaces of
the exported types that are written out are exported as interfaces under their own names. -/
theorem interfaces_defined_iff (p : Program) (before : List Diagnostic) (config : Config)
    (dir : Path) (h : (generate p before config dir).hasErrors = false) :
    (∀ x ∈ (outputDocument p config).definitions, ∀ name ∈ x.interfaces,
        (outputDocument p config).Defines .interface name) ↔
      ∀ t ∈ (analyze p config.scalars).types.value, t.name ∈ (writtenSchema p config).typeNames →
        ∀ name ∈ implemented t,
          ∃ u ∈ (analyze p config.scalars).types.value,
            u.kind = .graphqlInterface ∧ u.name = name := by
  have hclean := clean_of_generate h
  have hkinds := (formed_writtenSchema p config).kinds
  simp only [← defines_interface_iff hclean]
  constructor
  · intro hall t ht hkept name hname
    obtain ⟨d, hd, hbecomes⟩ := exists_becomes hclean ht
    have hkind : d.kind = .object ∨ d.kind = .interface :=
      hbecomes.kind ▸ schemaKind_of_implemented hname
    have hmem : d ∈ (writtenSchema p config).baseTypes := by
      rcases holds_writtenSchema hd (hbecomes.name ▸ hkept) with ⟨-, hd⟩ | ⟨hinput, -⟩
      · exact hd
      · rcases hkind with hkind | hkind <;> rw [hkind] at hinput <;> cases hinput
    rw [← hbecomes.interfaces] at hname
    obtain ⟨x, hx, hname'⟩ := (mem_interfaces_ofSchema hkinds).mpr ⟨d, hmem, hkind, hname⟩
    have hdefines := (defines_ofSchema hkinds .interface name).mp (hall x hx name hname')
    exact (defines_writtenSchema_iff (Schema.refers_interface hmem hname) .interface).mp hdefines
  · intro hall x hx name hname
    obtain ⟨d, hd, -, hname⟩ := (mem_interfaces_ofSchema hkinds).mp ⟨x, hx, hname⟩
    obtain ⟨t, ht, hbecomes, hname'⟩ :=
      exported_of_interfaces hclean (baseTypes_writtenSchema_subset p config hd) hname
    have hkept : t.name ∈ (writtenSchema p config).typeNames :=
      Schema.mem_typeNames.mpr (Or.inl ⟨d, hd, hbecomes.name⟩)
    refine (defines_ofSchema hkinds .interface name).mpr ?_
    exact (defines_writtenSchema_iff (Schema.refers_interface hd hname) .interface).mpr
      (hall t ht hkept name hname')

/-! ## An interface that is kept to its module -/

namespace Sample

attribute [local irreducible] String.decEq

/-- A user that is a node. -/
def nodeModule : SourceModule :=
  sourceModule
    [typeAlias "Node" (applied "DefineInterface" [object [property "id" (keyword .string)]]),
      extending "User" ["Node"] [property "name" (keyword .string)]] []

set_option maxRecDepth 10000

theorem nodeModule_run :
    (hasErrors (analyze ⟨[nodeModule]⟩ []).diagnostics,
      (analyze ⟨[nodeModule]⟩ []).types.value.map fun t => (t.name, t.kind, implemented t)) =
        (false, [("Node", .graphqlInterface, []), ("User", .interface, ["Node"])]) := by
  cbv

theorem hidden_run :
    (hasErrors (analyze ⟨[hide "Node" nodeModule]⟩ []).diagnostics,
      (outputDocument ⟨[hide "Node" nodeModule]⟩ (Sample.config false)).definitions.map fun x =>
        (x.defined?, x.interfaces)) =
        (false, [(some (.object, "User"), ["Node"])]) := by
  cbv

end Sample

open Sample

/-- Where the interface is exported, it is defined. -/
theorem interfaces_defined_nodeModule :
    (generate ⟨[nodeModule]⟩ [] (Sample.config false) ⟨""⟩).hasErrors = false ∧
      ∀ x ∈ (outputDocument ⟨[nodeModule]⟩ (Sample.config false)).definitions, ∀ name ∈ x.interfaces,
        (outputDocument ⟨[nodeModule]⟩ (Sample.config false)).Defines .interface name := by
  obtain ⟨hclean, htypes⟩ := Prod.mk.inj nodeModule_run
  refine ⟨hclean, (interfaces_defined_iff _ [] (Sample.config false) ⟨""⟩ hclean).mpr ?_⟩
  intro t ht _ name hname
  have hnode : ("Node", .graphqlInterface, []) ∈ (analyze ⟨[nodeModule]⟩ []).types.value.map
      fun t => (t.name, t.kind, implemented t) := by
    rw [htypes]
    exact List.mem_cons_self
  obtain ⟨u, hu, hentry⟩ := List.mem_map.mp hnode
  obtain ⟨huname, hukind⟩ : u.name = "Node" ∧ u.kind = .graphqlInterface := by
    simp only [Prod.mk.injEq] at hentry
    exact ⟨hentry.1, hentry.2.1⟩
  have hmem := List.mem_map_of_mem (f := fun t => (t.name, t.kind, implemented t)) ht
  simp only [show (Sample.config false).scalars = [] from rfl, htypes, List.mem_cons, Prod.mk.injEq,
    List.not_mem_nil, or_false] at hmem
  rcases hmem with ⟨-, -, hnone⟩ | ⟨-, -, hone⟩
  · rw [hnone] at hname
    cases hname
  · rw [hone, List.mem_singleton] at hname
    exact ⟨u, hu, hukind, hname ▸ huname⟩

/-- A run without errors whose document lets a type implement an interface that is not defined. -/
theorem interface_undefined :
    (generate ⟨[hide "Node" nodeModule]⟩ [] (Sample.config false) ⟨""⟩).hasErrors = false ∧
      ¬ ∀ x ∈ (outputDocument ⟨[hide "Node" nodeModule]⟩ (Sample.config false)).definitions,
        ∀ name ∈ x.interfaces,
          (outputDocument ⟨[hide "Node" nodeModule]⟩ (Sample.config false)).Defines .interface
            name := by
  obtain ⟨hclean, hdefinitions⟩ := Prod.mk.inj hidden_run
  refine ⟨hclean, fun hall => ?_⟩
  have huser : (some (Kind.object, "User"), ["Node"]) ∈
      (outputDocument ⟨[hide "Node" nodeModule]⟩ (Sample.config false)).definitions.map fun x =>
        (x.defined?, x.interfaces) := by
    rw [hdefinitions]
    exact List.mem_cons_self
  obtain ⟨x, hx, hentry⟩ := List.mem_map.mp huser
  obtain ⟨-, hinterfaces⟩ := Prod.mk.inj hentry
  obtain ⟨y, hy, hdefined⟩ := hall x hx "Node" (by rw [hinterfaces]; exact List.mem_cons_self)
  have hmem := List.mem_map_of_mem (f := fun x => (x.defined?, x.interfaces)) hy
  rw [hdefinitions, List.mem_singleton, Prod.mk.injEq, hdefined] at hmem
  cases hmem.1

end SchemaCompiler

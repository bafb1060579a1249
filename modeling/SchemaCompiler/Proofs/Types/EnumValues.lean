import Mathlib
import SchemaCompiler.Proofs.ResolverMap
import SchemaCompiler.Proofs.Sample
import SchemaCompiler.Proofs.Text.Spelling
import SchemaCompiler.Proofs.Types.Reports

/-!
# Values of an enum

The members of an exported enum have names of their own, and the values of a schema have the names
that these are converted to. Where two of them become one nothing is reported. So the values are legal
in a schema, and the resolver map has one entry for each, exactly when no two members are spelled
alike.
-/

namespace SchemaCompiler

open GraphQL

/-! ## The entry of an enum -/

namespace ResolverMap

/-- What the map holds for an enum whose members are renamed. -/
def valueEntries (d : TypeDef) : List (String × String) :=
  d.enumValues.map fun v => (v.name, v.literal)

theorem get?_addExtension_of_ne (dir : Path) (done : SortedTable MapEntry × Namespaces)
    {e : TypeExtension} {type : String} (h : e.target ≠ type) :
    (addExtension dir done e).1.get? type = done.1.get? type := by
  simp only [addExtension]
  split
  · rfl
  · exact SortedTable.get?_insert_of_ne _ h.symm _

theorem get?_foldl_addExtension_of_ne (dir : Path) (es : List TypeExtension)
    (done : SortedTable MapEntry × Namespaces) {type : String} (h : ∀ e ∈ es, e.target ≠ type) :
    (es.foldl (addExtension dir) done).1.get? type = done.1.get? type := by
  induction es generalizing done with
  | nil => rfl
  | cons e rest ih =>
    rw [List.foldl_cons, ih _ fun e he => h e (List.mem_cons_of_mem _ he)]
    exact get?_addExtension_of_ne dir done (h e List.mem_cons_self)

theorem get?_addEnum_of_ne (entries : SortedTable MapEntry) {d : TypeDef} {type : String}
    (h : d.name ≠ type) : (addEnum entries d).get? type = entries.get? type := by
  unfold addEnum
  split
  · exact SortedTable.get?_insert_of_ne _ h.symm _
  · rfl

theorem get?_foldl_addEnum_of_ne (types : List TypeDef) (entries : SortedTable MapEntry)
    {type : String} (h : type ∉ types.map (·.name)) :
    (types.foldl addEnum entries).get? type = entries.get? type := by
  induction types generalizing entries with
  | nil => rfl
  | cons t rest ih =>
    rw [List.map_cons, List.mem_cons, not_or] at h
    rw [List.foldl_cons, ih _ h.2, get?_addEnum_of_ne entries (Ne.symm h.1)]

theorem get?_addEnum_self {entries : SortedTable MapEntry} {d : TypeDef}
    (hrenamed : isRenamed d = true) (hnone : entries.get? d.name = none) :
    (addEnum entries d).get? d.name = some (.values (valueEntries d)) := by
  rw [addEnum, hrenamed, SortedTable.contains, hnone]
  exact SortedTable.get?_insert_self entries d.name _

/-- An enum that alone has its name gets the entry of its name. -/
theorem get?_foldl_addEnum {types : List TypeDef} (hdistinct : (types.map (·.name)).Nodup)
    {d : TypeDef} (hd : d ∈ types) (hrenamed : isRenamed d = true) {entries : SortedTable MapEntry}
    (hnone : entries.get? d.name = none) :
    (types.foldl addEnum entries).get? d.name = some (.values (valueEntries d)) := by
  obtain ⟨before, after, rfl⟩ := List.append_of_mem hd
  rw [List.map_append, List.map_cons, List.nodup_middle, List.nodup_cons, List.mem_append,
    not_or] at hdistinct
  obtain ⟨⟨hbefore, hafter⟩, -⟩ := hdistinct
  rw [List.foldl_append, List.foldl_cons, get?_foldl_addEnum_of_ne after _ hafter]
  refine get?_addEnum_self hrenamed ?_
  rw [get?_foldl_addEnum_of_ne before _ hbefore, hnone]

/-- A schema whose resolver map has to hold the values of an enum. -/
structure Renames (s : Schema) (d : TypeDef) : Prop where
  mem : d ∈ s.baseTypes
  distinct : (s.baseTypes.map (·.name)).Nodup
  renamed : isRenamed d = true
  notExtended : ∀ e ∈ s.extensions, e.target ≠ d.name
  notScalar : d.name ∉ s.scalarNames

theorem Renames.get?_entries {s : Schema} {d : TypeDef} (h : Renames s d) (dir : Path) :
    (ofSchema s dir).entries.get? d.name = some (.values (valueEntries d)) := by
  have hentries : (ofSchema s dir).entries =
      (sortByName (·.name) s.customScalars).foldl addScalar
        (s.baseTypes.foldl addEnum (extended s dir).1) := rfl
  have hscalar : d.name ∉ (sortByName (·.name) s.customScalars).map (·.name) := by
    simpa [Schema.scalarNames] using h.notScalar
  have hextended : (extended s dir).1.get? d.name = none :=
    get?_foldl_addExtension_of_ne dir s.extensions _ h.notExtended
  rw [hentries, get?_foldl_addScalar, if_neg hscalar]
  exact get?_foldl_addEnum h.distinct h.mem h.renamed hextended

end ResolverMap

/-! ## Values -/

namespace GraphQL

/-- The names of the values are names of the schema language that may be given to values, each to
one. -/
structure LegalValues (values : List EnumValue) : Prop where
  names : ∀ v ∈ values, isName v.name = true
  unreserved : ∀ v ∈ values, v.name ∉ ["true", "false", "null"]
  distinct : (values.map (·.name)).Nodup

/-- Every value has one entry. -/
def OneEntryEach (values : List EnumValue) (entries : List (String × String)) : Prop :=
  ∀ v ∈ values, (entries.map (·.1)).count v.name = 1

/-- No two members are spelled alike. -/
def SpelledApart (members : List EnumLiteral) : Prop :=
  (members.map fun m => Text.spelling m.name.toList).Nodup

instance (members : List EnumLiteral) : Decidable (SpelledApart members) :=
  inferInstanceAs (Decidable (List.Nodup _))

namespace Lowering

/-- A letter that no converted name has. -/
def isSmallLetter (c : Char) : Bool := c != '_' && decide (Text.IsSmall c.toNat)

theorem ValueFor.unreserved {m : EnumLiteral} {v : EnumValue} (h : ValueFor m v) :
    v.name ∉ ["true", "false", "null"] := by
  have hreserved : ∀ name ∈ ["true", "false", "null"], name.toList.any isSmallLetter = true := by
    decide
  intro hmem
  obtain ⟨c, hc, hletter⟩ := List.any_eq_true.mp (hreserved _ hmem)
  rw [h.name, Text.screamingSnake, String.toList_ofList] at hc
  simp only [isSmallLetter, Bool.and_eq_true, bne_iff_ne, decide_eq_true_eq] at hletter
  exact (Text.screamingSnakeChars_not_small _ c hc).elim hletter.1 (absurd hletter.2)

variable {members : List EnumLiteral} {values : List EnumValue}

theorem nodup_values_iff (h : List.Forall₂ ValueFor members values) :
    (values.map (·.name)).Nodup ↔ SpelledApart members := by
  have hnames : values.map (·.name) = members.map fun m => Text.screamingSnake m.name :=
    map_eq_map_of_forall₂ h.flip fun _ _ hvalue => hvalue.name
  rw [hnames, SpelledApart, List.Nodup, List.Nodup, List.pairwise_map, List.pairwise_map]
  simp only [ne_eq, Text.screamingSnake_eq_iff]

theorem legalValues_iff (h : List.Forall₂ ValueFor members values) :
    LegalValues values ↔ SpelledApart members := by
  rw [← nodup_values_iff h]
  refine ⟨LegalValues.distinct, fun hdistinct => ⟨fun v hv => ?_, fun v hv => ?_, hdistinct⟩⟩
  · obtain ⟨m, -, hvalue⟩ := exists_of_forall₂ h.flip hv
    exact hvalue.legal
  · obtain ⟨m, -, hvalue⟩ := exists_of_forall₂ h.flip hv
    exact hvalue.unreserved

/-- An enum of which nothing is reported has a value for each member. -/
theorem Route.enum_quiet {t : ExportedType} {m : Lowering (Option TypeDef)} (h : Route t m)
    (hkind : t.kind = .enum) :
    Quiet m fun result => ∃ values, result = some { frame t .enum with enumValues := values } ∧
      List.Forall₂ ValueFor t.enumMembers values := by
  cases h with
  | enum =>
    exact (enumValues_quiet t t.enumMembers).bind fun values =>
      .pure fun hvalues => ⟨values, rfl, hvalues⟩
  | invalidInput => exact invalidInput_quiet t
  | _ => simp_all

end Lowering

open ResolverMap

theorem oneEntryEach_valueEntries_iff (d : TypeDef) :
    OneEntryEach d.enumValues (valueEntries d) ↔ (d.enumValues.map (·.name)).Nodup := by
  rw [OneEntryEach, valueEntries, List.map_map, List.nodup_iff_count_eq_one, List.forall_mem_map]
  rfl

/-- An enum of which nothing was reported has legal values, and an entry for each in the resolver
maps that rename them, exactly when no two of its members are spelled alike. -/
theorem enumValues_legal_iff (t : ExportedType) (s : Synthesis) (hkind : t.kind = .enum)
    (hquiet : ((Lowering.typeDef t).run s).2.diagnostics = s.diagnostics) :
    ∃ d, ((Lowering.typeDef t).run s).1 = some d ∧ d.kind = .enum ∧
      List.Forall₂ Lowering.ValueFor t.enumMembers d.enumValues ∧
      (LegalValues d.enumValues ↔ SpelledApart t.enumMembers) ∧
      ∀ (schema : Schema) (dir : Path), Renames schema d →
        (ofSchema schema dir).entries.get? d.name = some (.values (valueEntries d)) ∧
          (OneEntryEach d.enumValues (valueEntries d) ↔ SpelledApart t.enumMembers) := by
  have hrun := (Lowering.typeDef_route t).enum_quiet hkind
  obtain ⟨values, hresult, hvalues⟩ := hrun.result hquiet
  refine ⟨_, hresult, rfl, hvalues, Lowering.legalValues_iff hvalues, fun schema dir hrenames => ?_⟩
  refine ⟨hrenames.get?_entries dir, ?_⟩
  rw [oneEntryEach_valueEntries_iff, Lowering.nodup_values_iff hvalues]

open Sample in
theorem enumValues_legal_status :
    let t := { exportedType "Status" .enum with enumMembers := ["inProgress", "done"].map textMember }
    t.kind = .enum ∧ ((Lowering.typeDef t).run {}).2.diagnostics = [] ∧
      ∃ d, ((Lowering.typeDef t).run {}).1 = some d ∧ LegalValues d.enumValues ∧
        Renames { baseTypes := [d] } d ∧ OneEntryEach d.enumValues (valueEntries d) ∧
          (ofSchema { baseTypes := [d] } file).entries.get? d.name =
            some (.values (valueEntries d)) := by
  intro t
  have hquiet : ((Lowering.typeDef t).run {}).2.diagnostics = [] := by decide +kernel
  obtain ⟨d, hd, -, -, hlegal, hentries⟩ := enumValues_legal_iff t {} rfl hquiet
  have hrenames : Renames { baseTypes := [d] } d := by
    refine ⟨List.mem_singleton_self d, List.nodup_singleton d.name, ?_, by simp,
      by simp [Schema.scalarNames]⟩
    have hrenamed : ((Lowering.typeDef t).run {}).1.map isRenamed = some true := by decide +kernel
    rw [hd] at hrenamed
    exact Option.some.inj hrenamed
  obtain ⟨hget, heach⟩ := hentries { baseTypes := [d] } file hrenames
  exact ⟨rfl, hquiet, d, hd, hlegal.mpr (by decide), hrenames, heach.mpr (by decide), hget⟩

open Sample in
/-- Both members become the value `IN_PROGRESS`, and nothing is reported. -/
theorem status_value_repeated :
    let t := { exportedType "Status" .enum with
      enumMembers := ["inProgress", "in_progress"].map textMember }
    (t.enumMembers.map (·.name)).Nodup ∧ ((Lowering.typeDef t).run {}).2.diagnostics = [] ∧
      ∃ d, ((Lowering.typeDef t).run {}).1 = some d ∧ ¬ (d.enumValues.map (·.name)).Nodup := by
  intro t
  have hquiet : ((Lowering.typeDef t).run {}).2.diagnostics = [] := by decide +kernel
  have hrun := (Lowering.typeDef_route t).enum_quiet rfl
  obtain ⟨values, hresult, hvalues⟩ := hrun.result (s := {}) hquiet
  refine ⟨by decide, hquiet, _, hresult, fun hdistinct => ?_⟩
  exact absurd ((Lowering.nodup_values_iff hvalues).mp hdistinct) (by decide)

end GraphQL

end SchemaCompiler

import Mathlib.Tactic.ByContra
import Mathlib.Tactic.Choose
import SchemaCompiler.Proofs.Schema.Circles

/-!
# Input objects that can be written down

Where no circle is found, needs fall in rank, so a value of an input object can be put together from
values of lower ones. An input object of which one field is given asks for less than all of its
fields and for more than `null`: its fields are not required, so the search takes none of them for a
need, and yet one of them has to have a value. Such types can trap each other without a circle.
Without circles, traps are all that keeps an input object from having a value.
-/

namespace SchemaCompiler.GraphQL

/-! ## Values -/

/-- What is written for an argument or a field; a leaf is anything that is not an input object. -/
inductive Written where
  | null
  | leaf
  | list (items : List Written)
  | object (fields : List (String × Written))
deriving Inhabited

/-- The type of the items of a list. -/
def FieldType.item (t : FieldType) : FieldType := .named t.typeName t.listItemNullable

/-- What may be written where a type is asked for. An ordinary input object has something written
for each field, `null` for one that is left out; of the others one field is given. -/
inductive Fits (inputs : List InputType) : FieldType → Written → Prop
  | null {type} : type.nullable = true → Fits inputs type .null
  | list {type items} :
      type.list = true → (∀ w ∈ items, Fits inputs type.item w) → Fits inputs type (.list items)
  | leaf {type} :
      type.list = false → type.typeName ∉ inputs.map (·.name) → Fits inputs type .leaf
  | object {type t} {written : InputValue → Written} :
      type.list = false → t ∈ inputs → t.name = type.typeName → t.oneOf = false →
        (∀ f ∈ t.fields, Fits inputs f.type (written f)) →
          Fits inputs type (.object (t.fields.map fun f => (f.name, written f)))
  | oneOf {type t f w} :
      type.list = false → t ∈ inputs → t.name = type.typeName → t.oneOf = true → f ∈ t.fields →
        w ≠ .null → Fits inputs f.type w → Fits inputs type (.object [(f.name, w)])

/-- Something other than `null` can be written. -/
def HasValue (inputs : List InputType) (type : FieldType) : Prop :=
  ∃ w, w ≠ .null ∧ Fits inputs type w

/-! ## Traps -/

/-- A value of a named type would hold one of a trapped type: it is trapped itself, or it is an
ordinary input object that requires a field of such a type. -/
inductive RunsInto (inputs trap : List InputType) : String → Prop
  | trapped {t} : t ∈ trap → RunsInto inputs trap t.name
  | field {t f} :
      t ∈ inputs → t.oneOf = false → f ∈ t.fields → f.type.nullable = false → f.type.list = false →
        RunsInto inputs trap f.type.typeName → RunsInto inputs trap t.name

/-- Input objects of which one field is given, and whichever it is, its value holds one of them
again. -/
structure Trap (inputs trap : List InputType) : Prop where
  ne_nil : trap ≠ []
  mem : ∀ t ∈ trap, t ∈ inputs
  oneOf : ∀ t ∈ trap, t.oneOf = true
  fields : ∀ t ∈ trap, ∀ f ∈ t.fields,
    f.type.list = false ∧ RunsInto inputs trap f.type.typeName

variable {inputs trap : List InputType}

theorem RunsInto.mem_names (h : Trap inputs trap) {name : String}
    (hruns : RunsInto inputs trap name) : name ∈ inputs.map (·.name) := by
  cases hruns with
  | trapped ht => exact List.mem_map_of_mem (h.mem _ ht)
  | field ht => exact List.mem_map_of_mem ht

/-- Where names are not taken twice, it can be read off a type how it runs into a trap. -/
theorem RunsInto.of_mem (h : Trap inputs trap) (hdistinct : (inputs.map (·.name)).Nodup)
    {t : InputType} (ht : t ∈ inputs) (hruns : RunsInto inputs trap t.name) :
    t ∈ trap ∨ t.oneOf = false ∧ ∃ f ∈ t.fields, f.type.nullable = false ∧ f.type.list = false ∧
      RunsInto inputs trap f.type.typeName := by
  generalize hname : t.name = name at hruns
  cases hruns with
  | @trapped u hu =>
    obtain rfl := List.inj_on_of_nodup_map hdistinct ht (h.mem u hu) hname
    exact Or.inl hu
  | @field u f hu hordinary hf hnull hplain hruns =>
    obtain rfl := List.inj_on_of_nodup_map hdistinct ht hu hname
    exact Or.inr ⟨hordinary, f, hf, hnull, hplain, hruns⟩

theorem Fits.nullable {type : FieldType} (h : Fits inputs type .null) : type.nullable = true := by
  cases h with
  | null hnull => exact hnull

/-- Nothing but `null` fits where a value would run into a trap. -/
theorem Trap.eq_null (h : Trap inputs trap) (hdistinct : (inputs.map (·.name)).Nodup)
    {type : FieldType} {w : Written} (hfits : Fits inputs type w) (hplain : type.list = false)
    (hruns : RunsInto inputs trap type.typeName) : w = .null := by
  induction hfits with
  | null => rfl
  | list hlist =>
    rw [hplain] at hlist
    cases hlist
  | leaf _ hunlisted => exact absurd (hruns.mem_names h) hunlisted
  | object _ ht hname hordinary hfields ih =>
    rcases RunsInto.of_mem h hdistinct ht (hname ▸ hruns) with
      htrapped | ⟨-, f, hf, hnull, hplain, hruns⟩
    · rw [h.oneOf _ htrapped] at hordinary
      cases hordinary
    · have hleft := hfields f hf
      rw [ih f hf hplain hruns] at hleft
      rw [hleft.nullable] at hnull
      cases hnull
  | oneOf _ ht hname hone hf hgiven _ ih =>
    rcases RunsInto.of_mem h hdistinct ht (hname ▸ hruns) with htrapped | ⟨hordinary, -⟩
    · obtain ⟨hplain, hruns⟩ := h.fields _ htrapped _ hf
      exact absurd (ih hplain hruns) hgiven
    · rw [hone] at hordinary
      cases hordinary

theorem Trap.not_hasValue (h : Trap inputs trap) (hdistinct : (inputs.map (·.name)).Nodup)
    {t : InputType} (ht : t ∈ trap) : ¬ HasValue inputs (.named t.name false) := by
  rintro ⟨w, hne, hfits⟩
  exact hne (h.eq_null hdistinct hfits rfl (.trapped ht))

/-! ## Putting values together -/

theorem hasValue_of_list {type : FieldType} (h : type.list = true) : HasValue inputs type :=
  ⟨.list [], nofun, .list h nofun⟩

/-- Where needs fall in rank, a type has a value unless it runs into types that have none. -/
theorem hasValue_of_rank {rank : String → Nat}
    (hrank : ∀ name need, InputNeeds inputs name need → rank need < rank name)
    (hfree : ∀ t ∈ inputs, t.oneOf = true → t ∉ trap → ∃ f ∈ t.fields, HasValue inputs f.type)
    {type : FieldType} (hplain : type.list = false)
    (hruns : ¬ RunsInto inputs trap type.typeName) : HasValue inputs type := by
  induction hlevel : rank type.typeName using Nat.strongRecOn generalizing type with
  | ind level ih =>
    by_cases hknown : type.typeName ∈ inputs.map (·.name)
    · obtain ⟨t, ht, hname⟩ := List.mem_map.mp hknown
      cases hone : t.oneOf with
      | true =>
        obtain ⟨f, hf, w, hgiven, hw⟩ :=
          hfree t ht hone fun htrapped => hruns (hname ▸ .trapped htrapped)
        exact ⟨.object [(f.name, w)], nofun, .oneOf hplain ht hname hone hf hgiven hw⟩
      | false =>
        have hfields : ∀ f ∈ t.fields, ∃ w, Fits inputs f.type w := by
          intro f hf
          cases hnull : f.type.nullable with
          | true => exact ⟨_, .null hnull⟩
          | false =>
            suffices hvalue : HasValue inputs f.type from hvalue.imp fun _ hw => hw.2
            cases hlist : f.type.list with
            | true => exact hasValue_of_list hlist
            | false =>
              by_cases hlisted : f.type.typeName ∈ inputs.map (·.name)
              · have hneeds : InputNeeds inputs type.typeName f.type.typeName :=
                  ⟨_, hlisted, t, ht, hname, f, hf, rfl, hnull, by simp [hlist], rfl⟩
                refine ih _ (hlevel ▸ hrank _ _ hneeds) hlist (fun hinto => hruns ?_) rfl
                exact hname ▸ .field ht hone hf hnull hlist hinto
              · exact ⟨.leaf, nofun, .leaf hlist hlisted⟩
        choose! written hwritten using hfields
        exact ⟨.object _, nofun, .object hplain ht hname hone hwritten⟩
    · exact ⟨.leaf, nofun, .leaf hplain hknown⟩

theorem not_runsInto_nil (name : String) : ¬ RunsInto inputs [] name := by
  intro hruns
  induction hruns with
  | trapped ht => cases ht
  | field _ _ _ _ _ _ ih => exact ih

open Classical in
/-- The input objects of which one field is given and none of their fields has a value. -/
noncomputable def stuck (inputs : List InputType) : List InputType :=
  inputs.filter fun t => t.oneOf = true ∧ ¬ ∃ f ∈ t.fields, HasValue inputs f.type

theorem mem_stuck {t : InputType} :
    t ∈ stuck inputs ↔
      t ∈ inputs ∧ t.oneOf = true ∧ ¬ ∃ f ∈ t.fields, HasValue inputs f.type := by
  simp only [stuck, List.mem_filter, decide_eq_true_eq]

theorem exists_hasValue_of_not_stuck {t : InputType} (ht : t ∈ inputs) (hone : t.oneOf = true)
    (hfree : t ∉ stuck inputs) : ∃ f ∈ t.fields, HasValue inputs f.type := by
  by_contra hnone
  exact hfree (mem_stuck.mpr ⟨ht, hone, hnone⟩)

/-- Where needs fall in rank, the types that are stuck trap each other. -/
theorem trap_stuck {rank : String → Nat}
    (hrank : ∀ name need, InputNeeds inputs name need → rank need < rank name)
    (hne : stuck inputs ≠ []) : Trap inputs (stuck inputs) where
  ne_nil := hne
  mem _ ht := (mem_stuck.mp ht).1
  oneOf _ ht := (mem_stuck.mp ht).2.1
  fields t ht f hf := by
    have hnone := (mem_stuck.mp ht).2.2
    have hplain : f.type.list = false := by
      by_contra hlist
      exact hnone ⟨f, hf, hasValue_of_list (Bool.not_eq_false _ ▸ hlist)⟩
    refine ⟨hplain, ?_⟩
    by_contra hruns
    exact hnone ⟨f, hf, hasValue_of_rank hrank (fun _ => exists_hasValue_of_not_stuck) hplain hruns⟩

/-- Where no circle is reported, every input object has a value unless some of them trap each
other. -/
theorem hasValue_iff_no_trap (inputs : List InputType) (hdistinct : (inputs.map (·.name)).Nodup)
    (hcircles : circularReferences inputs = []) :
    (∀ t ∈ inputs, HasValue inputs (.named t.name false)) ↔ ¬ ∃ trap, Trap inputs trap := by
  obtain ⟨rank, hrank⟩ := circularReferences_eq_nil_iff.mp hcircles
  constructor
  · rintro hvalues ⟨trap, htrap⟩
    obtain ⟨t, ht⟩ := List.exists_mem_of_ne_nil trap htrap.ne_nil
    exact htrap.not_hasValue hdistinct ht (hvalues t (htrap.mem t ht))
  · intro hnone t ht
    have hstuck : stuck inputs = [] := by
      by_contra hne
      exact hnone ⟨_, trap_stuck hrank hne⟩
    refine hasValue_of_rank hrank (fun u hu hone _ => ?_) rfl (not_runsInto_nil _)
    exact exists_hasValue_of_not_stuck hu hone (by simp [hstuck])

/-- A filter that asks for one of a name or a list of filters, and can be turned around. -/
def filterInputs : List InputType :=
  [⟨"FilterInput", [field "by" (.named "ByInput" false), field "not" (.named "FilterInput" true)],
      false, none, none, none, none⟩,
    ⟨"ByInput", [field "name" (.named "String" true), field "all" (.listOf "FilterInput" true false)],
      true, none, none, none, none⟩]
where
  field (name : String) (type : FieldType) : InputValue := ⟨name, type, none, none, none⟩

theorem hasValue_filterInputs :
    (filterInputs.map (·.name)).Nodup ∧ circularReferences filterInputs = [] ∧
      ∀ t ∈ filterInputs, HasValue filterInputs (.named t.name false) := by
  have hdistinct : (filterInputs.map (·.name)).Nodup := by decide
  have hcircles : circularReferences filterInputs = [] := by
    refine circularReferences_eq_nil_iff.mpr
      ⟨fun name => if name = "FilterInput" then 1 else 0, ?_⟩
    rintro name need ⟨location, -, t, ht, rfl, f, hf, rfl, hnull, -⟩
    rcases List.mem_pair.mp ht with rfl | rfl <;> rcases List.mem_pair.mp hf with rfl | rfl
    · decide
    all_goals cases hnull
  refine ⟨hdistinct, hcircles, (hasValue_iff_no_trap _ hdistinct hcircles).mpr ?_⟩
  rintro ⟨trap, htrap⟩
  obtain ⟨t, ht⟩ := List.exists_mem_of_ne_nil trap htrap.ne_nil
  -- only `ByInput` can be trapped, and a name gets out
  obtain rfl : t = filterInputs[1] := by
    rcases List.mem_pair.mp (htrap.mem t ht) with rfl | rfl
    · exact absurd (htrap.oneOf _ ht) (by decide)
    · rfl
  obtain ⟨-, hruns⟩ := htrap.fields _ ht _ List.mem_cons_self
  exact absurd (hruns.mem_names htrap) (by decide)

/-- An input object that holds itself, whichever field is given. -/
def nestedInputs : List InputType :=
  [⟨"NestedInput", [field "left", field "right"], true, none, none, none, none⟩]
where
  field (name : String) : InputValue := ⟨name, .named "NestedInput" true, none, none, none⟩

/-- No circle is reported of it, and it has no value. -/
theorem nestedInputs_without_value :
    (nestedInputs.map (·.name)).Nodup ∧ (∀ t ∈ nestedInputs, t.oneOf = true → t.fields ≠ []) ∧
      circularReferences nestedInputs = [] ∧
      ∃ t ∈ nestedInputs, ¬ HasValue nestedInputs (.named t.name false) := by
  have hdistinct : (nestedInputs.map (·.name)).Nodup := by decide
  have htrap : Trap nestedInputs nestedInputs := by
    refine ⟨nofun, fun t ht => ht, by decide, fun t ht f hf => ?_⟩
    obtain rfl := List.mem_singleton.mp ht
    have htype : f.type = .named "NestedInput" true := by
      rcases List.mem_pair.mp hf with rfl | rfl <;> rfl
    rw [htype]
    exact ⟨rfl, .trapped List.mem_cons_self⟩
  have hcircles : circularReferences nestedInputs = [] := by
    refine circularReferences_eq_nil_iff.mpr ⟨fun _ => 0, ?_⟩
    rintro name need ⟨location, -, t, ht, rfl, f, hf, rfl, hnull, -⟩
    obtain rfl := List.mem_singleton.mp ht
    rcases List.mem_pair.mp hf with rfl | rfl <;> cases hnull
  refine ⟨hdistinct, by decide, hcircles, _, List.mem_cons_self, ?_⟩
  exact htrap.not_hasValue hdistinct List.mem_cons_self

end SchemaCompiler.GraphQL

import Mathlib.Data.List.Perm.Subperm
import SchemaCompiler.Proofs.Schema.CircleSets
import SchemaCompiler.Proofs.Tables

/-!
# Which circles are found

The search finishes a name after all names that it needs, unless it meets one that is still on its
way; then it records the way back to it, which is a circle that holds both. So of the finished names
each needs only names that were finished before it or that are on a recorded circle with it. Away
from the recorded circles this ranks the names, and where needs fall in rank no way comes back to
itself: every circle meets a recorded one. Circles are missing exactly when all names can be ranked,
and taking input objects away makes no circle.
-/

namespace SchemaCompiler.GraphQL

/-! ## Needs -/

/-- An input object has a field of another input object's type where neither `null` nor a `null` item
can stand. The place is that of the field, or of the input object when the field has none. -/
def NeedsAt (inputs : List InputType) (name : String) (location : Option SourceLocation)
    (need : String) : Prop :=
  need ∈ inputs.map (·.name) ∧
    ∃ t ∈ inputs, t.name = name ∧ ∃ f ∈ t.fields, f.type.typeName = need ∧
      f.type.nullable = false ∧ (f.type.list = true → f.type.listItemNullable = false) ∧
      f.location.or t.location = location

/-- One name is needed by an input object of the other. -/
def InputNeeds (inputs : List InputType) (name need : String) : Prop :=
  ∃ location, NeedsAt inputs name location need

theorem FieldType.isHard_iff {t : FieldType} :
    t.isHard = true ↔ t.nullable = false ∧ (t.list = true → t.listItemNullable = false) := by
  simp [isHard, imp_iff_not_or]

/-- The needs of a name, each with its place. -/
def needs (graph : Table Needs) (name : String) : Needs := (graph.get? name).getD []

/-- The names that a name needs. -/
def needed (graph : Table Needs) (name : String) : List String := (needs graph name).map (·.name)

theorem mem_needsOf {known : List String} {t : InputType} {need : Step} :
    need ∈ needsOf known t ↔
      need.name ∈ known ∧ ∃ f ∈ t.fields, f.type.typeName = need.name ∧ f.type.isHard = true ∧
        f.location.or t.location = need.location := by
  simp only [needsOf, List.mem_map, List.mem_filter, Bool.and_eq_true, List.contains_iff_mem]
  constructor
  · rintro ⟨f, ⟨hf, hknown, hhard⟩, rfl⟩
    exact ⟨hknown, f, hf, rfl, hhard, rfl⟩
  · rintro ⟨hknown, f, hf, hneed, hhard, hplace⟩
    exact ⟨f, ⟨hf, hneed ▸ hknown, hhard⟩, by rw [hneed, hplace]⟩

/-- The table of needs while it is filled. -/
def addNeeds (known : List String) (graph : Table Needs) (t : InputType) : Table Needs :=
  graph.alter t.name fun needs => needs.getD [] ++ needsOf known t

theorem needs_addNeeds {known : List String} {graph : Table Needs} {t : InputType}
    {name : String} :
    needs (addNeeds known graph t) name =
      needs graph name ++ if t.name = name then needsOf known t else [] := by
  rw [needs, addNeeds, Table.get?_alter]
  by_cases hname : t.name = name
  · subst hname
    rw [if_pos rfl, if_pos rfl, Option.getD_some, needs]
  · rw [if_neg hname, if_neg (Ne.symm hname), List.append_nil, needs]

/-- A name has the needs of the input objects that have it. -/
theorem needs_foldl {known : List String} (inputs : List InputType) {graph : Table Needs}
    {name : String} :
    needs (inputs.foldl (addNeeds known) graph) name =
      needs graph name ++ (inputs.filter (·.name == name)).flatMap (needsOf known) := by
  induction inputs generalizing graph with
  | nil => rw [List.foldl_nil, List.filter_nil, List.flatMap_nil, List.append_nil]
  | cons t rest ih =>
    rw [List.foldl_cons, ih, needs_addNeeds, List.append_assoc, List.filter_cons]
    by_cases hname : t.name = name <;> simp [hname]

theorem needs_needsByName (inputs : List InputType) (name : String) :
    needs (needsByName inputs) name =
      (inputs.filter (·.name == name)).flatMap (needsOf (inputs.map (·.name))) :=
  needs_foldl inputs

theorem mem_needs_iff {inputs : List InputType} {name : String} {need : Step} :
    need ∈ needs (needsByName inputs) name ↔ NeedsAt inputs name need.location need.name := by
  rw [needs_needsByName]
  simp only [List.mem_flatMap, List.mem_filter, beq_iff_eq, and_assoc, mem_needsOf,
    FieldType.isHard_iff]
  constructor
  · rintro ⟨t, ht, hname, hknown, f, hf, hneed, hnull, hitems, hplace⟩
    exact ⟨hknown, t, ht, hname, f, hf, hneed, hnull, hitems, hplace⟩
  · rintro ⟨hknown, t, ht, hname, f, hf, hneed, hnull, hitems, hplace⟩
    exact ⟨t, ht, hname, hknown, f, hf, hneed, hnull, hitems, hplace⟩

theorem mem_needed_iff {inputs : List InputType} {name need : String} :
    need ∈ needed (needsByName inputs) name ↔ InputNeeds inputs name need := by
  rw [needed, List.mem_map]
  constructor
  · rintro ⟨step, hstep, rfl⟩
    exact ⟨step.location, mem_needs_iff.mp hstep⟩
  · rintro ⟨location, hneed⟩
    exact ⟨⟨need, location⟩, mem_needs_iff.mpr hneed, rfl⟩

theorem mem_keys_foldl {known : List String} (inputs : List InputType) {graph : Table Needs}
    {name : String} :
    name ∈ (inputs.foldl (addNeeds known) graph).keys ↔
      name ∈ graph.keys ∨ name ∈ inputs.map (·.name) := by
  induction inputs generalizing graph with
  | nil => simp
  | cons t rest ih =>
    have hkeys : name ∈ (addNeeds known graph t).keys ↔ name ∈ graph.keys ∨ name = t.name := by
      rw [addNeeds, Table.keys_alter]
      split
      · rename_i hmem
        exact ⟨Or.inl, fun h => h.elim id fun heq => heq ▸ hmem⟩
      · simp [Table.keys]
    rw [List.foldl_cons, ih, hkeys, or_assoc, List.map_cons, List.mem_cons]

theorem mem_keys_needsByName {inputs : List InputType} {name : String} :
    name ∈ (needsByName inputs).keys ↔ name ∈ inputs.map (·.name) := by
  rw [show needsByName inputs = inputs.foldl (addNeeds (inputs.map (·.name))) {} from rfl,
    mem_keys_foldl]
  simp [Table.keys]

/-! ## Ways and circles -/

/-- A step goes on to the name of the next one, at the place that it records. -/
def Leads (graph : Table Needs) (a b : Step) : Prop :=
  (⟨b.name, a.location⟩ : Step) ∈ needs graph a.name

theorem leads_iff {inputs : List InputType} {a b : Step} :
    Leads (needsByName inputs) a b ↔ NeedsAt inputs a.name a.location b.name :=
  mem_needs_iff

/-- Where a way ends, only the name matters. -/
theorem isChain_leads_snoc {graph : Table Needs} {way : List Step} {a b : Step}
    (h : (way ++ [a]).IsChain (Leads graph)) (hname : a.name = b.name) :
    (way ++ [b]).IsChain (Leads graph) := by
  rw [List.isChain_append] at h ⊢
  refine ⟨h.1, List.isChain_singleton _, fun last hlast next hnext => ?_⟩
  have hleads := h.2.2 last hlast a rfl
  obtain rfl : b = next := by simpa using hnext
  rwa [Leads, ← hname]

/-- Steps that lead back to the first of them, by way of different names. -/
structure Circular (graph : Table Needs) (steps : List Step) : Prop where
  ne_nil : steps ≠ []
  nodup : (steps.map (·.name)).Nodup
  closed : Closed (Leads graph) steps

/-- A circle stays one when it is turned to its smallest name. -/
theorem Circular.turned {graph : Table Needs} {steps : List Step} (h : Circular graph steps) :
    Circular graph (rotateToSmallest steps) := by
  obtain ⟨before, first, after, hsteps, hturned, -⟩ := rotateToSmallest_turns h.ne_nil
  have hnodup := h.nodup
  have hclosed := h.closed
  rw [hturned]
  rw [hsteps] at hnodup hclosed
  refine ⟨by simp, ?_, hclosed.turn⟩
  rw [List.map_append] at hnodup ⊢
  exact List.perm_append_comm.nodup_iff.mp hnodup

/-- Two names are on one circle. -/
def Together (cycles : List Cycle) (a b : String) : Prop := ∃ c ∈ cycles, a ∈ c.key ∧ b ∈ c.key

theorem Together.mono {cycles cycles' : List Cycle} {a b : String} (h : Together cycles a b)
    (hsubset : cycles ⊆ cycles') : Together cycles' a b := by
  obtain ⟨c, hc, hab⟩ := h
  exact ⟨c, hsubset hc, hab⟩

theorem together_insert {steps : List Step} {a b : String} (ha : a ∈ steps.map (·.name))
    (hb : b ∈ steps.map (·.name)) (cycles : List Cycle) :
    Together ((Cycle.ofSteps steps).insert cycles) a b := by
  obtain ⟨c, hc, hkey⟩ := Cycle.exists_key_insert (.ofSteps steps) cycles
  refine ⟨c, hc, ?_, ?_⟩ <;> rw [hkey, Cycle.mem_key_ofSteps, Cycle.mem_names_ofSteps]
  · exact ha
  · exact hb

/-! ## Finished names -/

/-- Each name needs only names behind it, or names that it shares a circle with. -/
def Settled (graph : Table Needs) (cycles : List Cycle) : List String → Prop
  | [] => True
  | name :: rest =>
    (∀ need ∈ needed graph name, need ∈ rest ∨ Together cycles name need) ∧
      Settled graph cycles rest

theorem Settled.mono {graph : Table Needs} {cycles cycles' : List Cycle} {order : List String}
    (h : Settled graph cycles order) (hsubset : cycles ⊆ cycles') :
    Settled graph cycles' order := by
  induction order with
  | nil => trivial
  | cons name rest ih =>
    exact ⟨fun need hneed => (h.1 need hneed).imp_right (·.mono hsubset), ih h.2⟩

/-- How far from the end of a list a name stands last. -/
def height : List String → String → Nat
  | [], _ => 0
  | _ :: rest, name => if name ∈ rest then height rest name else rest.length + 1

theorem height_le {order : List String} {name : String} (h : name ∈ order) :
    height order name ≤ order.length := by
  induction order with
  | nil => cases h
  | cons _ rest ih =>
    rw [height, List.length_cons]
    split
    · rename_i hrest
      exact Nat.le_succ_of_le (ih hrest)
    · exact Nat.le_refl _

theorem Settled.height_lt {graph : Table Needs} {cycles : List Cycle} {order : List String}
    (h : Settled graph cycles order) {name need : String} (hname : name ∈ order)
    (hneed : need ∈ needed graph name) (hapart : ¬ Together cycles name need) :
    need ∈ order ∧ height order need < height order name := by
  induction order with
  | nil => cases hname
  | cons first rest ih =>
    by_cases hrest : name ∈ rest
    · obtain ⟨hmem, hlt⟩ := ih h.2 hrest
      refine ⟨List.mem_cons_of_mem _ hmem, ?_⟩
      rwa [height, height, if_pos hmem, if_pos hrest]
    · obtain rfl := (List.mem_cons.mp hname).resolve_right hrest
      have hmem := (h.1 need hneed).resolve_right hapart
      refine ⟨List.mem_cons_of_mem _ hmem, ?_⟩
      rw [height, height, if_pos hmem, if_neg hrest]
      exact Nat.lt_succ_of_le (height_le hmem)

/-! ## The search -/

namespace Search

/-- The way to what a name needs. -/
def wayTo (path : List Step) (name : String) (need : Step) : List Step :=
  path ++ [⟨name, need.location⟩]

/-- What is done with one need of a name. -/
def step (graph : Table Needs) (fuel : Nat) (path : List Step) (name : String) (s : Search)
    (need : Step) : Search :=
  if (wayTo path name need).any (·.name == need.name) then
    { s with
      cycles := (Cycle.ofSteps ((wayTo path name need).dropWhile (·.name != need.name))).insert
        s.cycles }
  else if s.done.contains need.name then s
  else s.visit graph fuel (wayTo path name need) need.name

theorem visit_succ (graph : Table Needs) (fuel : Nat) (path : List Step) (name : String)
    (s : Search) :
    s.visit graph (fuel + 1) path name =
      { (needs graph name).foldl (step graph fuel path name) s with
        done := name :: ((needs graph name).foldl (step graph fuel path name) s).done } := rfl

/-- What was recorded are circles, no two of the same names, and the finished names are settled. -/
structure Sound (graph : Table Needs) (s : Search) : Prop where
  circular : ∀ c ∈ s.cycles, ∃ steps, Circular graph steps ∧ c = .ofSteps steps
  ascending : Cycle.Ascending s.cycles
  settled : Settled graph s.cycles s.done

theorem sound_empty (graph : Table Needs) : Sound graph {} where
  circular _ hc := by cases hc
  ascending := List.Pairwise.nil
  settled := trivial

/-- The search goes from one state to another one. -/
structure Advances (graph : Table Needs) (s s' : Search) : Prop where
  sound : Sound graph s → Sound graph s'
  finished : s.done ⊆ s'.done
  recorded : s.cycles ⊆ s'.cycles

theorem Advances.refl (graph : Table Needs) (s : Search) : Advances graph s s :=
  ⟨id, List.Subset.refl _, List.Subset.refl _⟩

theorem Advances.trans {graph : Table Needs} {s s' s'' : Search} (h : Advances graph s s')
    (h' : Advances graph s' s'') : Advances graph s s'' :=
  ⟨h'.sound ∘ h.sound, List.Subset.trans h.finished h'.finished,
    List.Subset.trans h.recorded h'.recorded⟩

theorem Advances.record {graph : Table Needs} {steps : List Step} (h : Circular graph steps)
    (s : Search) :
    Advances graph s { s with cycles := (Cycle.ofSteps steps).insert s.cycles } where
  sound hs := by
    refine ⟨fun c hc => ?_, hs.ascending.insert _, hs.settled.mono (Cycle.subset_insert _ _)⟩
    rcases Cycle.mem_insert hc with rfl | hc
    · exact ⟨steps, h, rfl⟩
    · exact hs.circular c hc
  finished := List.Subset.refl _
  recorded := Cycle.subset_insert _ _

/-- A run over items that advances with each of them reaches what each of them is to reach. -/
theorem foldl_advances {α : Type} {graph : Table Needs} {f : Search → α → Search}
    {Reaches : Search → α → Prop} {items : List α}
    (hkept : ∀ s s' a, Advances graph s s' → Reaches s a → Reaches s' a)
    (hf : ∀ s, ∀ a ∈ items, Advances graph s (f s a) ∧ Reaches (f s a) a) (s : Search) :
    Advances graph s (items.foldl f s) ∧ ∀ a ∈ items, Reaches (items.foldl f s) a := by
  induction items generalizing s with
  | nil => exact ⟨.refl graph s, fun _ ha => by cases ha⟩
  | cons first rest ih =>
    obtain ⟨hfirst, hreached⟩ := hf s first List.mem_cons_self
    obtain ⟨hrest, hothers⟩ := ih (fun s a ha => hf s a (List.mem_cons_of_mem _ ha)) (f s first)
    refine ⟨hfirst.trans hrest, fun a ha => ?_⟩
    rcases List.mem_cons.mp ha with rfl | ha
    · exact hkept _ _ _ hrest hreached
    · exact hothers a ha

/-- A way leads to a name by different names, and enough fuel is left to visit all other names. -/
structure OnWay (graph : Table Needs) (names : List String) (fuel : Nat) (path : List Step)
    (name : String) : Prop where
  nodup : (path.map (·.name) ++ [name]).Nodup
  known : ∀ n ∈ path.map (·.name) ++ [name], n ∈ names
  fuel : names.length ≤ fuel + path.length
  leads : (path ++ [(⟨name, none⟩ : Step)]).IsChain (Leads graph)

variable {graph : Table Needs} {names : List String} {fuel : Nat} {path : List Step}
  {name : String} {need : Step}

theorem OnWay.fuel_pos (h : OnWay graph names fuel path name) : fuel ≠ 0 := by
  rintro rfl
  have hlength := (List.subperm_of_subset h.nodup h.known).length_le
  have hfuel := h.fuel
  simp only [List.length_append, List.length_map, List.length_singleton] at hlength
  omega

theorem names_wayTo (path : List Step) (name : String) (need : Step) :
    (wayTo path name need).map (·.name) = path.map (·.name) ++ [name] := by
  simp [wayTo]

theorem OnWay.leads_next (h : OnWay graph names fuel path name) (hneed : need ∈ needs graph name) :
    (wayTo path name need ++ [(⟨need.name, none⟩ : Step)]).IsChain (Leads graph) := by
  rw [wayTo, List.append_assoc, List.singleton_append, List.isChain_append_cons_cons]
  exact ⟨isChain_leads_snoc h.leads rfl, hneed, List.isChain_singleton _⟩

theorem OnWay.next (h : OnWay graph names (fuel + 1) path name) (hneed : need ∈ needs graph name)
    (hknown : need.name ∈ names)
    (hnew : ¬ (wayTo path name need).any (·.name == need.name) = true) :
    OnWay graph names fuel (wayTo path name need) need.name := by
  refine ⟨?_, ?_, ?_, h.leads_next hneed⟩
  · rw [names_wayTo]
    refine (List.perm_append_singleton _ _).nodup_iff.mpr
      (List.nodup_cons.mpr ⟨fun hmem => hnew ?_, h.nodup⟩)
    rw [← names_wayTo path name need] at hmem
    obtain ⟨q, hq, hname⟩ := List.mem_map.mp hmem
    exact List.any_eq_true.mpr ⟨q, hq, beq_iff_eq.mpr hname⟩
  · rw [names_wayTo]
    intro n hn
    rcases List.mem_append.mp hn with hn | hn
    · exact h.known n hn
    · exact List.mem_singleton.mp hn ▸ hknown
  · have hfuel := h.fuel
    simp only [wayTo, List.length_append, List.length_singleton]
    omega

/-- Where a way meets a need that is on it, the rest of the way from there is a circle, which the
name at the end of the way is on too. -/
theorem OnWay.circular (h : OnWay graph names fuel path name) (hneed : need ∈ needs graph name)
    (hmet : (wayTo path name need).any (·.name == need.name) = true) :
    Circular graph ((wayTo path name need).dropWhile (·.name != need.name)) ∧
      name ∈ ((wayTo path name need).dropWhile (·.name != need.name)).map (·.name) ∧
      need.name ∈ ((wayTo path name need).dropWhile (·.name != need.name)).map (·.name) := by
  have hthere : need.name ∈ (wayTo path name need).map (·.name) := by
    obtain ⟨q, hq, hname⟩ := List.any_eq_true.mp hmet
    exact List.mem_map.mpr ⟨q, hq, beq_iff_eq.mp hname⟩
  obtain ⟨first, rest, hback, hfirst⟩ := exists_dropWhile_name hthere
  obtain ⟨before, hway⟩ : first :: rest <:+ wayTo path name need :=
    hback ▸ List.dropWhile_suffix _
  rw [hback]
  refine ⟨⟨List.cons_ne_nil _ _, ?_, ?_⟩, ?_, ?_⟩
  · have hnodup := h.nodup
    rw [← names_wayTo path name need, ← hway, List.map_append] at hnodup
    exact hnodup.sublist (List.sublist_append_right _ _)
  · have hleads := h.leads_next hneed
    rw [← hway, List.append_assoc] at hleads
    exact isChain_leads_snoc (List.isChain_append.mp hleads).2.1 hfirst.symm
  · have hlast : (first :: rest).getLast? = (wayTo path name need).getLast? := by
      rw [← hway, List.getLast?_append_of_ne_nil _ (List.cons_ne_nil _ _)]
    rw [wayTo, List.getLast?_concat] at hlast
    exact List.mem_map.mpr ⟨_, List.mem_of_getLast? hlast, rfl⟩
  · exact List.mem_map.mpr ⟨first, List.mem_cons_self, hfirst⟩

/-- What a name needs is finished, or it shares a circle with the name. -/
def Meets (name : String) (s : Search) (need : Step) : Prop :=
  need.name ∈ s.done ∨ Together s.cycles name need.name

theorem Meets.mono {s s' : Search} (h : Meets name s need) (hadvances : Advances graph s s') :
    Meets name s' need :=
  h.imp (fun hdone => hadvances.finished hdone) (·.mono hadvances.recorded)

/-- A visit finishes a name behind all that it needs, apart from what it shares a circle with. -/
theorem visit_advances (hclosed : ∀ n, ∀ need ∈ needs graph n, need.name ∈ names)
    (hway : OnWay graph names fuel path name) (s : Search) :
    Advances graph s (s.visit graph fuel path name) ∧
      name ∈ (s.visit graph fuel path name).done := by
  induction fuel generalizing path name s with
  | zero => exact absurd rfl hway.fuel_pos
  | succ fuel ih =>
    have hstep : ∀ s : Search, ∀ need ∈ needs graph name,
        Advances graph s (step graph fuel path name s need) ∧
          Meets name (step graph fuel path name s need) need := by
      intro s need hneed
      rw [step]
      split
      · rename_i hmet
        obtain ⟨hcircular, hname, hthere⟩ := hway.circular hneed hmet
        exact ⟨.record hcircular s, Or.inr (together_insert hname hthere s.cycles)⟩
      · rename_i hnew
        split
        · rename_i hdone
          exact ⟨.refl graph s, Or.inl (List.contains_iff_mem.mp hdone)⟩
        · obtain ⟨hadvances, hdone⟩ := ih (hway.next hneed (hclosed name need hneed) hnew) s
          exact ⟨hadvances, Or.inl hdone⟩
    obtain ⟨hrun, hmet⟩ := foldl_advances (fun _ _ _ hadvances h => h.mono hadvances) hstep s
    rw [visit_succ]
    refine ⟨⟨fun hs => ?_, fun n hn => List.mem_cons_of_mem _ (hrun.finished hn), hrun.recorded⟩,
      List.mem_cons_self⟩
    have hsound := hrun.sound hs
    refine ⟨hsound.circular, hsound.ascending, fun need hneed => ?_, hsound.settled⟩
    obtain ⟨found, hfound, rfl⟩ := List.mem_map.mp hneed
    exact hmet found hfound

/-- A name that a search starts at. -/
def start (graph : Table Needs) (fuel : Nat) (s : Search) (name : String) : Search :=
  if s.done.contains name then s else s.visit graph fuel [] name

theorem start_advances (hclosed : ∀ n, ∀ need ∈ needs graph n, need.name ∈ names) (s : Search)
    (hname : name ∈ names) :
    Advances graph s (start graph names.length s name) ∧
      name ∈ (start graph names.length s name).done := by
  rw [start]
  split
  · rename_i hdone
    exact ⟨.refl graph s, List.contains_iff_mem.mp hdone⟩
  · refine visit_advances hclosed ⟨by simp, fun n hn => ?_, Nat.le_refl _, .singleton _⟩ s
    exact List.mem_singleton.mp hn ▸ hname

end Search

/-! ## Circles -/

/-- The names that are searched, in order. -/
def searched (inputs : List InputType) : List String :=
  (needsByName inputs).keys.mergeSort (· ≤ ·)

theorem mem_searched {inputs : List InputType} {name : String} :
    name ∈ searched inputs ↔ name ∈ inputs.map (·.name) := by
  rw [searched, List.mem_mergeSort, mem_keys_needsByName]

theorem findCycles_eq_foldl (inputs : List InputType) :
    findCycles inputs =
      ((searched inputs).foldl
        (Search.start (needsByName inputs) (searched inputs).length) {}).cycles := rfl

/-- The circles are those of a search that finished all names. -/
theorem exists_search (inputs : List InputType) :
    ∃ final : Search, findCycles inputs = final.cycles ∧ final.Sound (needsByName inputs) ∧
      ∀ name ∈ inputs.map (·.name), name ∈ final.done := by
  have hclosed : ∀ n, ∀ need ∈ needs (needsByName inputs) n, need.name ∈ searched inputs :=
    fun n need hneed => mem_searched.mpr (mem_needs_iff.mp hneed).1
  have hkept : ∀ (s s' : Search) (name : String), s.Advances (needsByName inputs) s' →
      name ∈ s.done → name ∈ s'.done :=
    fun _ _ _ hadvances hdone => hadvances.finished hdone
  obtain ⟨hrun, hfinished⟩ := Search.foldl_advances hkept
    (fun s _ hname => Search.start_advances hclosed s hname) {}
  exact ⟨_, findCycles_eq_foldl inputs, hrun.sound (Search.sound_empty _),
    fun name hname => hfinished name (mem_searched.mpr hname)⟩

/-- Where every name is finished, needs fall in rank away from the recorded circles. -/
theorem Search.Sound.height_lt {inputs : List InputType} {s : Search}
    (h : s.Sound (needsByName inputs)) (hfinished : ∀ name ∈ inputs.map (·.name), name ∈ s.done)
    {name need : String} (hneed : InputNeeds inputs name need)
    (hapart : ∀ c ∈ s.cycles, name ∉ c.key) : height s.done need < height s.done name := by
  obtain ⟨-, -, t, ht, hname, -⟩ := id hneed
  refine (h.settled.height_lt (hfinished name (hname ▸ List.mem_map_of_mem ht))
    (mem_needed_iff.mpr hneed) ?_).2
  rintro ⟨c, hc, hon, -⟩
  exact hapart c hc hon

/-- No circle is reported exactly when names can be ranked so that what is needed ranks lower. -/
theorem circularReferences_eq_nil_iff {inputs : List InputType} :
    circularReferences inputs = [] ↔
      ∃ rank : String → Nat, ∀ name need, InputNeeds inputs name need → rank need < rank name := by
  obtain ⟨final, hcycles, hsound, hfinished⟩ := exists_search inputs
  rw [circularReferences, List.map_eq_nil_iff, hcycles]
  constructor
  · intro hnil
    refine ⟨height final.done, fun name need hneed =>
      hsound.height_lt hfinished hneed fun c hc => ?_⟩
    rw [hnil] at hc
    cases hc
  · rintro ⟨rank, hrank⟩
    refine List.eq_nil_iff_forall_not_mem.mpr fun c hc => ?_
    obtain ⟨steps, hcircular, -⟩ := hsound.circular c hc
    have hfalls : Closed (fun a b : Step => rank b.name < rank a.name) steps :=
      hcircular.closed.imp_of_mem fun a _ b hleads => hrank _ _ ⟨_, leads_iff.mp hleads⟩
    exact hcircular.ne_nil hfalls.eq_nil_of_rank

/-- Taking input objects away makes no circle. -/
theorem circularReferences_of_subset {inputs fewer : List InputType} (hsubset : fewer ⊆ inputs)
    (h : circularReferences inputs = []) : circularReferences fewer = [] := by
  rw [circularReferences_eq_nil_iff] at h ⊢
  obtain ⟨rank, hrank⟩ := h
  refine ⟨rank, fun name need hneed => hrank name need ?_⟩
  obtain ⟨location, hknown, t, ht, hname, hfield⟩ := hneed
  exact ⟨location, List.map_subset _ hsubset hknown, t, hsubset ht, hname, hfield⟩

/-! ## Circles that are reported -/

/-- A circle goes by different names from the smallest of them back to it, each step by a field at
the place of the step. The report is at the place of the first one. -/
structure Cycle.Reported (inputs : List InputType) (c : Cycle) : Prop where
  distinct : c.names.Nodup
  closed : Closed (fun a b => NeedsAt inputs a.name a.location b.name) c.steps
  first : ∃ first rest, c.steps = first :: rest ∧ (∀ name ∈ c.names, first.name ≤ name) ∧
    c.diagnostic.location = first.location

theorem Circular.reported {inputs : List InputType} {steps : List Step}
    (h : Circular (needsByName inputs) steps) : (Cycle.ofSteps steps).Reported inputs := by
  have hturned := h.turned
  refine ⟨hturned.nodup, hturned.closed.imp_of_mem fun a _ b hleads => leads_iff.mp hleads, ?_⟩
  obtain ⟨before, first, after, -, hrotated, hsmallest⟩ := rotateToSmallest_turns h.ne_nil
  refine ⟨first, after ++ before, hrotated, fun name hname => ?_, ?_⟩
  · obtain ⟨step, hstep, rfl⟩ := List.mem_map.mp (Cycle.mem_names_ofSteps.mp hname)
    exact hsmallest step hstep
  · rw [Cycle.diagnostic, Cycle.ofSteps, hrotated]
    rfl

theorem Cycle.Reported.closed_names {inputs : List InputType} {c : Cycle}
    (h : c.Reported inputs) : Closed (InputNeeds inputs) c.names :=
  closed_map.mpr (h.closed.imp_of_mem fun a _ _ hneeds => ⟨a.location, hneeds⟩)

theorem Cycle.Reported.names_ne_nil {inputs : List InputType} {c : Cycle}
    (h : c.Reported inputs) : c.names ≠ [] := by
  obtain ⟨first, rest, hsteps, -⟩ := h.first
  simp [names, hsteps]

/-- Where every name is finished, no way round misses all recorded circles. -/
theorem Search.Sound.meets {inputs : List InputType} {s : Search}
    (h : s.Sound (needsByName inputs)) (hfinished : ∀ name ∈ inputs.map (·.name), name ∈ s.done)
    {names : List String} (hclosed : Closed (InputNeeds inputs) names) (hne : names ≠ []) :
    ∃ c ∈ s.cycles, ∃ name ∈ names, name ∈ c.key := by
  by_contra hmissed
  push Not at hmissed
  have hfalls : Closed (fun a b => height s.done b < height s.done a) names := by
    refine hclosed.imp_of_mem fun a ha b hneed => h.height_lt hfinished hneed fun c hc => ?_
    exact hmissed c hc a ha
  exact hne hfalls.eq_nil_of_rank

/-- What is reported are circles, no two of the same names, and every circle meets one of them. -/
theorem circularReferences_exact (inputs : List InputType) :
    circularReferences inputs = (findCycles inputs).map Cycle.diagnostic ∧
      (∀ c ∈ findCycles inputs, c.Reported inputs) ∧
      (∀ names, Closed (InputNeeds inputs) names → names ≠ [] →
        ∃ c ∈ findCycles inputs, ∃ name ∈ names, name ∈ c.names) ∧
      (circularReferences inputs = [] ↔
        ∀ names, Closed (InputNeeds inputs) names → names = []) ∧
      (findCycles inputs).Pairwise fun c d => ¬ ∀ name, name ∈ c.names ↔ name ∈ d.names := by
  obtain ⟨final, hcycles, hsound, hfinished⟩ := exists_search inputs
  have hreported : ∀ c ∈ findCycles inputs, c.Reported inputs := by
    intro c hc
    obtain ⟨steps, hcircular, rfl⟩ := hsound.circular c (hcycles ▸ hc)
    exact hcircular.reported
  have hmeets : ∀ names, Closed (InputNeeds inputs) names → names ≠ [] →
      ∃ c ∈ findCycles inputs, ∃ name ∈ names, name ∈ c.names := by
    intro names hclosed hne
    obtain ⟨c, hc, name, hname, hkey⟩ := hsound.meets hfinished hclosed hne
    obtain ⟨steps, -, rfl⟩ := hsound.circular c hc
    exact ⟨_, hcycles ▸ hc, name, hname, Cycle.mem_key_ofSteps.mp hkey⟩
  refine ⟨rfl, hreported, hmeets, ⟨fun hnone names hclosed => ?_, fun hacyclic => ?_⟩, ?_⟩
  · by_contra hne
    obtain ⟨c, hc, -⟩ := hmeets names hclosed hne
    rw [List.map_eq_nil_iff.mp hnone] at hc
    cases hc
  · refine List.map_eq_nil_iff.mpr (List.eq_nil_iff_forall_not_mem.mpr fun c hc => ?_)
    exact (hreported c hc).names_ne_nil (hacyclic _ (hreported c hc).closed_names)
  · rw [hcycles]
    refine hsound.ascending.key_ne.imp_of_mem fun {c d} hc hd hkeys hnames => hkeys ?_
    obtain ⟨xs, -, rfl⟩ := hsound.circular c hc
    obtain ⟨ys, -, rfl⟩ := hsound.circular d hd
    exact Cycle.key_ofSteps_eq_iff.mpr hnames

end SchemaCompiler.GraphQL

import Mathlib
import SchemaCompiler.Proofs.DocumentOrder
import SchemaCompiler.Proofs.Schema.Circles
import SchemaCompiler.Proofs.Schema.Validity

/-!
# The order of what is checked

The checks of arguments and input fields look at one place each, so another order of extensions,
fields and input objects leaves the same faults, and dropping repeated ones leaves one of each. The
search for circles starts at names in their order and goes down the fields of one input object in
theirs. Where each name stands for one input object, it does not see in which order these come.
-/

namespace SchemaCompiler.GraphQL

/-! ## The search in another order -/

namespace Search

variable {graph graph' : Table Needs}

/-- The search looks at needs only. -/
theorem visit_congr (h : needs graph = needs graph') (fuel : Nat) :
    visit graph fuel = visit graph' fuel := by
  induction fuel with
  | zero => rfl
  | succ fuel ih =>
    have hstep : step graph fuel = step graph' fuel := by
      funext path name s need
      rw [step, step, ih]
    funext path name s
    rw [visit_succ, visit_succ, h, hstep]

theorem start_congr (h : needs graph = needs graph') : start graph = start graph' := by
  funext fuel s name
  rw [start, start, visit_congr h]

end Search

section Inputs

variable {inputs inputs' : List InputType}

theorem needsOf_congr {known known' : List String} (h : ∀ name, name ∈ known ↔ name ∈ known') :
    needsOf known = needsOf known' := by
  have hcontains : ∀ name, known.contains name = known'.contains name := by
    intro name
    rw [Bool.eq_iff_iff, List.contains_iff_mem, List.contains_iff_mem, h]
  funext t
  simp only [needsOf, hcontains]

/-- A name that stands for one input object selects it in every order. -/
theorem filter_name_congr (hdistinct : (inputs.map (·.name)).Nodup) (hperm : inputs.Perm inputs')
    (name : String) : inputs.filter (·.name == name) = inputs'.filter (·.name == name) := by
  have hfiltered := hperm.filter (·.name == name)
  have hpairwise : inputs.Pairwise fun a b => ¬ (a.name == b.name) = true := by
    rw [List.nodup_iff_pairwise_ne, List.pairwise_map] at hdistinct
    exact hdistinct.imp fun hne heq => hne (beq_iff_eq.mp heq)
  by_cases hmem : ∃ t ∈ inputs, t.name = name
  · obtain ⟨t, ht, hname⟩ := hmem
    rw [filter_key_eq_singleton hpairwise ht (beq_iff_eq.mpr hname)] at hfiltered ⊢
    exact (List.singleton_perm.mp hfiltered)
  · have hnone : inputs.filter (·.name == name) = [] := by
      refine List.filter_eq_nil_iff.mpr fun t ht heq => ?_
      exact hmem ⟨t, ht, beq_iff_eq.mp heq⟩
    rw [hnone] at hfiltered ⊢
    exact (List.nil_perm.mp hfiltered).symm

theorem needs_congr (hdistinct : (inputs.map (·.name)).Nodup) (hperm : inputs.Perm inputs') :
    needs (needsByName inputs) = needs (needsByName inputs') := by
  have hknown : ∀ name, name ∈ inputs.map (·.name) ↔ name ∈ inputs'.map (·.name) :=
    fun name => (hperm.map _).mem_iff
  funext name
  rw [needs_needsByName, needs_needsByName, filter_name_congr hdistinct hperm, needsOf_congr hknown]

theorem keys_foldl_addNeeds {known : List String} {graph : Table Needs}
    (h : (graph.keys ++ inputs.map (·.name)).Nodup) :
    (inputs.foldl (addNeeds known) graph).keys = graph.keys ++ inputs.map (·.name) := by
  induction inputs generalizing graph with
  | nil => rw [List.foldl_nil, List.map_nil, List.append_nil]
  | cons t rest ih =>
    have hnew : t.name ∉ graph.keys := fun hmem =>
      (List.nodup_append.mp h).2.2 t.name hmem t.name List.mem_cons_self rfl
    have hkeys : (addNeeds known graph t).keys = graph.keys ++ [t.name] := by
      rw [addNeeds, Table.keys_alter, if_neg hnew]
    rw [List.map_cons, List.append_cons, ← hkeys] at h ⊢
    exact ih h

theorem searched_congr (hdistinct : (inputs.map (·.name)).Nodup) (hperm : inputs.Perm inputs') :
    searched inputs = searched inputs' := by
  have hdistinct' : (inputs'.map (·.name)).Nodup := (hperm.map _).nodup_iff.mp hdistinct
  have hkeys : (needsByName inputs).keys.Perm (needsByName inputs').keys := by
    rw [show (needsByName inputs).keys = _ from keys_foldl_addNeeds hdistinct,
      show (needsByName inputs').keys = _ from keys_foldl_addNeeds hdistinct']
    exact hperm.map _
  have hsorted : (searched inputs).Perm (searched inputs') :=
    (List.mergeSort_perm _ _).trans (hkeys.trans (List.mergeSort_perm _ _).symm)
  exact hsorted.eq_of_pairwise' (List.pairwise_mergeSort' (· ≤ ·) _)
    (List.pairwise_mergeSort' (· ≤ ·) _)

/-- The same circles are found, each with its way and the places on it. -/
theorem circularReferences_congr (hdistinct : (inputs.map (·.name)).Nodup)
    (hperm : inputs.Perm inputs') : circularReferences inputs = circularReferences inputs' := by
  rw [circularReferences, circularReferences, findCycles_eq_foldl, findCycles_eq_foldl,
    searched_congr hdistinct hperm, Search.start_congr (needs_congr hdistinct hperm)]

end Inputs

/-! ## Reports in another order -/

/-- Two reports with the same diagnostics, and with the same circles in the same order. -/
structure SameFaults (ds ds' : List Diagnostic) : Prop where
  diagnostics : ∀ d, (∃ k ∈ ds, (d == k) = true) ↔ ∃ k ∈ ds', (d == k) = true
  valid : hasErrors ds = hasErrors ds'
  circles : ds.filter (·.code == .circularInputReference) =
    ds'.filter (·.code == .circularInputReference)

section Reports

variable {ds ds' : List Diagnostic}

theorem exists_beq_dropRepeated (herror : ∀ d ∈ ds, d.isError = true)
    (herror' : ∀ d ∈ ds', d.isError = true) (hsubset : ds ⊆ ds') {d : Diagnostic}
    (h : ∃ k ∈ dropRepeated ds, (d == k) = true) : ∃ k ∈ dropRepeated ds', (d == k) = true := by
  obtain ⟨k, hk, hsame⟩ := h
  have hmem : k ∈ ds := mem_of_mem_dropRepeated hk
  obtain ⟨k', hk', hrepeats⟩ := exists_mem_dropRepeated (hsubset hmem)
  have hseverity : k'.severity = k.severity :=
    (beq_iff_eq.mp (herror' k' (mem_of_mem_dropRepeated hk'))).trans
      (beq_iff_eq.mp (herror k hmem)).symm
  have hagain : (k == k') = true := by
    simp only [Repeats, Bool.and_eq_true, beq_iff_eq] at hrepeats
    refine BEq.symm (Diagnostic.beq_iff.mpr ⟨hrepeats.1.1, hrepeats.1.2, hseverity, ?_⟩)
    exact SourceLocation.option_beq_iff.mp hrepeats.2
  exact ⟨k', hk', BEq.trans hsame hagain⟩

theorem filter_dropRepeated (code : Code) (ds : List Diagnostic) :
    (dropRepeated ds).filter (·.code == code) = dropRepeated (ds.filter (·.code == code)) := by
  rw [dropRepeated_eq_foldl, dropRepeated_eq_foldl]
  refine filter_foldl_addNew (fun a b hsame => ?_) ds []
  simp only [saysAgain, Bool.and_eq_true, beq_iff_eq] at hsame
  rw [hsame.1.1]

/-- Errors in another order leave the same report. -/
theorem sameFaults_dropRepeated (herror : ∀ d ∈ ds, d.isError = true)
    (hsame : ∀ d, d ∈ ds ↔ d ∈ ds')
    (hcircles : ds.filter (·.code == .circularInputReference) =
      ds'.filter (·.code == .circularInputReference)) :
    SameFaults (dropRepeated ds) (dropRepeated ds') where
  diagnostics d := by
    have herror' : ∀ d ∈ ds', d.isError = true := fun d hd => herror d ((hsame d).mpr hd)
    exact ⟨exists_beq_dropRepeated herror herror' fun d => (hsame d).mp,
      exists_beq_dropRepeated herror' herror fun d => (hsame d).mpr⟩
  valid := by
    have herror' : ∀ d ∈ ds', d.isError = true := fun d hd => herror d ((hsame d).mpr hd)
    rw [← Bool.not_inj_iff, Bool.eq_iff_iff]
    simp only [Bool.not_eq_true', hasErrors_dropRepeated_iff herror,
      hasErrors_dropRepeated_iff herror', List.eq_nil_iff_forall_not_mem, hsame]
  circles := by
    rw [filter_dropRepeated, filter_dropRepeated, hcircles]

end Reports

/-! ## Faults in another order -/

section Faults

variable {extensions extensions' : List TypeExtension} {inputs inputs' : List InputType}
  {d : NameDomains}

theorem code_of_checkInput {name site : String} {location unknownLocation : Option SourceLocation}
    {unknown : Code} {found : Diagnostic}
    (h : checkInput d name site location unknown unknownLocation = some found) :
    found.code = .outputTypeInInput ∨ found.code = unknown := by
  unfold checkInput at h
  split at h
  · cases h
    exact Or.inl rfl
  · split at h
    · cases h
    · cases h
      exact Or.inr rfl

/-- Of all faults, the circles are those that the search finds. -/
theorem filter_inputFaults (extensions : List TypeExtension) (inputs : List InputType)
    (d : NameDomains) :
    (inputFaults extensions inputs d).filter (·.code == .circularInputReference) =
      circularReferences inputs := by
  have hcircles : (circularReferences inputs).filter (·.code == .circularInputReference) =
      circularReferences inputs := by
    refine List.filter_eq_self.mpr fun found hfound => ?_
    obtain ⟨c, -, rfl⟩ := List.mem_map.mp hfound
    rfl
  have hnone : ((extensions.flatMap fun e =>
        e.fields.flatMap fun f => f.field.args.filterMap (checkArgument d e.target f.field)) ++
      inputs.flatMap fun t => t.fields.filterMap (checkInputField d t)).filter
        (·.code == .circularInputReference) = [] := by
    refine List.filter_eq_nil_iff.mpr fun found hfound => ?_
    rcases List.mem_append.mp hfound with hfound | hfound
    · simp only [List.mem_flatMap, List.mem_filterMap] at hfound
      obtain ⟨e, -, f, -, a, -, hfound⟩ := hfound
      rcases code_of_checkInput hfound with hcode | hcode <;> simp [hcode]
    · simp only [List.mem_flatMap, List.mem_filterMap] at hfound
      obtain ⟨t, -, f, -, hfound⟩ := hfound
      rcases code_of_checkInput hfound with hcode | hcode <;> simp [hcode]
  rw [inputFaults, List.filter_append, hcircles, hnone, List.nil_append]

theorem exists_argumentFault (h : ∀ e ∈ extensions, ∃ e' ∈ extensions', e.Reorders e')
    {found : Diagnostic}
    (hfault : ∃ e ∈ extensions, ∃ f ∈ e.fields, ∃ a ∈ f.field.args,
      checkArgument d e.target f.field a = some found) :
    ∃ e ∈ extensions', ∃ f ∈ e.fields, ∃ a ∈ f.field.args,
      checkArgument d e.target f.field a = some found := by
  obtain ⟨e, he, f, hf, a, ha, hfound⟩ := hfault
  obtain ⟨e', he', hreorders⟩ := h e he
  exact ⟨e', he', f, hreorders.fields.mem_iff.mp hf, a, ha, hreorders.target ▸ hfound⟩

theorem mem_inputFaults_congr
    (hextensions : Rearranges TypeExtension.Reorders extensions extensions')
    (hdistinct : (inputs.map (·.name)).Nodup) (hinputs : inputs.Perm inputs') (found : Diagnostic) :
    found ∈ inputFaults extensions inputs d ↔ found ∈ inputFaults extensions' inputs' d := by
  rw [mem_inputFaults_iff, mem_inputFaults_iff, circularReferences_congr hdistinct hinputs]
  refine or_congr ⟨exists_argumentFault fun e he => ?_, exists_argumentFault fun e' he' => ?_⟩
    (or_congr ?_ Iff.rfl)
  · exact hextensions.exists_mem he
  · obtain ⟨e, he, hreorders⟩ := hextensions.exists_mem_left he'
    exact ⟨e, he, hreorders.symm⟩
  · simp only [hinputs.mem_iff]

/-- Extensions, their fields and input objects may come in any order, as long as each name stands
for one input object: the same faults are reported, and the same circles, each with its way and its
place. -/
theorem validateArguments_sameFaults (d : NameDomains)
    (hextensions : Rearranges TypeExtension.Reorders extensions extensions')
    (hdistinct : (inputs.map (·.name)).Nodup) (hinputs : inputs.Perm inputs') :
    SameFaults (validateArguments extensions inputs d)
      (validateArguments extensions' inputs' d) := by
  rw [validateArguments_eq, validateArguments_eq]
  refine sameFaults_dropRepeated (fun _ => isError_inputFaults)
    (mem_inputFaults_congr hextensions hdistinct hinputs) ?_
  rw [filter_inputFaults, filter_inputFaults, circularReferences_congr hdistinct hinputs]

end Faults

/-- An input object that cannot do without another one. -/
def needingInput (name need : String) : InputType :=
  ⟨name, [⟨"next", .named need false, none, none, none⟩], false, none, none, none, none⟩

/-- A field with an argument. -/
def fieldTaking (name argument : String) : ResolvedField :=
  ⟨⟨name, .named "ID" false, [⟨"by", .named argument true, none, none, none⟩], none, none, none⟩,
    none, none⟩

/-- Two input objects that need each other, and arguments of types of which one is unknown. -/
theorem validateArguments_sameFaults_orders :
    let orders := fieldTaking "orders" "Order"
    let shops := fieldTaking "shops" "Shop"
    let inputs := [needingInput "Order" "Buyer", needingInput "Buyer" "Order"]
    let known : NameDomains := { inputTypes := ["Order", "Buyer"] }
    SameFaults (validateArguments [⟨queryType, [orders, shops]⟩] inputs known)
      (validateArguments [⟨queryType, [shops, orders]⟩] inputs.reverse known) :=
  validateArguments_sameFaults _ ⟨_, .rfl, .cons ⟨rfl, List.Perm.swap _ _ _⟩ .nil⟩ (by decide)
    (List.reverse_perm _).symm

end SchemaCompiler.GraphQL

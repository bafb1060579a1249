import Mathlib
import SchemaCompiler.Proofs.Config
import SchemaCompiler.Proofs.Sample
import SchemaCompiler.Proofs.Scalars
import SchemaCompiler.Scalar.Registry

/-!
# Configured scalars without conflicts

The check of a configuration compares every scalar entry with the earlier ones and refuses a second
mapping of a scalar for a side that is served already. The collector groups bindings and counts the
ones that take input. Where only the configuration binds scalars, the groups hold its mappings, so
what the check lets through leaves the collector nothing to report: each scalar has at most one
mapping for each side.
-/

namespace SchemaCompiler

/-- Two mappings of one scalar that serve a common side. -/
def ScalarMapping.Collides (a b : ScalarMapping) : Prop :=
  a.scalar = b.scalar ∧ ∃ side, admits a.only side = true ∧ admits b.only side = true

namespace ConfigCheck

theorem overlap_iff (a b : Option Side) :
    overlap a b = true ↔ ∃ side, admits a side = true ∧ admits b side = true := by
  constructor
  · intro h
    rcases a with _ | _ | _ <;> rcases b with _ | _ | _ <;>
      first | exact ⟨.input, rfl, rfl⟩ | exact ⟨.output, rfl, rfl⟩ | cases h
  · rintro ⟨side, ha, hb⟩
    rcases a with _ | _ | _ <;> rcases b with _ | _ | _ <;> cases side <;>
      first | rfl | exact absurd ha (by decide) | exact absurd hb (by decide)

/-! ## What is read of an entry -/

variable {place : String} {entry : Json} {m : ScalarMapping}

theorem readOnly_of_optionally {only : Option Side}
    (h : Optionally Side.write (entry.get? "only") only) : (readOnly place entry).1 = some only := by
  unfold readOnly
  cases hget : entry.get? "only" with
  | none =>
    rw [hget] at h
    cases h
    rfl
  | some value =>
    rw [hget] at h
    cases h with
    | null => rfl
    | value side => cases side <;> rfl

/-- An entry without faults of its own is drafted with the name and the side of its mapping. -/
theorem readScalar_draft (place : String) (hmaps : Maps entry m) :
    (readScalar place entry).1.name = some m.scalar ∧
      (readScalar place entry).1.only = some m.only := by
  refine ⟨?_, readOnly_of_optionally hmaps.only⟩
  show (readName place entry).1 = some m.scalar
  rw [readName, hmaps.scalar]

/-! ## Entries in a row -/

/-- No mapping that was seen serves a side of the scalar that the mapping serves. -/
def Seen.Free (seen : Seen) (m : ScalarMapping) : Prop :=
  ∀ prior ∈ seen.mappings, prior.name = m.scalar → overlap prior.only m.only = false

theorem free_of_conflicts {seen : Seen} {d : ScalarDraft} (hname : d.name = some m.scalar)
    (honly : d.only = some m.only) (h : conflicts place seen d = []) : seen.Free m := by
  have hmapping : checkMapping place seen m.scalar m.only = [] := by
    have hfront := (List.append_eq_nil_iff.mp h).1
    rwa [hname, honly] at hfront
  intro prior hprior hsame
  cases hfind : seen.mappings.find? fun p => p.name == m.scalar && overlap p.only m.only with
  | none =>
    have hno := List.find?_eq_none.mp hfind prior hprior
    simpa [hsame] using hno
  | some first =>
    rw [checkMapping, hfind] at hmapping
    cases hmapping

theorem mappings_remember {seen : Seen} {index : Nat} {d : ScalarDraft}
    (hname : d.name = some m.scalar) (honly : d.only = some m.only) :
    (remember seen index d).mappings = seen.mappings ++ [⟨index, m.scalar, m.only⟩] := by
  rw [remember, hname, honly]

theorem scalarEntries_object (seen : Seen) (index : Nat) (fields : List (String × Json))
    (rest : List Json) :
    scalarEntries seen index (.object fields :: rest) =
      (readScalar (indexed "scalars" index) (.object fields)).2 ++
          conflicts (indexed "scalars" index) seen
            (readScalar (indexed "scalars" index) (.object fields)).1 ++
        scalarEntries (remember seen index
          (readScalar (indexed "scalars" index) (.object fields)).1) (index + 1) rest := rfl

/-- Entries that pass the check are mappings that neither collide with each other nor with what was
seen before. -/
theorem scalarEntries_free {entries : List Json} {mappings : List ScalarMapping}
    (hmaps : List.Forall₂ Maps entries mappings) {seen : Seen} {index : Nat}
    (h : scalarEntries seen index entries = []) :
    (mappings.Pairwise fun a b => ¬ a.Collides b) ∧ ∀ m ∈ mappings, seen.Free m := by
  induction hmaps generalizing seen index with
  | nil => exact ⟨.nil, fun _ hm => by cases hm⟩
  | @cons entry m entries mappings hfirst hrest ih =>
    cases entry with
    | object fields =>
      rw [scalarEntries_object] at h
      obtain ⟨hfront, hnext⟩ := List.append_eq_nil_iff.mp h
      have hconflicts := (List.append_eq_nil_iff.mp hfront).2
      obtain ⟨hname, honly⟩ := readScalar_draft (indexed "scalars" index) hfirst
      obtain ⟨hpairwise, hfree⟩ := ih hnext
      have hnew : ∀ other ∈ mappings, ¬ m.Collides other := by
        intro other hother hcollides
        have hseen := hfree other hother ⟨index, m.scalar, m.only⟩
          (by rw [mappings_remember hname honly]; simp) hcollides.1
        rw [(overlap_iff _ _).mpr hcollides.2] at hseen
        cases hseen
      refine ⟨List.pairwise_cons.mpr ⟨hnew, hpairwise⟩,
        List.forall_mem_cons.mpr ⟨free_of_conflicts hname honly hconflicts, ?_⟩⟩
      intro other hother prior hprior
      refine hfree other hother prior ?_
      rw [mappings_remember hname honly]
      exact List.mem_append_left _ hprior
    | _ => cases h

end ConfigCheck

/-- A document without faults is read, and no two of its mappings serve one side of a scalar. -/
theorem parseConfig_free {value : Json} {path : Option Path}
    (h : hasErrors (validateConfig value path) = false) :
    ∃ config, (parseConfig value path).value = some config ∧
      config.scalars.Pairwise fun a b => ¬ a.Collides b := by
  have hnone := document_of_validateConfig h
  obtain ⟨file, hread, hfollows⟩ := exists_file_of_document hnone
  refine ⟨file.resolve, by rw [parseConfig_of_ofJson? hnone hread], ?_⟩
  have hkeys := (ConfigCheck.document_ok hnone).2
    ("scalars", ConfigCheck.scalars) (by simp [ConfigCheck.keys])
  have hscalars := hfollows.scalars
  cases hget : value.get? "scalars" with
  | none =>
    rw [hget] at hscalars
    rw [List.forall₂_nil_left_iff.mp hscalars]
    exact .nil
  | some scalars =>
    rw [hget] at hkeys hscalars
    cases scalars with
    | array entries => exact (ConfigCheck.scalarEntries_free hscalars hkeys).1
    | _ => cases hkeys

/-! ## Groups of bindings -/

namespace ScalarGroup

/-- The bindings of a scalar. -/
def bindingsOf (bindings : List ScalarBinding) (name : String) : List ScalarBinding :=
  bindings.filter (·.scalar == name)

/-- A group of bindings holds bindings of its scalar only, and none twice. -/
theorem sublist_of_mem_ofBindings {bindings : List ScalarBinding} {g : ScalarGroup}
    (h : g ∈ ofBindings bindings) : g.bindings.Sublist (bindingsOf bindings g.name) := by
  rw [(bindings_of_mem_ofBindings h).2]
  exact foldl_addNew_sublist _ []

end ScalarGroup

/-! ## Programs that declare no scalar -/

/-- An alias of the program is written as a use of `DefineScalar`. -/
def Program.DeclaresScalar (p : Program) : Prop :=
  ∃ m ∈ p.modules, ∃ entry ∈ m.symbols.types.entries, ∃ decl,
    entry.2.node = .alias decl ∧ (ScalarRegistry.scalarBody? p m decl.body).isSome

namespace ScalarRegistry

theorem ofSite_of_no_scalar {p : Program} {m : SourceModule} {entry : String × TypeSite}
    (h : ∀ decl, entry.2.node = .alias decl → (scalarBody? p m decl.body).isSome = false) :
    ofSite p m entry = pure none := by
  obtain ⟨name, site⟩ := entry
  rw [ofSite]
  split
  · rename_i decl halias
    have hnone : scalarBody? p m decl.body = none := by simpa using h decl halias
    rw [hnone]
  · rfl

theorem bindings_build {p : Program} (h : ¬ p.DeclaresScalar) (mappings : List ScalarMapping) :
    (build p mappings).value.bindings = mappings.map ScalarBinding.ofMapping := by
  have hmodule : ∀ m ∈ p.modules, (ofModule p m).value = [] := by
    intro m hm
    have hsite : ∀ entry ∈ m.symbols.types.entries, (ofSite p m entry).value = none := by
      intro entry hentry
      rw [ofSite_of_no_scalar fun decl halias => ?_]
      · rfl
      · rw [Bool.eq_false_iff]
        exact fun hsome => h ⟨m, hm, entry, hentry, decl, halias, hsome⟩
    rw [ofModule, Reported.value_eachSome]
    exact List.filterMap_eq_nil_iff.mpr hsite
  have hdeclared : (p.modules.map fun m => (ofModule p m).value).flatten = [] := by
    rw [List.flatten_eq_nil_iff]
    intro found hfound
    obtain ⟨m, hm, rfl⟩ := List.mem_map.mp hfound
    exact hmodule m hm
  simp [build, bindings, hdeclared]

end ScalarRegistry

/-! ## What is collected -/

/-- The mappings of a scalar that can be used on a side. -/
def mappingsFor (mappings : List ScalarMapping) (scalar : String) (side : Side) :
    List ScalarMapping :=
  mappings.filter fun m => m.scalar == scalar && admits m.only side

theorem length_mappingsFor_le_one {mappings : List ScalarMapping}
    (h : mappings.Pairwise fun a b => ¬ a.Collides b) (scalar : String) (side : Side) :
    (mappingsFor mappings scalar side).length ≤ 1 := by
  have hpairwise : (mappingsFor mappings scalar side).Pairwise fun a b => ¬ a.Collides b :=
    h.filter _
  have hfor : ∀ m ∈ mappingsFor mappings scalar side,
      m.scalar = scalar ∧ admits m.only side = true := by
    intro m hm
    simpa using (List.mem_filter.mp hm).2
  match hfound : mappingsFor mappings scalar side with
  | [] => exact Nat.zero_le _
  | [_] => exact Nat.le_refl _
  | a :: b :: rest =>
    rw [hfound] at hpairwise hfor
    obtain ⟨hscalar, hside⟩ := hfor a (by simp)
    obtain ⟨hscalar', hside'⟩ := hfor b (by simp)
    have hfree := (List.pairwise_cons.mp hpairwise).1 b (by simp)
    exact absurd ⟨hscalar.trans hscalar'.symm, side, hside, hside'⟩ hfree

namespace ScalarGroup

/-- The bindings of a group for a side are no more than the mappings of its scalar for it. -/
theorem length_filter_le {mappings : List ScalarMapping} {g : ScalarGroup}
    (h : g ∈ ofBindings (mappings.map ScalarBinding.ofMapping)) (side : Side) :
    (g.bindings.filter fun b => admits b.only side).length ≤
      (mappingsFor mappings g.name side).length := by
  have hsub := (sublist_of_mem_ofBindings h).filter fun b => admits b.only side
  have heq : (bindingsOf (mappings.map ScalarBinding.ofMapping) g.name).filter
      (fun b => admits b.only side) =
        (mappingsFor mappings g.name side).map ScalarBinding.ofMapping := by
    rw [bindingsOf, List.filter_filter, List.filter_map, mappingsFor]
    congr 1
    refine List.filter_congr fun m _ => ?_
    exact Bool.and_comm _ _
  rw [heq] at hsub
  simpa using hsub.length_le

theorem length_outputTypes_le (g : ScalarGroup) :
    g.outputTypes.length ≤ (g.bindings.filter (·.givesOutput)).length := by
  rw [outputTypes_eq, ← List.length_map ScalarTypeRef.ofBinding]
  exact (foldl_addNew_sublist _ []).length_le

theorem length_inputs_of_problem {g : ScalarGroup} {d : Diagnostic} (h : d ∈ g.problems)
    (hcode : d.code = .multipleInputTypes) : 1 < g.inputs.length := by
  by_contra hfew
  simp only [problems, if_neg hfew, List.nil_append, List.mem_append] at h
  rcases h with h | h <;> split at h
  · rw [List.mem_singleton.mp h] at hcode
    cases hcode
  · cases h
  · rw [List.mem_singleton.mp h] at hcode
    cases hcode
  · cases h

end ScalarGroup

/-- Where only a configuration without faults binds scalars, no scalar has several input types, and
each has at most one mapping for each side. -/
theorem collectScalars_single_of_validateConfig (value : Json) (path : Option Path)
    (h : hasErrors (validateConfig value path) = false) (p : Program) (hp : ¬ p.DeclaresScalar) :
    ∃ config, (parseConfig value path).value = some config ∧
      (∀ d ∈ (collectScalars
          (ScalarRegistry.build p config.scalars).value.bindings).diagnostics,
        d.code ≠ .multipleInputTypes) ∧
      ∀ s ∈ (collectScalars (ScalarRegistry.build p config.scalars).value.bindings).scalars,
        s.outputTypes.length ≤ 1 ∧
          ∀ side, (mappingsFor config.scalars s.name side).length ≤ 1 := by
  obtain ⟨config, hconfig, hfree⟩ := parseConfig_free h
  refine ⟨config, hconfig, ?_⟩
  rw [ScalarRegistry.bindings_build hp]
  have hsingle : ∀ scalar side, (mappingsFor config.scalars scalar side).length ≤ 1 :=
    length_mappingsFor_le_one hfree
  refine ⟨fun d hd hcode => ?_, fun s hs => ⟨?_, hsingle s.name⟩⟩
  · obtain ⟨g, hg, hproblem⟩ := List.mem_flatMap.mp hd
    have hmany := ScalarGroup.length_inputs_of_problem hproblem hcode
    have hfew := (ScalarGroup.length_filter_le hg .input).trans (hsingle g.name .input)
    simp only [ScalarGroup.inputs, ScalarBinding.takesInput_eq] at hmany
    omega
  · obtain ⟨g, hg, rfl⟩ := List.mem_map.mp hs
    have hfew := (ScalarGroup.length_filter_le hg .output).trans (hsingle g.name .output)
    simp only [← ScalarBinding.givesOutput_eq] at hfew
    exact (ScalarGroup.length_outputTypes_le g).trans hfew

namespace Sample

attribute [local irreducible] String.decEq

/-- A type of a package that is mapped for each side by an entry of its own. -/
def dayEntry (only : String) : Json :=
  .object [
    ("name", .string "Date"),
    ("tsType", .object [("name", .string "Day"), ("from", .string "dates")]),
    ("only", .string only)]

def dayDocument : Json :=
  .object [("scalars", .array [dayEntry "input", dayEntry "output"])]

theorem dayDocument_clean : hasErrors (validateConfig dayDocument none) = false := by
  cbv

def nicknameProgram : Program :=
  program [interface "User" [property "nickname" (named "Nickname")],
    typeAlias "Nickname" (keyword .string)] []

theorem nicknameProgram_no_scalar : ¬ nicknameProgram.DeclaresScalar := by
  rintro ⟨m, hm, entry, hentry, decl, halias, hscalar⟩
  obtain rfl := List.mem_singleton.mp hm
  rcases List.mem_cons.mp hentry with rfl | hentry
  · cases halias
  · obtain rfl := List.mem_singleton.mp hentry
    cases halias
    cases hscalar

end Sample

theorem collectScalars_single_days :
    hasErrors (validateConfig Sample.dayDocument none) = false ∧
      ¬ Sample.nicknameProgram.DeclaresScalar ∧
      ∃ config, (parseConfig Sample.dayDocument none).value = some config ∧
        (∀ d ∈ (collectScalars
            (ScalarRegistry.build Sample.nicknameProgram config.scalars).value.bindings).diagnostics,
          d.code ≠ .multipleInputTypes) ∧
        ∀ s ∈ (collectScalars
            (ScalarRegistry.build Sample.nicknameProgram config.scalars).value.bindings).scalars,
          s.outputTypes.length ≤ 1 ∧
            ∀ side, (mappingsFor config.scalars s.name side).length ≤ 1 :=
  ⟨Sample.dayDocument_clean, Sample.nicknameProgram_no_scalar,
    collectScalars_single_of_validateConfig Sample.dayDocument none Sample.dayDocument_clean
      Sample.nicknameProgram Sample.nicknameProgram_no_scalar⟩

end SchemaCompiler

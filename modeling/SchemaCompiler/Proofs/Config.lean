import Mathlib
import SchemaCompiler.Config.OfJson
import SchemaCompiler.Proofs.Diagnostics
import SchemaCompiler.Proofs.Lists

/-!
# Configurations without faults

A document is checked as it was written, and then read with types. The two agree: what is found
without faults can be read, and the configuration says what the document says. For each part of a
document one lemma states what the check has shown, and that the part is read as that.
-/

namespace SchemaCompiler

/-! ## Optional values -/

/-- A value that may be left out or `null`, and is written in one way otherwise. -/
inductive Optionally {α : Type} (write : α → Json) : Option Json → Option α → Prop where
  | absent : Optionally write none none
  | null : Optionally write (some .null) none
  | value (a : α) : Optionally write (some (write a)) (some a)

def Side.write (side : Side) : Json := .string side.text

theorem Side.ofText?_eq_some {text : String} {side : Side} (h : Side.ofText? text = some side) :
    text = side.text := by
  unfold Side.ofText? at h
  split at h <;> cases h <;> rfl

theorem Side.ofJson?_write (side : Side) : Side.ofJson? side.write = some side := by
  cases side <;> rfl

/-- An optional value is read as it is written. -/
theorem Optionally.read {α : Type} {write : α → Json} {read : Json → Option α} {j : Json}
    {name : String} {found : Option α} (h : Optionally write (j.get? name) found)
    (hread : ∀ a, read (write a) = some a) (hnull : ∀ a, write a ≠ .null) :
    j.optional? read name = some found := by
  unfold Json.optional?
  cases hget : j.get? name with
  | none =>
    rw [hget] at h
    cases h
    rfl
  | some value =>
    rw [hget] at h
    cases h with
    | null => rfl
    | value a =>
      split
      · rename_i heq
        cases heq
      · rename_i heq
        exact absurd (Option.some.inj heq) (hnull a)
      · rename_i heq
        cases heq
        rw [hread, Option.map_some]

theorem Optionally.string {j : Json} {name : String} {found : Option String}
    (h : Optionally .string (j.get? name) found) :
    j.optional? Json.string? name = some found :=
  h.read (fun _ => rfl) fun _ => by simp

/-! ## Scalars -/

/-- A mapping says what an entry says. -/
structure Maps (entry : Json) (m : ScalarMapping) : Prop where
  scalar : entry.get? "name" = some (.string m.scalar)
  typeName : (entry.get? "tsType").bind (·.get? "name") = some (.string m.typeName)
  importPath : Optionally .string ((entry.get? "tsType").bind (·.get? "from")) m.importPath
  only : Optionally Side.write (entry.get? "only") m.only
  description : Optionally .string (entry.get? "description") m.description

namespace ConfigCheck

variable {place : String} {entry : Json}

theorem readName_ok (h : (readName place entry).2 = []) :
    ∃ name, entry.get? "name" = some (.string name) := by
  unfold readName at h
  split at h
  · cases h
  · exact ⟨_, by assumption⟩
  · cases h

theorem readTypeName_ok (h : (readTypeName place entry).2 = []) :
    ∃ name, entry.get? "name" = some (.string name) := by
  unfold readTypeName at h
  split at h
  · cases h
  · exact ⟨_, by assumption⟩
  · cases h

theorem readImport_ok (h : (readImport place entry).2 = []) :
    ∃ found, Optionally .string (entry.get? "from") found := by
  unfold readImport at h
  split at h
  · rename_i hget
    exact ⟨none, hget ▸ .absent⟩
  · rename_i hget
    exact ⟨none, hget ▸ .null⟩
  · rename_i text hget
    exact ⟨some text, hget ▸ .value text⟩
  · cases h

theorem readOnly_ok (h : (readOnly place entry).2 = []) :
    ∃ found, Optionally Side.write (entry.get? "only") found := by
  unfold readOnly at h
  split at h
  · rename_i hget
    exact ⟨none, hget ▸ .absent⟩
  · rename_i hget
    exact ⟨none, hget ▸ .null⟩
  · rename_i other _ hget
    split at h
    · rename_i side hside
      obtain ⟨text, htext, hof⟩ := Option.bind_eq_some_iff.mp hside
      refine ⟨some side, ?_⟩
      cases other <;> cases htext
      rw [hget, Side.ofText?_eq_some hof]
      exact .value side
    · cases h

theorem checkDescription_ok (h : checkDescription place entry = []) :
    ∃ found, Optionally .string (entry.get? "description") found := by
  unfold checkDescription at h
  split at h
  · rename_i hget
    exact ⟨none, hget ▸ .absent⟩
  · rename_i hget
    exact ⟨none, hget ▸ .null⟩
  · rename_i text hget
    exact ⟨some text, hget ▸ .value text⟩
  · cases h

theorem readType_ok (h : (readType place entry).2 = []) :
    ∃ type name found, entry.get? "tsType" = some type ∧ type.get? "name" = some (.string name) ∧
      Optionally .string (type.get? "from") found := by
  unfold readType at h
  split at h
  · cases h
  · rename_i fields hget
    obtain ⟨hname, hfrom⟩ := List.append_eq_nil_iff.mp h
    obtain ⟨name, hname⟩ := readTypeName_ok hname
    obtain ⟨found, hfound⟩ := readImport_ok hfrom
    exact ⟨.object fields, name, found, hget, hname, hfound⟩
  · cases h

/-- An entry without faults of its own is read as a mapping that says the same. -/
theorem readScalar_ok (h : (readScalar place entry).2 = []) :
    ∃ e, ScalarEntry.ofJson? entry = some e ∧ Maps entry e.mapping := by
  obtain ⟨hfront, hdescription⟩ := List.append_eq_nil_iff.mp h
  obtain ⟨hfront, honly⟩ := List.append_eq_nil_iff.mp hfront
  obtain ⟨hname, htype⟩ := List.append_eq_nil_iff.mp hfront
  obtain ⟨name, hname⟩ := readName_ok hname
  obtain ⟨type, typeName, specifier, hget, htypeName, himport⟩ := readType_ok htype
  obtain ⟨only, honly⟩ := readOnly_ok honly
  obtain ⟨description, hdescription⟩ := checkDescription_ok hdescription
  have htype : ScalarType.ofJson? type = some ⟨typeName, specifier⟩ := by
    simp [ScalarType.ofJson?, Json.required?, htypeName, Json.string?, himport.string]
  refine ⟨⟨name, ⟨typeName, specifier⟩, only, description⟩, ?_, ?_⟩
  · simp [ScalarEntry.ofJson?, Json.required?, hname, Json.string?, hget, htype,
      honly.read Side.ofJson?_write fun _ => by simp [Side.write], hdescription.string]
  · exact ⟨hname, by rw [hget]; exact htypeName, by rw [hget]; exact himport, honly, hdescription⟩

theorem scalarEntries_ok {entries : List Json} {seen : Seen} {index : Nat}
    (h : scalarEntries seen index entries = []) :
    ∀ entry ∈ entries, ∃ e, ScalarEntry.ofJson? entry = some e ∧ Maps entry e.mapping := by
  induction entries generalizing seen index with
  | nil => simp
  | cons first rest ih =>
    cases first with
    | object fields =>
      rw [scalarEntries] at h
      obtain ⟨hfront, hrest⟩ := List.append_eq_nil_iff.mp h
      obtain ⟨hfaults, -⟩ := List.append_eq_nil_iff.mp hfront
      exact List.forall_mem_cons.mpr ⟨readScalar_ok hfaults, ih hrest⟩
    | _ => cases h

/-! ## Other keys -/

/-- What passes a check is `null`, or is read. -/
def Readable {α : Type} (check : Json → List Fault) (read : Json → Option α) : Prop :=
  ∀ j, check j = [] → j = .null ∨ ∃ a, read j = some a

theorem Readable.optional {α : Type} {check : Json → List Fault} {read : Json → Option α}
    (hread : Readable check read) {j : Json} {name : String}
    (h : (j.get? name).elim [] check = []) : ∃ found, j.optional? read name = some found := by
  unfold Json.optional?
  split
  · exact ⟨none, rfl⟩
  · exact ⟨none, rfl⟩
  · rename_i value hnull hget
    rw [hget] at h
    rcases hread value h with rfl | ⟨a, ha⟩
    · exact absurd rfl hnull
    · exact ⟨some a, by rw [ha, Option.map_some]⟩

theorem exists_strings {check : Json × Nat → List Fault} {items : List Json}
    (h : items.zipIdx.flatMap check = [])
    (hread : ∀ item index, check (item, index) = [] → ∃ text, item.string? = some text) :
    ∃ texts, items.mapM Json.string? = some texts := by
  have hall : ∀ item ∈ items, ∃ text, item.string? = some text ∧ True := by
    intro item hitem
    rw [← List.zipIdx_map_fst 0 items] at hitem
    obtain ⟨⟨_, index⟩, hmem, rfl⟩ := List.mem_map.mp hitem
    obtain ⟨text, htext⟩ := hread _ index (List.flatMap_eq_nil_iff.mp h _ hmem)
    exact ⟨text, htext, trivial⟩
  obtain ⟨texts, htexts, -⟩ := exists_mapM hall
  exact ⟨texts, htexts⟩

theorem readable_sourceDir : Readable sourceDir Json.string? := by
  intro j h
  cases j with
  | string text => exact Or.inr ⟨text, rfl⟩
  | _ => cases h

theorem readable_ignoreGlobs : Readable ignoreGlobs Json.strings? := by
  intro j h
  cases j with
  | array items =>
    refine Or.inr (exists_strings h fun item index hitem => ?_)
    cases item with
    | string text => exact ⟨text, rfl⟩
    | _ => cases hitem
  | _ => cases h

theorem readable_tsconfigPath : Readable tsconfigPath Json.string? := by
  intro j h
  cases j with
  | null => exact Or.inl rfl
  | string text => exact Or.inr ⟨text, rfl⟩
  | _ => cases h

theorem readable_hookCommands : Readable hookCommands ConfigFile.commands? := by
  intro j h
  cases j with
  | null => exact Or.inl rfl
  | string command => exact Or.inr ⟨[command], rfl⟩
  | array commands =>
    refine Or.inr (exists_strings h fun item index hitem => ?_)
    cases item with
    | string text => exact ⟨text, rfl⟩
    | _ => cases hitem
  | _ => cases h

theorem readable_hooks : Readable hooks ConfigFile.hooks? := by
  intro j h
  cases j with
  | object fields => exact Or.inr (readable_hookCommands.optional h)
  | _ => cases h

theorem exists_pruning {j : Json} (h : (j.get? "enablePruning").elim [] enablePruning = []) :
    ∃ pruning, ConfigFile.pruning? j = some pruning := by
  unfold ConfigFile.pruning?
  cases hget : j.get? "enablePruning" with
  | none => exact ⟨false, rfl⟩
  | some value =>
    rw [hget] at h
    cases value with
    | bool pruning => exact ⟨pruning, rfl⟩
    | _ => cases h

end ConfigCheck

/-! ## Output paths -/

/-- The path of an output: the default one where nothing is said, and none for `null`. -/
inductive Chooses (default : String) : Option Json → Option Path → Prop where
  | absent : Chooses default none (some ⟨default⟩)
  | suppressed : Chooses default (some .null) none
  | path (text : String) : Chooses default (some (.string text)) (some ⟨text⟩)

namespace ConfigCheck

theorem outputPath_ok {j : Json} {key : String} (h : outputPath j key = []) :
    ∃ path, OutputPath.ofField? j key = some path ∧
      ∀ default, Chooses default (j.get? key) (path.resolve default) := by
  unfold outputPath at h
  unfold OutputPath.ofField?
  cases hget : j.get? key with
  | none => exact ⟨.absent, rfl, fun _ => .absent⟩
  | some value =>
    rw [hget] at h
    cases value with
    | null => exact ⟨.suppressed, rfl, fun _ => .suppressed⟩
    | string text => exact ⟨.path text, rfl, fun _ => .path text⟩
    | _ => cases h

/-- Output paths that pass the check are read as the document says. -/
theorem output_ok {j : Json} (h : (j.get? "output").elim [] output = []) :
    ∃ found, j.optional? OutputPaths.ofJson? "output" = some found ∧
      ∀ default, Chooses default ((j.get? "output").bind (·.get? "resolversPath"))
          ((found.getD {}).resolvers.resolve default) ∧
        Chooses default ((j.get? "output").bind (·.get? "typeDefsPath"))
          ((found.getD {}).typeDefs.resolve default) ∧
        Chooses default ((j.get? "output").bind (·.get? "schemaPath"))
          ((found.getD {}).schema.resolve default) := by
  unfold Json.optional?
  cases hget : j.get? "output" with
  | none => exact ⟨none, rfl, fun _ => ⟨.absent, .absent, .absent⟩⟩
  | some value =>
    rw [hget] at h
    cases value with
    | object fields =>
      have hkeys := List.flatMap_eq_nil_iff.mp h
      obtain ⟨resolvers, hresolvers, hchosen⟩ := outputPath_ok (hkeys "resolversPath" (by simp))
      obtain ⟨typeDefs, htypeDefs, hchosen'⟩ := outputPath_ok (hkeys "typeDefsPath" (by simp))
      obtain ⟨schema, hschema, hchosen''⟩ := outputPath_ok (hkeys "schemaPath" (by simp))
      refine ⟨some ⟨resolvers, typeDefs, schema⟩, ?_, fun default => ?_⟩
      · simp [OutputPaths.ofJson?, Json.object?, hresolvers, htypeDefs, hschema]
      · exact ⟨hchosen default, hchosen' default, hchosen'' default⟩
    | _ => cases h

/-! ## Documents -/

/-- Scalars that pass the check are read one by one. -/
theorem scalars_ok {j : Json} (h : (j.get? "scalars").elim [] scalars = []) :
    ∃ entries, ConfigFile.scalars? j = some entries ∧
      List.Forall₂ Maps (((j.get? "scalars").bind Json.array?).getD [])
        (entries.map ScalarEntry.mapping) := by
  unfold ConfigFile.scalars?
  cases hget : j.get? "scalars" with
  | none => exact ⟨[], rfl, .nil⟩
  | some value =>
    rw [hget] at h
    cases value with
    | array items =>
      obtain ⟨entries, hentries, hmaps⟩ := exists_mapM (scalarEntries_ok h)
      exact ⟨entries, hentries, List.forall₂_map_right_iff.mpr hmaps⟩
    | _ => cases h

theorem document_ok {value : Json} (h : document value = []) :
    (∃ fields, value.object? = some fields) ∧
      ∀ entry ∈ keys, (value.get? entry.1).elim [] entry.2 = [] := by
  cases value with
  | object fields => exact ⟨⟨fields, rfl⟩, List.flatMap_eq_nil_iff.mp h⟩
  | _ => cases h

end ConfigCheck

/-- A configuration has the scalars and the output paths of a document. -/
structure Config.Follows (config : Config) (value : Json) : Prop where
  scalars : List.Forall₂ Maps (((value.get? "scalars").bind Json.array?).getD []) config.scalars
  resolversPath : Chooses Config.defaultResolversPath
    ((value.get? "output").bind (·.get? "resolversPath")) config.resolversPath
  typeDefsPath : Chooses Config.defaultTypeDefsPath
    ((value.get? "output").bind (·.get? "typeDefsPath")) config.typeDefsPath
  schemaPath : Chooses Config.defaultSchemaPath
    ((value.get? "output").bind (·.get? "schemaPath")) config.schemaPath

theorem document_of_validateConfig {value : Json} {path : Option Path}
    (h : hasErrors (validateConfig value path) = false) : ConfigCheck.document value = [] := by
  have hnone : validateConfig value path = [] := by
    refine eq_nil_of_hasErrors_eq_false (fun d hd => ?_) h
    obtain ⟨fault, -, rfl⟩ := List.mem_map.mp hd
    rfl
  exact List.map_eq_nil_iff.mp hnone

/-- A document without faults is read. -/
theorem exists_file_of_document {value : Json} (h : ConfigCheck.document value = []) :
    ∃ file, ConfigFile.ofJson? value = some file ∧ file.resolve.Follows value := by
  obtain ⟨⟨fields, hfields⟩, hkeys⟩ := ConfigCheck.document_ok h
  simp only [ConfigCheck.keys, List.forall_mem_cons] at hkeys
  obtain ⟨hsourceDir, hignoreGlobs, htsconfigPath, houtput, hscalars, hhooks, hpruning, -⟩ := hkeys
  obtain ⟨sourceDir, hsourceDir⟩ := ConfigCheck.readable_sourceDir.optional hsourceDir
  obtain ⟨ignoreGlobs, hignoreGlobs⟩ := ConfigCheck.readable_ignoreGlobs.optional hignoreGlobs
  obtain ⟨tsconfigPath, htsconfigPath⟩ := ConfigCheck.readable_tsconfigPath.optional htsconfigPath
  obtain ⟨output, houtput, hchosen⟩ := ConfigCheck.output_ok houtput
  obtain ⟨scalars, hscalars, hmaps⟩ := ConfigCheck.scalars_ok hscalars
  obtain ⟨hooks, hhooks⟩ := ConfigCheck.readable_hooks.optional hhooks
  obtain ⟨pruning, hpruning⟩ := ConfigCheck.exists_pruning hpruning
  have hread : ConfigFile.ofJson? value = some
      ⟨sourceDir, ignoreGlobs, tsconfigPath, output, scalars, hooks.join, pruning⟩ := by
    simp only [ConfigFile.ofJson?, hfields, hsourceDir, hignoreGlobs, htsconfigPath, houtput,
      hscalars, hhooks, hpruning, Option.bind_eq_bind, Option.bind_some]
  exact ⟨_, hread, hmaps, (hchosen _).1, (hchosen _).2.1, (hchosen _).2.2⟩

theorem parseConfig_of_ofJson? {value : Json} {file : ConfigFile}
    (h : ConfigCheck.document value = []) (hread : ConfigFile.ofJson? value = some file)
    (path : Option Path) : parseConfig value path = ⟨some file.resolve, []⟩ := by
  have hdiagnostics : validateConfig value path = [] := by
    rw [validateConfig, h]
    rfl
  rw [parseConfig, hdiagnostics, hread]
  rfl

/-- A document without faults is read, and the configuration is what the document says. -/
theorem parseConfig_ok (value : Json) (path : Option Path)
    (h : hasErrors (validateConfig value path) = false) :
    ∃ file, ConfigFile.ofJson? value = some file ∧
      parseConfig value path = ⟨some file.resolve, []⟩ ∧ file.resolve.Follows value := by
  have hnone := document_of_validateConfig h
  obtain ⟨file, hread, hfollows⟩ := exists_file_of_document hnone
  exact ⟨file, hread, parseConfig_of_ofJson? hnone hread path, hfollows⟩

/-- A document that maps a type for one side and suppresses an output. -/
def Sample.datesDocument : Json :=
  .object [
    ("output", .object [("schemaPath", .null)]),
    ("scalars", .array [
      .object [
        ("name", .string "Date"),
        ("tsType", .object [("name", .string "DateText"), ("from", .null)]),
        ("only", .string "input")]])]

theorem parseConfig_dates :
    hasErrors (validateConfig Sample.datesDocument none) = false ∧
      ∃ file, ConfigFile.ofJson? Sample.datesDocument = some file ∧
        parseConfig Sample.datesDocument none = ⟨some file.resolve, []⟩ ∧
          file.resolve.Follows Sample.datesDocument := by
  have hclean : hasErrors (validateConfig Sample.datesDocument none) = false := by cbv
  exact ⟨hclean, parseConfig_ok Sample.datesDocument none hclean⟩

end SchemaCompiler

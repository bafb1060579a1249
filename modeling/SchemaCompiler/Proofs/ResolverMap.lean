import Mathlib.Data.List.Nodup
import SchemaCompiler.Proofs.Document
import SchemaCompiler.Proofs.Lists
import SchemaCompiler.Proofs.Namespaces

/-!
# What the resolver map holds

A document keeps a list of extensions, the map one entry for each type. Extensions are folded into
the map in order, each over the entry of its type, and enums and scalars are laid over the result.
`Agrees` says that the map holds what the extensions say. It does exactly when no type is extended
twice, no extended type has the name of a scalar, and no module of a resolver is imported under the
name of the parameter that scalars are passed in.
-/

namespace SchemaCompiler

open GraphQL

namespace ResolverMap

/-- The resolver that the map gives a field of a type. -/
def resolver? (m : ResolverMap) (type field : String) : Option ResolverExport :=
  match m.entries.get? type with
  | some (.fields resolvers) => resolvers.get? field
  | _ => none

/-- The name of the parameter that the scalars are passed in, when there are any. -/
def parameter : String := "scalars"

theorem not_isDigit_parameter : ∀ c ∈ parameter.toList.getLast?, c.isDigit = false := by
  simp [parameter]

/-- The identifier of an import is hidden by the parameter. -/
def Hides (m : ResolverMap) (space : String) : Prop := space = parameter ∧ m.scalars ≠ []

/-- A resolver of the map is the one that a field comes from. -/
def Binds (dir : Path) (table : Namespaces) (f : ResolvedField) (r : ResolverExport) : Prop :=
  ∃ file, f.sourceFile = some file ∧ f.exportName = some r.name ∧
    table.get? (relativeImport dir file) = some r.space

/-- The map holds what the extensions of a schema say. -/
structure Agrees (m : ResolverMap) (dir : Path) (s : Schema) : Prop where
  /-- Every field is bound to its resolver. -/
  bound : ∀ e ∈ s.extensions, ∀ f ∈ e.fields, ∀ file name,
    f.sourceFile = some file → f.exportName = some name →
      ∃ space, m.namespaces.get? (relativeImport dir file) = some space ∧ ¬ m.Hides space ∧
        m.resolver? e.target f.field.name = some ⟨space, name⟩
  /-- Every resolver comes from a field. -/
  origin : ∀ type field r, m.resolver? type field = some r →
    ∃ e ∈ s.extensions, e.target = type ∧ ∃ f ∈ e.fields, f.field.name = field ∧
      Binds dir m.namespaces f r
  /-- No two fields share an entry. -/
  own : (s.extensions.flatMap fun e => e.fields.map fun f => (e.target, f.field.name)).Nodup
  /-- No two modules share an identifier. -/
  spaces : ∀ a b space, m.namespaces.get? a = some space → m.namespaces.get? b = some space → a = b

theorem Binds.extend {dir : Path} {table more : Namespaces} {f : ResolvedField}
    {r : ResolverExport} (h : Binds dir table f r) (hmore : table.Extends more) :
    Binds dir more f r := by
  obtain ⟨file, hfile, hname, hget⟩ := h
  exact ⟨file, hfile, hname, hmore _ _ hget⟩

/-! ## Fields of one extension -/

/-- The file and the export of a field are known. -/
def Known (f : ResolvedField) : Prop := ∃ file name, f.sourceFile = some file ∧ f.exportName = some name

/-- Resolvers by name are those of a list of fields. -/
structure Lists (dir : Path) (fields : List ResolvedField) (resolvers : SortedTable ResolverExport)
    (table : Namespaces) : Prop where
  bound : ∀ f ∈ fields, ∃ r, Binds dir table f r ∧ resolvers.get? f.field.name = some r
  origin : ∀ name r, resolvers.get? name = some r →
    ∃ f ∈ fields, f.field.name = name ∧ Binds dir table f r

theorem lists_empty (dir : Path) (table : Namespaces) : Lists dir [] {} table where
  bound _ h := by cases h
  origin _ _ h := by cases h

theorem Lists.extend {dir : Path} {fields : List ResolvedField}
    {resolvers : SortedTable ResolverExport} {table more : Namespaces}
    (h : Lists dir fields resolvers table) (hmore : table.Extends more) :
    Lists dir fields resolvers more where
  bound f hf := by
    obtain ⟨r, hbinds, hget⟩ := h.bound f hf
    exact ⟨r, hbinds.extend hmore, hget⟩
  origin name r hget := by
    obtain ⟨f, hf, hname, hbinds⟩ := h.origin name r hget
    exact ⟨f, hf, hname, hbinds.extend hmore⟩

/-- The modules that a table knows, next to those of another, are those of fields. -/
def OnlyFiles (dir : Path) (fields : List ResolvedField) (table more : Namespaces) : Prop :=
  ∀ specifier name, more.get? specifier = some name → table.get? specifier = some name ∨
    ∃ f ∈ fields, ∃ file, f.sourceFile = some file ∧ relativeImport dir file = specifier

theorem lookup_onlyFiles {table : Namespaces} {dir file : Path} {specifier name : String}
    (h : (table.lookup dir file).2.get? specifier = some name) :
    table.get? specifier = some name ∨ relativeImport dir file = specifier := by
  rw [Namespaces.lookup] at h
  split at h
  · exact Or.inl h
  · rw [SortedTable.get?_insert] at h
    split at h
    · rename_i hsame
      exact Or.inr hsame.symm
    · exact Or.inl h

/-- What adding a field does, when its name is new. -/
theorem addField_spec {dir : Path} {fields : List ResolvedField}
    {done : SortedTable ResolverExport × Namespaces} (hsound : done.2.Sound)
    (h : Lists dir fields done.1 done.2) {f : ResolvedField} (hf : Known f)
    (hnew : f.field.name ∉ fields.map (·.field.name)) :
    (addField dir done f).2.Sound ∧ done.2.Extends (addField dir done f).2 ∧
      Lists dir (fields ++ [f]) (addField dir done f).1 (addField dir done f).2 ∧
      OnlyFiles dir [f] done.2 (addField dir done f).2 := by
  obtain ⟨file, name, hfile, hname⟩ := hf
  obtain ⟨hsound', hextends, hget⟩ := hsound.lookup dir file
  have heq : addField dir done f =
      (done.1.insert f.field.name ⟨(done.2.lookup dir file).1, name⟩,
        (done.2.lookup dir file).2) := by
    simp only [addField, hfile, hname]
  have hbinds : Binds dir (done.2.lookup dir file).2 f ⟨(done.2.lookup dir file).1, name⟩ :=
    ⟨file, hfile, hname, hget⟩
  rw [heq]
  refine ⟨hsound', hextends, ⟨?_, ?_⟩, ?_⟩
  · intro g hg
    rcases List.mem_append.mp hg with hg | hg
    · obtain ⟨r, hr, hgetr⟩ := (h.extend hextends).bound g hg
      refine ⟨r, hr, ?_⟩
      rw [SortedTable.get?_insert_of_ne, hgetr]
      intro hsame
      exact hnew (hsame ▸ List.mem_map_of_mem hg)
    · rw [List.mem_singleton] at hg
      subst hg
      exact ⟨_, hbinds, SortedTable.get?_insert_self _ _ _⟩
  · intro key r hr
    rw [SortedTable.get?_insert] at hr
    split at hr
    · rename_i hsame
      cases hr
      exact ⟨f, List.mem_append_right _ List.mem_cons_self, hsame.symm, hbinds⟩
    · obtain ⟨g, hg, hkey, hgbinds⟩ := (h.extend hextends).origin key r hr
      exact ⟨g, List.mem_append_left _ hg, hkey, hgbinds⟩
  · intro specifier found hfound
    rcases lookup_onlyFiles hfound with hold | hsame
    · exact Or.inl hold
    · exact Or.inr ⟨f, List.mem_cons_self, file, hfile, hsame⟩

theorem foldl_addField_spec {dir : Path} (fields : List ResolvedField)
    {before : List ResolvedField} (done : SortedTable ResolverExport × Namespaces)
    (hsound : done.2.Sound) (h : Lists dir before done.1 done.2)
    (hknown : ∀ f ∈ fields, Known f) (hnames : ((before ++ fields).map (·.field.name)).Nodup) :
    (fields.foldl (addField dir) done).2.Sound ∧
      done.2.Extends (fields.foldl (addField dir) done).2 ∧
      Lists dir (before ++ fields) (fields.foldl (addField dir) done).1
        (fields.foldl (addField dir) done).2 ∧
      OnlyFiles dir fields done.2 (fields.foldl (addField dir) done).2 := by
  induction fields generalizing before done with
  | nil =>
    rw [List.append_nil]
    exact ⟨hsound, Namespaces.Extends.refl _, h, fun _ _ hget => Or.inl hget⟩
  | cons f rest ih =>
    have hnew : f.field.name ∉ before.map (·.field.name) := by
      rw [List.map_append, List.nodup_append] at hnames
      intro hmem
      exact hnames.2.2 _ hmem _ List.mem_cons_self rfl
    obtain ⟨hsound', hextends, hlists, hfiles⟩ :=
      addField_spec hsound h (hknown f List.mem_cons_self) hnew
    rw [List.append_cons] at hnames ⊢
    obtain ⟨hsound'', hextends', hlists', hfiles'⟩ :=
      ih _ hsound' hlists (fun g hg => hknown g (List.mem_cons_of_mem _ hg)) hnames
    refine ⟨hsound'', hextends.trans hextends', hlists', ?_⟩
    intro specifier name hget
    rcases hfiles' specifier name hget with hget | ⟨g, hg, hfile⟩
    · rcases hfiles specifier name hget with hget | ⟨g, hg, hfile⟩
      · exact Or.inl hget
      · rw [List.mem_singleton] at hg
        exact Or.inr ⟨f, List.mem_cons_self, hg ▸ hfile⟩
    · exact Or.inr ⟨g, List.mem_cons_of_mem _ hg, hfile⟩

/-! ## All extensions -/

/-- An extension that has fields, all of them known and of different names. -/
structure Resolved (e : TypeExtension) : Prop where
  nonempty : e.fields ≠ []
  known : ∀ f ∈ e.fields, Known f
  names : (e.fields.map (·.field.name)).Nodup

/-- Entries are those of extensions, and each type that is extended has one. -/
structure Collects (dir : Path) (es : List TypeExtension)
    (done : SortedTable MapEntry × Namespaces) : Prop where
  sound : done.2.Sound
  origin : ∀ type entry, done.1.get? type = some entry →
    ∃ e ∈ es, e.target = type ∧ ∃ resolvers, entry = .fields resolvers ∧
      Lists dir e.fields resolvers done.2
  present : ∀ e ∈ es, ∃ entry, done.1.get? e.target = some entry
  imported : ∀ e ∈ es, ∀ f ∈ e.fields, ∀ file, f.sourceFile = some file →
    ∃ space, done.2.get? (relativeImport dir file) = some space
  files : ∀ specifier name, done.2.get? specifier = some name →
    ∃ e ∈ es, ∃ f ∈ e.fields, ∃ file, f.sourceFile = some file ∧
      relativeImport dir file = specifier

theorem collects_empty (dir : Path) : Collects dir [] ({}, {}) where
  sound := Namespaces.sound_empty
  origin _ _ h := by cases h
  present _ h := by cases h
  imported _ h := by cases h
  files _ _ h := by cases h

/-- An extension is laid over whatever its type had before. -/
theorem addExtension_spec (dir : Path) (done : SortedTable MapEntry × Namespaces)
    (hsound : done.2.Sound) {e : TypeExtension} (he : Resolved e) :
    ∃ resolvers, (addExtension dir done e).1 = done.1.insert e.target (.fields resolvers) ∧
      (addExtension dir done e).2.Sound ∧ done.2.Extends (addExtension dir done e).2 ∧
      Lists dir e.fields resolvers (addExtension dir done e).2 ∧
      OnlyFiles dir e.fields done.2 (addExtension dir done e).2 := by
  obtain ⟨hsound', hextends, hlists, hfiles⟩ :=
    foldl_addField_spec e.fields ({}, done.2) hsound (lists_empty dir done.2) he.known he.names
  rw [List.nil_append] at hlists
  have hne : (fieldEntries dir done.2 e.fields).1.entries.isEmpty = false := by
    obtain ⟨f, hf⟩ := List.exists_mem_of_ne_nil _ he.nonempty
    obtain ⟨r, -, hget⟩ := hlists.bound f hf
    rw [List.isEmpty_eq_false_iff]
    intro hnil
    rw [SortedTable.get?, show (e.fields.foldl (addField dir) ({}, done.2)).1.entries = [] from hnil]
      at hget
    cases hget
  have heq : addExtension dir done e =
      (done.1.insert e.target (.fields (fieldEntries dir done.2 e.fields).1),
        (fieldEntries dir done.2 e.fields).2) := by
    simp only [addExtension, hne, Bool.false_eq_true, if_false]
  rw [heq]
  exact ⟨_, rfl, hsound', hextends, hlists, hfiles⟩

theorem Collects.add {dir : Path} {es : List TypeExtension}
    {done : SortedTable MapEntry × Namespaces} (h : Collects dir es done) {e : TypeExtension}
    (he : Resolved e) : Collects dir (es ++ [e]) (addExtension dir done e) := by
  obtain ⟨resolvers, hentries, hsound, hextends, hlists, hfiles⟩ :=
    addExtension_spec dir done h.sound he
  refine ⟨hsound, ?_, ?_, ?_, ?_⟩
  · intro type entry hentry
    rw [hentries, SortedTable.get?_insert] at hentry
    split at hentry
    · rename_i htype
      cases hentry
      exact ⟨e, List.mem_append_right _ List.mem_cons_self, htype.symm, _, rfl, hlists⟩
    · obtain ⟨e', he', htarget, resolvers, hresolvers, hlists'⟩ := h.origin type entry hentry
      exact ⟨e', List.mem_append_left _ he', htarget, resolvers, hresolvers,
        hlists'.extend hextends⟩
  · intro e' he'
    rw [hentries, SortedTable.get?_insert]
    split
    · exact ⟨_, rfl⟩
    · rename_i hne
      rcases List.mem_append.mp he' with he' | he'
      · exact h.present e' he'
      · rw [List.mem_singleton] at he'
        exact absurd (congrArg _ he') hne
  · intro e' he' f hf file hfile
    rcases List.mem_append.mp he' with he' | he'
    · obtain ⟨space, hspace⟩ := h.imported e' he' f hf file hfile
      exact ⟨space, hextends _ _ hspace⟩
    · rw [List.mem_singleton] at he'
      subst he'
      obtain ⟨r, ⟨file', hfile', -, hget⟩, -⟩ := hlists.bound f hf
      rw [hfile] at hfile'
      cases hfile'
      exact ⟨r.space, hget⟩
  · intro specifier name hget
    rcases hfiles specifier name hget with hget | ⟨f, hf, hfile⟩
    · obtain ⟨e', he', hfile⟩ := h.files specifier name hget
      exact ⟨e', List.mem_append_left _ he', hfile⟩
    · exact ⟨e, List.mem_append_right _ List.mem_cons_self, f, hf, hfile⟩

theorem foldl_addExtension_collects {dir : Path} (es : List TypeExtension)
    {before : List TypeExtension} {done : SortedTable MapEntry × Namespaces}
    (h : Collects dir before done) (hes : ∀ e ∈ es, Resolved e) :
    Collects dir (before ++ es) (es.foldl (addExtension dir) done) := by
  induction es generalizing before done with
  | nil =>
    rw [List.append_nil]
    exact h
  | cons e rest ih =>
    rw [List.append_cons]
    exact ih (h.add (hes e List.mem_cons_self))
      fun e' he' => hes e' (List.mem_cons_of_mem _ he')

/-! ## Enums and scalars -/

theorem get?_addEnum_fields (entries : SortedTable MapEntry) (t : TypeDef) (type : String)
    (resolvers : SortedTable ResolverExport) :
    (addEnum entries t).get? type = some (.fields resolvers) ↔
      entries.get? type = some (.fields resolvers) := by
  unfold addEnum
  split
  · rename_i hnew
    rw [SortedTable.get?_insert]
    split
    · rename_i htype
      subst htype
      simp only [Bool.and_eq_true, Bool.not_eq_true', SortedTable.contains,
        Option.isSome_eq_false_iff, Option.isNone_iff_eq_none] at hnew
      rw [hnew.2]
      simp
    · rfl
  · rfl

/-- Enums never take the place of resolvers. -/
theorem get?_foldl_addEnum_fields (types : List TypeDef) (entries : SortedTable MapEntry)
    (type : String) (resolvers : SortedTable ResolverExport) :
    (types.foldl addEnum entries).get? type = some (.fields resolvers) ↔
      entries.get? type = some (.fields resolvers) := by
  induction types generalizing entries with
  | nil => rfl
  | cons t rest ih => rw [List.foldl_cons, ih, get?_addEnum_fields]

/-- Scalars always take their places. -/
theorem get?_foldl_addScalar (scalars : List ScalarDefinition) (entries : SortedTable MapEntry)
    (type : String) :
    (scalars.foldl addScalar entries).get? type =
      if type ∈ scalars.map (·.name) then some (.scalar type) else entries.get? type := by
  induction scalars generalizing entries with
  | nil => simp
  | cons c rest ih =>
    rw [List.foldl_cons, ih, addScalar, SortedTable.get?_insert, List.map_cons]
    by_cases hrest : type ∈ rest.map (·.name)
    · rw [if_pos hrest, if_pos (List.mem_cons_of_mem _ hrest)]
    · rw [if_neg hrest]
      by_cases htype : type = c.name
      · rw [if_pos htype, if_pos (htype ▸ List.mem_cons_self), htype]
      · rw [if_neg htype, if_neg (by simpa [htype] using hrest)]

/-- What extensions make of the map, before anything is laid over it. -/
def extended (s : Schema) (dir : Path) : SortedTable MapEntry × Namespaces :=
  s.extensions.foldl (addExtension dir) ({}, {})

theorem namespaces_ofSchema (s : Schema) (dir : Path) :
    (ofSchema s dir).namespaces = (extended s dir).2 := rfl

theorem scalars_ofSchema_eq_nil_iff (s : Schema) (dir : Path) :
    (ofSchema s dir).scalars = [] ↔ s.customScalars = [] := by
  show sortByName _ s.customScalars = [] ↔ _
  rw [← List.length_eq_zero_iff, sortByName, List.length_mergeSort, List.length_eq_zero_iff]

theorem resolver?_ofSchema (s : Schema) (dir : Path) (type field : String) (r : ResolverExport) :
    (ofSchema s dir).resolver? type field = some r ↔
      type ∉ s.scalarNames ∧ ∃ resolvers,
        (extended s dir).1.get? type = some (.fields resolvers) ∧ resolvers.get? field = some r := by
  have hentries : (ofSchema s dir).entries =
      (sortByName (·.name) s.customScalars).foldl addScalar
        (s.baseTypes.foldl addEnum (extended s dir).1) := rfl
  have hnames : type ∈ (sortByName (·.name) s.customScalars).map (·.name) ↔
      type ∈ s.scalarNames := by
    simp [Schema.scalarNames]
  rw [resolver?, hentries, get?_foldl_addScalar]
  by_cases hscalar : type ∈ s.scalarNames
  · rw [if_pos (hnames.mpr hscalar)]
    simp [hscalar]
  · rw [if_neg (fun h => hscalar (hnames.mp h))]
    have hlaid : ∀ resolvers, (extended s dir).1.get? type = some (.fields resolvers) ↔
        (s.baseTypes.foldl addEnum (extended s dir).1).get? type = some (.fields resolvers) :=
      fun resolvers => (get?_foldl_addEnum_fields s.baseTypes _ type resolvers).symm
    simp only [hscalar, not_false_eq_true, true_and, hlaid]
    cases hget : (s.baseTypes.foldl addEnum (extended s dir).1).get? type with
    | none => simp
    | some entry =>
      cases entry with
      | fields resolvers => simp
      | values members => simp
      | scalar name => simp

/-! ## Agreement -/

theorem collects_extended {s : Schema} (hs : ∀ e ∈ s.extensions, Resolved e) (dir : Path) :
    Collects dir s.extensions (extended s dir) := by
  have h := foldl_addExtension_collects s.extensions (collects_empty dir) hs
  rwa [List.nil_append] at h

/-- The last extension of a type takes the place of those before it. -/
theorem resolver?_of_last {s : Schema} {dir : Path} (hs : ∀ e ∈ s.extensions, Resolved e)
    (before : List TypeExtension) {last : TypeExtension} (hlast : s.extensions = before ++ [last])
    {field : String} (hfield : field ∉ last.fields.map (·.field.name)) :
    (ofSchema s dir).resolver? last.target field = none := by
  have hbefore : Collects dir ([] ++ before) (before.foldl (addExtension dir) ({}, {})) :=
    foldl_addExtension_collects before (collects_empty dir)
      fun e he => hs e (hlast ▸ List.mem_append_left _ he)
  obtain ⟨resolvers, hentries, -, -, hlists, -⟩ := addExtension_spec dir _ hbefore.sound
    (hs last (hlast ▸ List.mem_append_right _ List.mem_cons_self))
  refine Option.eq_none_iff_forall_ne_some.mpr fun r hr => ?_
  obtain ⟨-, found, hfound, hget⟩ := (resolver?_ofSchema s dir _ _ _).mp hr
  rw [extended, hlast, List.foldl_append, List.foldl_cons, List.foldl_nil, hentries,
    SortedTable.get?_insert_self] at hfound
  cases hfound
  obtain ⟨f, hf, hname, -⟩ := hlists.origin field r hget
  exact hfield (hname ▸ List.mem_map_of_mem hf)

section Agreement

variable {s : Schema} {dir : Path}

/-- Every resolver of the map comes from a field of an extension of its type. -/
theorem exists_of_resolver? (hs : ∀ e ∈ s.extensions, Resolved e) {type field : String}
    {r : ResolverExport} (h : (ofSchema s dir).resolver? type field = some r) :
    ∃ e ∈ s.extensions, e.target = type ∧ ∃ f ∈ e.fields, f.field.name = field ∧
      Binds dir (ofSchema s dir).namespaces f r := by
  obtain ⟨-, resolvers, hentry, hget⟩ := (resolver?_ofSchema s dir _ _ _).mp h
  obtain ⟨e, he, htarget, found, hfound, hlists⟩ := (collects_extended hs dir).origin _ _ hentry
  cases hfound
  exact ⟨e, he, htarget, hlists.origin _ _ hget⟩

/-- The entries that the fields of an extension ask for. -/
def wanted (e : TypeExtension) : List (String × String) :=
  e.fields.map fun f => (e.target, f.field.name)

theorem nodup_wanted (hs : ∀ e ∈ s.extensions, Resolved e)
    (h : (s.extensions.map (·.target)).Nodup) : (s.extensions.flatMap wanted).Nodup := by
  rw [List.Nodup, List.pairwise_map] at h
  refine List.nodup_flatMap.mpr ⟨fun e he => ?_, h.imp fun {a b} hne entry ha hb => ?_⟩
  · have hnames := (hs e he).names
    rw [List.Nodup, List.pairwise_map] at hnames
    rw [wanted, List.Nodup, List.pairwise_map]
    exact hnames.imp fun hne heq => hne (congrArg Prod.snd heq)
  · obtain ⟨f, -, rfl⟩ := List.mem_map.mp ha
    obtain ⟨g, -, heq⟩ := List.mem_map.mp hb
    exact hne (congrArg Prod.fst heq.symm)

/-- Fields of a type that are all bound are bound in one extension of it. -/
theorem exists_common (hs : ∀ e ∈ s.extensions, Resolved e) (h : (ofSchema s dir).Agrees dir s)
    {type : String} (htype : ∃ e ∈ s.extensions, e.target = type) :
    ∃ common ∈ s.extensions, ∀ e ∈ s.extensions, e.target = type →
      ∀ f ∈ e.fields, (type, f.field.name) ∈ wanted common := by
  obtain ⟨e, he, rfl⟩ := htype
  obtain ⟨entry, hentry⟩ := (collects_extended hs dir).present e he
  obtain ⟨common, hcommon, htarget, resolvers, rfl, hlists⟩ :=
    (collects_extended hs dir).origin _ _ hentry
  refine ⟨common, hcommon, fun e' he' htype f hf => ?_⟩
  obtain ⟨file, name, hfile, hname⟩ := (hs e' he').known f hf
  obtain ⟨space, -, -, hresolver⟩ := h.bound e' he' f hf file name hfile hname
  obtain ⟨-, found, hfound, hget⟩ := (resolver?_ofSchema s dir _ _ _).mp hresolver
  rw [htype, hentry] at hfound
  cases hfound
  obtain ⟨g, hg, hgname, -⟩ := hlists.origin _ _ hget
  exact List.mem_map.mpr ⟨g, hg, by rw [hgname, htarget]⟩

/-! ### What a map that agrees shows of a schema -/

theorem Agrees.nodup_targets (hs : ∀ e ∈ s.extensions, Resolved e)
    (h : (ofSchema s dir).Agrees dir s) : (s.extensions.map (·.target)).Nodup := by
  have hown : (s.extensions.flatMap wanted).Nodup := h.own
  rw [List.Nodup, List.pairwise_map]
  refine (List.nodup_flatMap.mp hown).2.imp_of_mem fun {a b} ha hb hdisjoint hsame => ?_
  obtain ⟨common, hcommon, hall⟩ := exists_common hs h ⟨a, ha, rfl⟩
  obtain ⟨f, hf⟩ := List.exists_mem_of_ne_nil _ (hs a ha).nonempty
  obtain ⟨g, hg⟩ := List.exists_mem_of_ne_nil _ (hs b hb).nonempty
  -- what the map holds for the type is one extension, so the other one loses its fields to it
  obtain rfl : common = a :=
    eq_of_nodup_flatMap hown hcommon ha (hall a ha rfl f hf) (List.mem_map_of_mem hf)
  have hwanted : (common.target, g.field.name) ∈ wanted b := hsame ▸ List.mem_map_of_mem hg
  exact hdisjoint (hall b hb hsame.symm g hg) hwanted

theorem Agrees.not_scalarName (hs : ∀ e ∈ s.extensions, Resolved e)
    (h : (ofSchema s dir).Agrees dir s) {e : TypeExtension} (he : e ∈ s.extensions) :
    e.target ∉ s.scalarNames := by
  obtain ⟨f, hf⟩ := List.exists_mem_of_ne_nil _ (hs e he).nonempty
  obtain ⟨file, name, hfile, hname⟩ := (hs e he).known f hf
  obtain ⟨space, -, -, hresolver⟩ := h.bound e he f hf file name hfile hname
  exact ((resolver?_ofSchema s dir _ _ _).mp hresolver).1

/-- No module of a resolver has the name of the parameter, when there is one. -/
theorem Agrees.ne_parameter (hs : ∀ e ∈ s.extensions, Resolved e)
    (h : (ofSchema s dir).Agrees dir s) (hscalars : s.customScalars ≠ []) {e : TypeExtension}
    (he : e ∈ s.extensions) {f : ResolvedField} (hf : f ∈ e.fields) {file : Path}
    (hfile : f.sourceFile = some file) :
    Namespaces.ident (relativeImport dir file) ≠ parameter := by
  intro hident
  have hcollects := collects_extended hs dir
  obtain ⟨space, hspace⟩ := hcollects.imported e he f hf file hfile
  obtain ⟨specifier, hget⟩ := (hcollects.sound.given_iff parameter not_isDigit_parameter).mpr
    ⟨_, by rw [hspace]; rfl, hident⟩
  -- the module that has the name is that of some field
  obtain ⟨e', he', f', hf', file', hfile', hspecifier⟩ := hcollects.files _ _ hget
  obtain ⟨file'', name, hknown, hname⟩ := (hs e' he').known f' hf'
  rw [hfile'] at hknown
  cases hknown
  obtain ⟨space', hspace', hhides, -⟩ := h.bound e' he' f' hf' file' name hfile' hname
  rw [hspecifier, namespaces_ofSchema, hget] at hspace'
  cases hspace'
  exact hhides ⟨rfl, fun hnil => hscalars ((scalars_ofSchema_eq_nil_iff s dir).mp hnil)⟩

/-! ### When a map agrees -/

/-- The name of a module is not hidden, if it is not that of the parameter. -/
theorem not_hides (hs : ∀ e ∈ s.extensions, Resolved e) {specifier space : String}
    (hspace : (ofSchema s dir).namespaces.get? specifier = some space)
    (h : s.customScalars = [] ∨ Namespaces.ident specifier ≠ parameter) :
    ¬ (ofSchema s dir).Hides space := by
  rintro ⟨hname, hne⟩
  rcases h with hnil | hparameter
  · exact hne ((scalars_ofSchema_eq_nil_iff s dir).mpr hnil)
  · obtain ⟨n, hn⟩ := (collects_extended hs dir).sound.based _ _ hspace
    exact hparameter (Namespaces.candidate_eq (hn.symm.trans hname) not_isDigit_parameter)

/-- An extension that is the only one of its type, which is no scalar, is in the map. -/
theorem bound_of_unique (hs : ∀ e ∈ s.extensions, Resolved e) {e : TypeExtension}
    (he : e ∈ s.extensions) (hunique : ∀ e' ∈ s.extensions, e'.target = e.target → e' = e)
    (hscalar : e.target ∉ s.scalarNames) {f : ResolvedField} (hf : f ∈ e.fields) {file : Path}
    {name : String} (hfile : f.sourceFile = some file) (hname : f.exportName = some name) :
    ∃ space, (ofSchema s dir).namespaces.get? (relativeImport dir file) = some space ∧
      (ofSchema s dir).resolver? e.target f.field.name = some ⟨space, name⟩ := by
  have hcollects := collects_extended hs dir
  obtain ⟨entry, hentry⟩ := hcollects.present e he
  obtain ⟨e', he', htarget, resolvers, rfl, hlists⟩ := hcollects.origin _ _ hentry
  cases hunique e' he' htarget
  obtain ⟨⟨space, export'⟩, ⟨file', hfile', hname', hspace⟩, hget⟩ := hlists.bound f hf
  rw [hfile] at hfile'
  rw [hname] at hname'
  cases hfile'
  cases hname'
  exact ⟨space, hspace, (resolver?_ofSchema s dir _ _ _).mpr ⟨hscalar, resolvers, hentry, hget⟩⟩

/-- The map holds what the extensions say exactly when no type is extended twice, none of them has
the name of a scalar, and no module is imported under the name of the parameter for scalars. -/
theorem agrees_iff (hs : ∀ e ∈ s.extensions, Resolved e) :
    (ofSchema s dir).Agrees dir s ↔
      (s.extensions.map (·.target)).Nodup ∧ (∀ e ∈ s.extensions, e.target ∉ s.scalarNames) ∧
        (s.customScalars = [] ∨ ∀ e ∈ s.extensions, ∀ f ∈ e.fields, ∀ file,
          f.sourceFile = some file → Namespaces.ident (relativeImport dir file) ≠ parameter) := by
  constructor
  · intro h
    refine ⟨h.nodup_targets hs, fun e he => h.not_scalarName hs he, or_iff_not_imp_left.mpr ?_⟩
    exact fun hscalars e he f hf file hfile => h.ne_parameter hs hscalars he hf hfile
  · rintro ⟨hnodup, hscalars, hparameter⟩
    refine ⟨fun e he f hf file name hfile hname => ?_,
      fun _ _ _ hresolver => exists_of_resolver? hs hresolver, nodup_wanted hs hnodup,
      (collects_extended hs dir).sound.injective⟩
    obtain ⟨space, hspace, hresolver⟩ := bound_of_unique hs he
      (fun e' he' htarget => List.inj_on_of_nodup_map hnodup he' he htarget) (hscalars e he) hf
      hfile hname
    exact ⟨space, hspace,
      not_hides hs hspace (hparameter.imp_right fun hfree => hfree e he f hf file hfile), hresolver⟩

end Agreement

end ResolverMap

end SchemaCompiler

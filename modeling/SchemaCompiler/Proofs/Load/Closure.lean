import Mathlib
import SchemaCompiler.Proofs.Diagnostics
import SchemaCompiler.Proofs.Load.Follow

/-!
# The closure of the listed files

Loading some files gives the least set of modules that has the listed files and, with each module,
the files behind the relative specifiers that it mentions, as far as they can be read and parsed. A
module is scanned exactly when its file is listed. Among its own modules the program finds what was
found among the files: a candidate that comes earlier is no file, and so no module.

The specifiers that a module names without keeping anything of them lead nowhere: those of imports
and re-exports that bind nothing, and of namespace re-exports. So the modules are closed under all
that they name only where every file that is overlooked is reached some other way.
-/

namespace SchemaCompiler

/-- The least set of paths that has the listed modules and the modules that modules in it lead to. -/
inductive Reached (v : FileView) (cites : SourceModule → String → Prop) (files : List Path) :
    Path → Prop where
  | listed {file : Path} {m : SourceModule} (hfile : file ∈ files)
      (hm : v.Holds file.normalize m) : Reached v cites files file.normalize
  | followed {path target : Path} {specifier : String} {m n : SourceModule}
      (hpath : Reached v cites files path) (hm : v.Holds path m)
      (hlead : m.LeadsTo cites v specifier target) (hn : v.Holds target n) :
      Reached v cites files target

variable {v : FileView} {cites : SourceModule → String → Prop} {files : List Path}

theorem Reached.normal {path : Path} (h : Reached v cites files path) : path.Normal := by
  cases h with
  | listed => exact Path.normal_normalize _
  | followed _ _ hlead _ => exact normal_of_resolveSpecifier hlead.2.2

namespace Program

open FileView SourceModule

/-! ## Reading the listed files -/

/-- Listed files stand in the queue from the start, and are scanned. -/
theorem fits_listed (files : List Path) :
    ∀ e ∈ (sortedPaths (files.map Path.normalize)).map (Pending.mk · true),
      e.Fits (sortedPaths (files.map Path.normalize)) := by
  intro e he
  obtain ⟨path, hpath, rfl⟩ := List.mem_map.mp he
  exact ⟨normal_of_mem_listed (mem_of_mem_sortedPaths hpath), iff_of_true rfl hpath⟩

theorem open_listed (v : FileView) (files : List Path) :
    Open v (Reached v Mentions files)
      (((sortedPaths (files.map Path.normalize)).map (Pending.mk · true)).map (·.path)) := by
  intro path hpath m hm
  rw [List.map_map] at hpath
  obtain ⟨listed, hlisted, rfl⟩ := List.mem_map.mp hpath
  obtain ⟨file, hfile, rfl⟩ := List.mem_map.mp (mem_sortedPaths_iff.mp hlisted)
  exact .listed hfile hm

theorem open_targets {path : Path} {m : SourceModule} (hpath : Reached v Mentions files path)
    (hm : v.Holds path m) : Open v (Reached v Mentions files) (targets v m) := by
  intro target htarget n hn
  obtain ⟨specifier, hlead⟩ := mem_targets.mp htarget
  exact .followed hpath hm hlead hn

/-- What a loaded module leads to is loaded. -/
theorem mem_loadModules_of_leadsTo (hv : v.Lawful) {source m : SourceModule} {specifier : String}
    (hsource : source ∈ (loadModules v files).value) (hlead : source.LeadsTo Mentions v specifier m.path)
    (hm : v.Holds m.path m) (hmark : m.scanned = true ↔ m.path ∈ files.map Path.normalize) :
    m ∈ (loadModules v files).value := by
  have htarget : m.path ∈ targets v source := mem_targets.mpr ⟨specifier, hlead⟩
  have hnormal := normal_of_mem_targets htarget
  rw [← mem_sortedPaths_iff] at hmark
  obtain ⟨hlisted, hclosed⟩ :=
    @readQueue_complete v _ (sortedPaths (files.map Path.normalize) ++ v.paths) _
      (fits_listed files)
  by_cases hin : (sortedPaths (files.map Path.normalize)).contains m.path = true
  · have hmem := mem_sortedPaths_iff.mpr (mem_sortedPaths_of_contains hnormal hin)
    exact hlisted ⟨m.path, true⟩ (List.mem_map_of_mem hmem)
      (by simp [List.contains_append, hin]) m hm hmark
  · refine hclosed source hsource m.path htarget (Bool.eq_false_iff.mpr hin) ?_ m hm hmark
    have hfile := hv.contains_of_isFile hnormal (hv.isFile_of_holds hm)
    simp [List.contains_append, hfile]

/-- What is read is what is reached, and nothing else. -/
theorem mem_loadModules_iff (hv : v.Lawful) {m : SourceModule} :
    m ∈ (loadModules v files).value ↔ Reached v Mentions files m.path ∧ v.Holds m.path m ∧
      (m.scanned = true ↔ m.path ∈ files.map Path.normalize) := by
  constructor
  · intro hm
    obtain ⟨-, hholds, hmark, hreached⟩ :=
      readQueue_sound open_targets (fits_listed files) (open_listed v files) hm
    exact ⟨hreached, hholds, hmark.trans mem_sortedPaths_iff⟩
  · rintro ⟨hreached, hm, hmark⟩
    generalize hpath : m.path = path at hreached
    induction hreached generalizing m with
    | @listed file _ hfile _ =>
      have hmem : m.path ∈ sortedPaths (files.map Path.normalize) :=
        mem_sortedPaths_iff.mpr (hpath ▸ List.mem_map_of_mem hfile)
      have hwaiting : (sortedPaths (files.map Path.normalize) ++ v.paths).contains m.path = true :=
        List.contains_iff_exists_mem_beq.mpr ⟨m.path, List.mem_append_left _ hmem, BEq.rfl⟩
      exact (readQueue_complete (fits_listed files)).1 ⟨m.path, true⟩ (List.mem_map_of_mem hmem)
        hwaiting m hm (hmark.trans mem_sortedPaths_iff.symm)
    | @followed path target specifier source _ _ hsource hlead _ ih =>
      -- The module that leads here was read with the mark that its own path gives it.
      have hfound : ∀ scanned : Bool,
          (scanned = true ↔ source.path ∈ files.map Path.normalize) →
          source.mark scanned ∈ (loadModules v files).value :=
        fun scanned hmark => ih (hsource.path_eq ▸ hsource.mark scanned) hmark hsource.path_eq
      have hlead : source.LeadsTo Mentions v specifier m.path := hpath ▸ hlead
      by_cases hin : source.path ∈ files.map Path.normalize
      · exact mem_loadModules_of_leadsTo hv (hfound true (by simp [hin])) hlead hm hmark
      · exact mem_loadModules_of_leadsTo hv (hfound false (by simp [hin])) hlead hm hmark

/-- No module is read twice. -/
theorem distinct_loadModules (v : FileView) (files : List Path) :
    Distinct (loadModules v files).value :=
  distinct_readQueue (fits_listed files)

theorem perm_modules_load (v : FileView) (files : List Path) :
    (load v files).value.modules.Perm (loadModules v files).value :=
  perm_foldl_insert (p := {}) (distinct_loadModules v files)

theorem mem_modules_load_iff (hv : v.Lawful) {m : SourceModule} :
    m ∈ (load v files).value.modules ↔ Reached v Mentions files m.path ∧ v.Holds m.path m ∧
      (m.scanned = true ↔ m.path ∈ files.map Path.normalize) := by
  rw [(perm_modules_load v files).mem_iff, mem_loadModules_iff hv]

/-! ## What is reported -/

theorem Pending.diagnostics_read {e : Pending} (h : e.scanned = false) :
    (e.read v).diagnostics = [] := by
  unfold Pending.read readModule
  cases v.readText e.path with
  | error err => simp [h]
  | ok text =>
    simp only [h]
    cases SourceModule.parse e.path text false <;> rfl

/-- The scanned files of a queue wait to be read, each of them once. -/
structure Reports (listed waiting : List Path) (queue : List Pending) : Prop where
  fits : ∀ e ∈ queue, e.Fits listed
  waits : ∀ e ∈ queue, e.scanned = true → waiting.contains e.path = true
  apart : queue.Pairwise fun a b =>
    a.scanned = true → b.scanned = true → ¬ (a.path == b.path) = true

section Reports

variable {listed waiting : List Path} {queue : List Pending} {e : Pending} {m : SourceModule}

theorem Reports.tail (h : Reports listed waiting (e :: queue)) : Reports listed waiting queue where
  fits := (List.forall_mem_cons.mp h.fits).2
  waits := (List.forall_mem_cons.mp h.waits).2
  apart := (List.pairwise_cons.mp h.apart).2

/-- Scanned files wait on when a file is read. -/
theorem Reports.read (h : Reports listed waiting (e :: queue)) :
    Reports listed (without waiting e.path) queue where
  fits := h.tail.fits
  waits := by
    intro b hb hscanned
    refine contains_without (h.tail.waits b hb hscanned) fun hsame => ?_
    obtain ⟨hnormal, hmark⟩ := h.fits e List.mem_cons_self
    obtain ⟨hnormal', hmark'⟩ := h.tail.fits b hb
    have hpath := hnormal.eq_of_beq hnormal' hsame
    have he : e.scanned = true := hmark.mpr (hpath ▸ hmark'.mp hscanned)
    exact (List.pairwise_cons.mp h.apart).1 b hb he hscanned hsame
  apart := h.tail.apart

theorem Reports.follow (h : Reports listed waiting queue) (m : SourceModule) :
    Reports listed waiting (followed v listed m ++ queue) where
  fits := fits_followed_append h.fits m
  waits := by
    intro b hb hscanned
    rcases List.mem_append.mp hb with hb | hb
    · rw [(mem_followed.mp hb).2.2] at hscanned
      cases hscanned
    · exact h.waits b hb hscanned
  apart := by
    have hout : ∀ b ∈ followed v listed m, ¬ b.scanned = true := by
      intro b hb
      simp [(mem_followed.mp hb).2.2]
    refine List.pairwise_append.mpr ⟨?_, h.apart, fun a ha b _ h => absurd h (hout a ha)⟩
    exact List.pairwise_of_forall_mem_list fun a ha b _ h => absurd h (hout a ha)

theorem filter_followed (listed : List Path) (m : SourceModule) :
    (followed v listed m).filter (·.scanned) = [] :=
  List.filter_eq_nil_iff.mpr fun b hb => by simp [(mem_followed.mp hb).2.2]

theorem diagnostics_readQueue (h : Reports listed waiting queue) :
    (readQueue v listed waiting queue).diagnostics =
      (queue.filter (·.scanned)).flatMap fun e => (e.read v).diagnostics := by
  induction waiting, queue using readQueue.induct v listed with
  | case1 waiting =>
    rw [readQueue]
    rfl
  | case2 waiting e queue hwaiting ihread ihskip =>
    have hhead : ((e :: queue).filter (·.scanned)).flatMap (fun e => (e.read v).diagnostics) =
        (e.read v).diagnostics ++
          (queue.filter (·.scanned)).flatMap fun e => (e.read v).diagnostics := by
      cases hscanned : e.scanned with
      | true => rw [List.filter_cons_of_pos hscanned, List.flatMap_cons]
      | false =>
        rw [List.filter_cons_of_neg (by simp [hscanned]), Pending.diagnostics_read hscanned,
          List.nil_append]
    rw [readQueue, if_pos hwaiting, Reported.diagnostics_bind, hhead]
    cases hread : (e.read v).value with
    | none =>
      simp only
      rw [ihskip h.read]
    | some found =>
      simp only
      rw [Reported.diagnostics_bind, Reported.diagnostics_pure, List.append_nil,
        ihread found (h.read.follow found), List.filter_append, filter_followed, List.nil_append]
  | case3 waiting e queue hseen ih =>
    have hscanned : ¬ e.scanned = true := fun hscanned =>
      hseen (h.waits e List.mem_cons_self hscanned)
    rw [readQueue, if_neg hseen, ih h.tail, List.filter_cons_of_neg hscanned]

end Reports

/-- Only the listed files are reported on, each once and in the order of their paths, whatever they
lead to. -/
theorem diagnostics_load (v : FileView) (files : List Path) :
    (load v files).diagnostics = (sortedPaths (files.map Path.normalize)).flatMap fun path =>
      ((Pending.mk path true).read v).diagnostics := by
  have hreports : Reports (sortedPaths (files.map Path.normalize))
      (sortedPaths (files.map Path.normalize) ++ v.paths)
      ((sortedPaths (files.map Path.normalize)).map (Pending.mk · true)) := by
    refine ⟨fits_listed files, fun e he _ => ?_, ?_⟩
    · obtain ⟨path, hpath, rfl⟩ := List.mem_map.mp he
      exact List.contains_iff_exists_mem_beq.mpr ⟨path, List.mem_append_left _ hpath, BEq.rfl⟩
    · exact List.pairwise_map.mpr ((pairwise_eraseDups _).imp fun hne _ _ hsame =>
        hne (BEq.symm hsame))
  rw [load, Reported.diagnostics_bind, Reported.diagnostics_pure, List.append_nil, loadModules,
    diagnostics_readQueue hreports]
  rw [List.filter_eq_self.mpr (List.forall_mem_map.mpr fun _ _ => rfl), List.flatMap_map]

/-! ## Finding modules again -/

/-- The first candidate stays the first one where fewer are present. -/
theorem resolveSpecifier_mono {source target : Path} {specifier : String}
    {present present' : Path → Bool}
    (h : resolveSpecifier source specifier present = some target)
    (htarget : present' target = true)
    (hfewer : ∀ path : Path, path.Normal → present' path = true → present path = true) :
    resolveSpecifier source specifier present' = some target := by
  have hnormal := Path.normal_candidates (Path.normal_normalize (source.directory.join specifier))
  unfold resolveSpecifier at h ⊢
  obtain ⟨hfound, before, after, hsplit, hbefore⟩ := List.find?_eq_some_iff_append.mp h
  rw [Bool.and_eq_true] at hfound
  refine List.find?_eq_some_iff_append.mpr
    ⟨by rw [hfound.1, htarget]; rfl, before, after, hsplit, fun other hother => ?_⟩
  have hskipped := hbefore other hother
  have hmem := hnormal other (hsplit ▸ List.mem_append_left _ hother)
  rw [Bool.not_eq_true', Bool.and_eq_false_iff] at hskipped ⊢
  refine hskipped.imp_right fun hgone => Bool.eq_false_iff.mpr fun hpresent => ?_
  rw [hfewer other hmem hpresent] at hgone
  cases hgone

/-- The file that a specifier leads to is found again as a module. -/
theorem resolveModule_load (hv : v.Lawful) {m found : SourceModule} {specifier : String}
    (hfound : found ∈ (load v files).value.modules)
    (hlead : m.LeadsTo cites v specifier found.path) :
    (load v files).value.resolveModule m.path specifier = some found := by
  have hdistinct := (distinct_loadModules v files).perm (perm_modules_load v files).symm
  have hself := module?_of_mem hdistinct hfound
  have hfewer : ∀ path : Path, path.Normal →
      ((load v files).value.module? path).isSome = true → v.isFile path = true := by
    intro path hpath hsome
    obtain ⟨other, hother⟩ := Option.isSome_iff_exists.mp hsome
    have hfind : (load v files).value.modules.find? (·.path == path) = some other := hother
    obtain ⟨hreached, hholds, -⟩ := (mem_modules_load_iff hv).mp (List.mem_of_find?_eq_some hfind)
    have hsame := List.find?_some hfind
    rw [← hreached.normal.eq_of_beq hpath hsame]
    exact hv.isFile_of_holds hholds
  obtain ⟨hrelative, -, hresolve⟩ := hlead
  rw [resolveModule, if_pos hrelative,
    resolveSpecifier_mono hresolve (by rw [hself]; rfl) hfewer, Option.bind_some, hself]

/-! ## The closure -/

/-- A program has what some files lead to by the specifiers that its modules cite. -/
structure IsClosure (p : Program) (v : FileView) (cites : SourceModule → String → Prop)
    (files : List Path) : Prop where
  /-- The modules are those that are reached; the scanned ones are listed. -/
  mem_iff : ∀ m, m ∈ p.modules ↔ Reached v cites files m.path ∧ v.Holds m.path m ∧
    (m.scanned = true ↔ m.path ∈ files.map Path.normalize)
  /-- No module is read a second time, and none is lost. -/
  once : Distinct p.modules ∧ p.modules.Perm (loadModules v files).value
  /-- The program finds the module in the file that a specifier leads to. -/
  finds : ∀ m ∈ p.modules, ∀ specifier target n, m.LeadsTo cites v specifier target →
    v.Holds target n → ∃ found ∈ p.modules, found.path = target ∧
      p.resolveModule m.path specifier = some found

theorem isClosure_of_reached (hv : v.Lawful)
    (h : ∀ path, Reached v cites files path ↔ Reached v Mentions files path) :
    (load v files).value.IsClosure v cites files where
  mem_iff _ := by rw [h, mem_modules_load_iff hv]
  once := ⟨(distinct_loadModules v files).perm (perm_modules_load v files).symm,
    perm_modules_load v files⟩
  finds := by
    intro m hm specifier target n hlead hn
    obtain ⟨hreached, hholds, -⟩ := (mem_modules_load_iff hv).mp hm
    have hnext : Reached v Mentions files target :=
      (h target).mp (.followed ((h m.path).mpr hreached) hholds hlead hn)
    have hfound : ∀ scanned : Bool, (scanned = true ↔ target ∈ files.map Path.normalize) →
        ∃ found ∈ (load v files).value.modules, found.path = target ∧
          (load v files).value.resolveModule m.path specifier = some found := by
      intro scanned hscanned
      have hpath : (n.mark scanned).path = target := hn.path_eq
      have hmem : n.mark scanned ∈ (load v files).value.modules := by
        refine (mem_modules_load_iff hv).mpr ?_
        rw [hpath]
        exact ⟨hnext, hn.mark scanned, hscanned⟩
      exact ⟨_, hmem, hpath, resolveModule_load hv hmem (hpath ▸ hlead)⟩
    by_cases hlisted : target ∈ files.map Path.normalize
    · exact hfound true (by simp [hlisted])
    · exact hfound false (by simp [hlisted])

theorem isClosure_load (hv : v.Lawful) (files : List Path) :
    (load v files).value.IsClosure v Mentions files :=
  isClosure_of_reached hv fun _ => Iff.rfl

/-! ## Overlooked specifiers -/

/-- Every module that a loaded one overlooks is loaded for another reason. -/
def LosesNothing (p : Program) (v : FileView) (files : List Path) : Prop :=
  ∀ m ∈ p.modules, ∀ specifier target n, m.LeadsTo Overlooks v specifier target →
    v.Holds target n → Reached v Mentions files target

theorem reached_names_of_mentions {path : Path} (h : Reached v Mentions files path) :
    Reached v Names files path := by
  induction h with
  | listed hfile hm => exact .listed hfile hm
  | followed _ hm hlead hn ih =>
    exact .followed ih hm ⟨hlead.1, hm.names_of_mentions hlead.2.1, hlead.2.2⟩ hn

/-- What is reached by all specifiers that are named is reached by those that are kept, where nothing
is lost. -/
theorem reached_mentions_of_names (hv : v.Lawful)
    (hkept : (load v files).value.LosesNothing v files) {path : Path}
    (h : Reached v Names files path) : Reached v Mentions files path := by
  induction h with
  | listed hfile hm => exact .listed hfile hm
  | @followed path target specifier m n _ hm hlead hn ih =>
    by_cases hmention : m.Mentions specifier
    · exact .followed ih hm ⟨hlead.1, hmention, hlead.2.2⟩ hn
    · have hloaded : ∀ scanned : Bool, (scanned = true ↔ path ∈ files.map Path.normalize) →
          m.mark scanned ∈ (load v files).value.modules := by
        intro scanned hmark
        have hpath : (m.mark scanned).path = path := hm.path_eq
        refine (mem_modules_load_iff hv).mpr ?_
        rw [hpath]
        exact ⟨ih, hm.mark scanned, hmark⟩
      have hlost : m.LeadsTo Overlooks v specifier target :=
        ⟨hlead.1, ⟨hlead.2.1, hmention⟩, hlead.2.2⟩
      by_cases hin : path ∈ files.map Path.normalize
      · exact hkept _ (hloaded true (by simp [hin])) specifier target n hlost hn
      · exact hkept _ (hloaded false (by simp [hin])) specifier target n hlost hn

/-- A program is closed under all imports and re-exports exactly when it loses nothing. -/
theorem isClosure_names_iff (hv : v.Lawful) (files : List Path) :
    (load v files).value.IsClosure v Names files ↔
      (load v files).value.LosesNothing v files := by
  constructor
  · intro h m hm specifier target n hlost hn
    obtain ⟨found, hfound, rfl, -⟩ :=
      h.finds m hm specifier target n ⟨hlost.1, hlost.2.1.1, hlost.2.2⟩ hn
    exact ((mem_modules_load_iff hv).mp hfound).1
  · intro hkept
    exact isClosure_of_reached hv fun _ =>
      ⟨reached_mentions_of_names hv hkept, reached_names_of_mentions⟩

end Program

/-! ## Finite maps -/

/-- The files of a finite map. -/
def FileView.ofEntries (entries : List (Path × String)) : FileView where
  paths := entries.map (·.1)
  isFile path := (entries.lookup path).isSome
  readText path := (entries.lookup path).elim (.error .notFound) .ok

theorem FileView.lawful_ofEntries (entries : List (Path × String)) : (ofEntries entries).Lawful where
  isFile_of_read {path text} h := by
    simp only [ofEntries] at h ⊢
    cases hfound : entries.lookup path with
    | none => simp [hfound] at h
    | some _ => rfl
  contains_of_isFile {path} _ h := by
    obtain ⟨entry, hentry, hsame⟩ := List.lookup_isSome_iff.mp h
    exact List.contains_iff_exists_mem_beq.mpr ⟨entry.1, List.mem_map_of_mem hentry, hsame⟩

/-- From a finite map of files, loading gives the closure of the listed ones under the specifiers
that modules mention, whatever the map and the list. It is the closure under all that they name
exactly when every module that is overlooked is reached some other way. -/
theorem Program.isClosure_load_ofEntries (entries : List (Path × String)) (files : List Path) :
    let v := FileView.ofEntries entries
    let p := (load v files).value
    p.IsClosure v SourceModule.Mentions files ∧
      (p.IsClosure v SourceModule.Names files ↔ p.LosesNothing v files) :=
  ⟨isClosure_load (FileView.lawful_ofEntries entries) files,
    isClosure_names_iff (FileView.lawful_ofEntries entries) files⟩

/-! ### A namespace re-export -/

/-- A file that re-exports another one under a name. -/
def namespaceFiles : List (Path × String) :=
  [(⟨"a.ts"⟩, "export * as b from \"./b\";"), (⟨"b.ts"⟩, "export type B = string;")]

section NamespaceFiles

open Program SourceModule

theorem overlooks_namespaceFiles {m : SourceModule}
    (h : (FileView.ofEntries namespaceFiles).Holds ⟨"a.ts"⟩ m) :
    m.Names "./b" ∧ ∀ specifier, ¬ m.Mentions specifier := by
  obtain ⟨text, hread, hparse⟩ := h
  obtain rfl : "export * as b from \"./b\";" = text := Except.ok.inj hread
  have hfacts : ∀ scanned,
      (parse ⟨"a.ts"⟩ "export * as b from \"./b\";" scanned).toOption.map (fun m =>
        (m.text.statements.map (·.item.source?), m.symbols.imports.entries.length,
          m.symbols.exports.entries.length, m.symbols.stars.length)) =
        some ([some "./b"], 0, 0, 0) := by
    intro scanned
    cases scanned <;> rfl
  have hm := hfacts m.scanned
  rw [hparse, Except.toOption, Option.map_some, Option.some_inj] at hm
  simp only [Prod.mk.injEq, List.length_eq_zero_iff] at hm
  obtain ⟨hnamed, himports, hexports, hstars⟩ := hm
  refine ⟨?_, fun specifier => by simp [Mentions, Table.values, himports, hexports, hstars]⟩
  obtain ⟨st, hst, hsource⟩ := List.mem_map.mp (hnamed ▸ List.mem_singleton_self (some "./b"))
  exact ⟨st, hst, hsource⟩

/-- Only the listed file is reached, for it keeps nothing of the other one. -/
theorem reached_namespaceFiles {path : Path}
    (h : Reached (.ofEntries namespaceFiles) Mentions [⟨"a.ts"⟩] path) : path = ⟨"a.ts"⟩ := by
  induction h with
  | listed hfile _ =>
    rw [List.mem_singleton.mp hfile]
    rfl
  | followed _ hm hlead _ ih =>
    subst ih
    exact absurd hlead.2.1 ((overlooks_namespaceFiles hm).2 _)

/-- A file that another one re-exports as a namespace is not loaded. -/
theorem namespace_not_loaded :
    ¬ (load (.ofEntries namespaceFiles) [⟨"a.ts"⟩]).value.IsClosure (.ofEntries namespaceFiles)
      Names [⟨"a.ts"⟩] := by
  intro h
  obtain ⟨m, hparse⟩ : ∃ m, parse ⟨"a.ts"⟩ "export * as b from \"./b\";" true = .ok m := ⟨_, rfl⟩
  obtain ⟨n, hparse'⟩ : ∃ n, parse ⟨"b.ts"⟩ "export type B = string;" true = .ok n := ⟨_, rfl⟩
  obtain ⟨hpath, hscanned⟩ := path_of_parse hparse
  have hm : (FileView.ofEntries namespaceFiles).Holds ⟨"a.ts"⟩ m := ⟨_, rfl, hscanned ▸ hparse⟩
  have hn : (FileView.ofEntries namespaceFiles).Holds ⟨"b.ts"⟩ n :=
    ⟨_, rfl, (path_of_parse hparse').2 ▸ hparse'⟩
  have hloaded : m ∈ (load (.ofEntries namespaceFiles) [⟨"a.ts"⟩]).value.modules := by
    refine (mem_modules_load_iff (FileView.lawful_ofEntries _)).mpr ?_
    rw [hpath, hscanned]
    exact ⟨.listed List.mem_cons_self hm, hm, iff_of_true rfl List.mem_cons_self⟩
  obtain ⟨hnames, hmentions⟩ := overlooks_namespaceFiles hm
  have hlead : m.LeadsTo Overlooks (.ofEntries namespaceFiles) "./b" ⟨"b.ts"⟩ := by
    refine ⟨by decide +kernel, ⟨hnames, hmentions _⟩, ?_⟩
    rw [hpath]
    rfl
  have hkept := (isClosure_names_iff (FileView.lawful_ofEntries _) _).mp h
  have hb := reached_namespaceFiles (hkept m hloaded "./b" ⟨"b.ts"⟩ n hlead hn)
  exact absurd (Path.mk.inj hb) (by decide)

end NamespaceFiles

/-! ## File trees -/

namespace FileTree

variable {t : FileTree}

theorem place_of_step {place place' : Place} {segment : String} (hidle : Path.isIdle segment = false)
    (hup : segment = ".." → place = []) (h : t.step place segment = .ok place') :
    place' = place ++ [segment] := by
  simp only [step, hidle, Bool.false_eq_true, if_false] at h
  split_ifs at h with _ hsegment hplace
  · exact absurd (hup hsegment) hplace
  · exact (Except.ok.inj h).symm

/-- A path of steps down leads to the place that is written the same. -/
theorem place_of_foldlM {segments : List String} (h : ∀ s ∈ segments, Path.IsStep s)
    {place place' : Place} (hfollow : segments.foldlM t.step place = .ok place') :
    place' = place ++ segments := by
  induction segments generalizing place with
  | nil =>
    cases hfollow
    simp
  | cons first more ih =>
    obtain ⟨hfirst, hmore⟩ := List.forall_mem_cons.mp h
    rw [List.foldlM_cons] at hfollow
    cases hstep : t.step place first with
    | error e =>
      rw [hstep] at hfollow
      cases hfollow
    | ok next =>
      rw [hstep] at hfollow
      rw [ih hmore hfollow,
        place_of_step hfirst.notIdle (fun hup => absurd hup hfirst.notUp) hstep]
      simp

theorem place_of_locate {path : Path} (hpath : path.Normal) {place : Place}
    (h : t.locate path = .ok place) : place = Path.segments path.text := by
  have htext := Path.intercalate_segments path.text
  unfold locate isReachable at h
  split_ifs at h with hreachable
  simp only [Bool.and_eq_true, bne_iff_ne, ne_eq, Bool.not_eq_true', Path.isAbsolute,
    beq_eq_false_iff_ne] at hreachable
  obtain ⟨hempty, hrelative⟩ := hreachable
  unfold Path.Normal at hpath
  generalize Path.segments path.text = segments at hpath htext h
  cases hpath with
  | empty => exact absurd htext.symm hempty
  | root =>
    rw [← htext] at hrelative
    exact absurd rfl hrelative
  | @relative first more htidy =>
    rw [follow, List.foldlM_cons] at h
    cases hstep : t.step [] first with
    | error e =>
      rw [hstep] at h
      cases h
    | ok next =>
      rw [hstep] at h
      rw [place_of_foldlM htidy.2 h, place_of_step htidy.1 (fun _ => rfl) hstep]
      simp
  | @absolute first more htidy =>
    rw [← htext, String.intercalate_cons_cons] at hrelative
    simp at hrelative

theorem isFile_iff {path : Path} : t.isFile path = true ↔
    ∃ place, t.locate path = .ok place ∧ ∃ content, t.get? place = some (.file content) := by
  unfold isFile find?
  cases t.locate path with
  | error e => simp
  | ok place =>
    simp only [Except.ok.injEq, exists_eq_left']
    cases t.get? place with
    | none => simp
    | some entry => cases entry <;> simp [FileEntry.isDirectory]

theorem isFile_of_readText {path : Path} {text : String} (h : t.readText path = .ok text) :
    t.isFile path = true := by
  rw [isFile_iff]
  unfold readText readBytes at h
  cases hlocate : t.locate path with
  | error e =>
    rw [hlocate] at h
    cases h
  | ok place =>
    cases hget : t.get? place with
    | none =>
      rw [hlocate] at h
      simp [hget, bind, Except.bind] at h
    | some entry =>
      cases entry with
      | directory =>
        rw [hlocate] at h
        simp [hget, bind, Except.bind, FileEntry.content?] at h
      | file content => exact ⟨place, rfl, content, hget⟩

theorem lawful_view (t : FileTree) : t.view.Lawful where
  isFile_of_read h := isFile_of_readText h
  contains_of_isFile {path} hpath h := by
    obtain ⟨place, hlocate, content, hget⟩ := isFile_iff.mp h
    obtain rfl := place_of_locate hpath hlocate
    have hentry : t.entries.lookup (Path.segments path.text) = some (.file content) := by
      simpa [get?, Path.segments_ne_nil] using hget
    obtain ⟨before, after, hentries, -⟩ := List.lookup_eq_some_iff.mp hentry
    have hmem : (path, content) ∈ t.files := by
      refine List.mem_filterMap.mpr ⟨(Path.segments path.text, .file content), ?_, ?_⟩
      · simp [hentries]
      · simp [FileEntry.content?, pathOf, Path.intercalate_segments]
    exact List.contains_iff_exists_mem_beq.mpr ⟨path, List.mem_map_of_mem hmem, BEq.rfl⟩

end FileTree

/-- What is loaded from a file tree is the closure of the listed files. -/
theorem Program.isClosure_load_view (t : FileTree) (files : List Path) :
    (load t.view files).value.IsClosure t.view SourceModule.Mentions files :=
  isClosure_load t.lawful_view files

end SchemaCompiler

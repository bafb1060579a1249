import Mathlib
import SchemaCompiler.Program.Load
import SchemaCompiler.Proofs.Load.Insertion
import SchemaCompiler.Proofs.Load.Mentions
import SchemaCompiler.Proofs.Path.Normal
import SchemaCompiler.Proofs.Tables

/-!
# Following imports

Files are read from a queue, each of them once, for as long as they wait. What is found that way
stands in the queue or is led to by what is found, and all of that is found. A module leads to the
files behind the relative specifiers that it mentions: those of a name that it binds by an import or
re-exports, and those of the modules whose names it exports all. An import that binds nothing leads
nowhere, and neither does a re-export that binds nothing or binds a whole module by `export * as`.
-/

namespace SchemaCompiler

/-- A view says what is there: only files can be read, and the files that normal paths lead to are
among its paths. -/
structure FileView.Lawful (v : FileView) : Prop where
  isFile_of_read : ∀ {path : Path} {text : String}, v.readText path = .ok text →
    v.isFile path = true
  contains_of_isFile : ∀ {path : Path}, path.Normal → v.isFile path = true →
    v.paths.contains path = true

/-- A module is what stands at a path, read and parsed. -/
def FileView.Holds (v : FileView) (path : Path) (m : SourceModule) : Prop :=
  ∃ text, v.readText path = .ok text ∧ SourceModule.parse path text m.scanned = .ok m

namespace SourceModule

/-- The same module, scanned or not. -/
def mark (m : SourceModule) (scanned : Bool) : SourceModule := { m with scanned }

/-- A relative specifier that a module has, in one of the ways to have one, is resolved to a file. -/
def LeadsTo (m : SourceModule) (cites : SourceModule → String → Prop) (v : FileView)
    (specifier : String) (target : Path) : Prop :=
  isRelative specifier = true ∧ cites m specifier ∧
    resolveSpecifier m.path specifier v.isFile = some target

theorem mem_referencedSpecifiers {m : SourceModule} {specifier : String} :
    specifier ∈ m.referencedSpecifiers ↔ isRelative specifier = true ∧ m.Mentions specifier := by
  simp only [referencedSpecifiers, List.mem_eraseDups, List.mem_mergeSort, List.mem_filter,
    List.mem_append, List.mem_map, List.mem_filterMap, Mentions]
  constructor
  · rintro ⟨(himport | ⟨e, he, hreexport⟩) | hstar, hrelative⟩
    · exact ⟨hrelative, .inl himport⟩
    · cases hbinding : e.binding with
      | own name => simp [hbinding] at hreexport
      | reexport other name =>
        obtain rfl : other = specifier := by simpa [hbinding] using hreexport
        exact ⟨hrelative, .inr (.inl ⟨e, he, name, hbinding⟩)⟩
    · exact ⟨hrelative, .inr (.inr hstar)⟩
  · rintro ⟨hrelative, himport | ⟨e, he, name, hbinding⟩ | hstar⟩
    · exact ⟨.inl (.inl himport), hrelative⟩
    · exact ⟨.inl (.inr ⟨e, he, by simp [hbinding]⟩), hrelative⟩
    · exact ⟨.inr hstar, hrelative⟩

theorem path_of_parse {path : Path} {source : String} {scanned : Bool} {m : SourceModule}
    (h : parse path source scanned = .ok m) : m.path = path ∧ m.scanned = scanned := by
  unfold parse at h
  split at h
  · cases h
  · cases h
    exact ⟨rfl, rfl⟩

/-- Whether a file is scanned says nothing of how it is parsed. -/
theorem parse_mark {path : Path} {source : String} {scanned : Bool} {m : SourceModule}
    (h : parse path source scanned = .ok m) (other : Bool) :
    parse path source other = .ok (m.mark other) := by
  unfold parse at h ⊢
  split at h
  · cases h
  · cases h
    rfl

end SourceModule

namespace FileView

variable {v : FileView} {path : Path} {m : SourceModule}

theorem Holds.path_eq (h : v.Holds path m) : m.path = path := by
  obtain ⟨text, -, hparse⟩ := h
  exact (SourceModule.path_of_parse hparse).1

theorem Holds.mark (h : v.Holds path m) (scanned : Bool) : v.Holds path (m.mark scanned) := by
  obtain ⟨text, hread, hparse⟩ := h
  exact ⟨text, hread, SourceModule.parse_mark hparse scanned⟩

theorem Holds.names_of_mentions (h : v.Holds path m) {specifier : String}
    (hm : m.Mentions specifier) : m.Names specifier := by
  obtain ⟨text, -, hparse⟩ := h
  exact SourceModule.names_of_mentions hparse hm

theorem Holds.unique {m' : SourceModule} (h : v.Holds path m) (h' : v.Holds path m')
    (hscanned : m.scanned = m'.scanned) : m = m' := by
  obtain ⟨text, hread, hparse⟩ := h
  obtain ⟨text', hread', hparse'⟩ := h'
  obtain rfl : text = text' := Except.ok.inj (hread.symm.trans hread')
  rw [hscanned] at hparse
  exact Except.ok.inj (hparse.symm.trans hparse')

theorem Lawful.isFile_of_holds (hv : v.Lawful) (h : v.Holds path m) : v.isFile path = true := by
  obtain ⟨text, hread, -⟩ := h
  exact hv.isFile_of_read hread

end FileView

namespace Program

open FileView SourceModule

variable {v : FileView}

/-! ## Reading files -/

theorem readModule_iff {path : Path} {source : String} {scanned : Bool} {m : SourceModule} :
    (readModule path source scanned).value = some m ↔
      SourceModule.parse path source scanned = .ok m := by
  unfold readModule
  cases SourceModule.parse path source scanned with
  | ok found => simp
  | error e => cases scanned <;> simp

/-- Whether a module is scanned is all that a reading adds to its text. -/
theorem parse_iff_scanned {path : Path} {source : String} {scanned : Bool} {m : SourceModule} :
    SourceModule.parse path source scanned = .ok m ↔
      SourceModule.parse path source m.scanned = .ok m ∧ m.scanned = scanned := by
  constructor
  · intro h
    obtain ⟨-, hscanned⟩ := path_of_parse h
    exact ⟨hscanned ▸ h, hscanned⟩
  · rintro ⟨h, hscanned⟩
    exact hscanned ▸ h

theorem Pending.read_iff {e : Pending} {m : SourceModule} :
    (e.read v).value = some m ↔ v.Holds e.path m ∧ m.scanned = e.scanned := by
  unfold Pending.read Holds
  cases v.readText e.path with
  | error err => cases e.scanned <;> simp
  | ok text =>
    simp only [readModule_iff, Except.ok.injEq, exists_eq_left']
    exact parse_iff_scanned

theorem mem_targets {m : SourceModule} {target : Path} :
    target ∈ targets v m ↔ ∃ specifier, m.LeadsTo Mentions v specifier target := by
  simp only [targets, List.mem_filterMap, mem_referencedSpecifiers, LeadsTo, and_assoc]

theorem normal_of_mem_targets {m : SourceModule} {target : Path} (h : target ∈ targets v m) :
    target.Normal := by
  obtain ⟨specifier, -, -, hresolve⟩ := mem_targets.mp h
  exact normal_of_resolveSpecifier hresolve

/-! ## Listed paths -/

theorem mem_of_mem_sortedPaths {paths : List Path} {path : Path} (h : path ∈ sortedPaths paths) :
    path ∈ paths :=
  List.mem_mergeSort.mp (mem_of_mem_eraseDups h)

theorem normal_of_mem_listed {files : List Path} {path : Path}
    (h : path ∈ files.map Path.normalize) : path.Normal := by
  obtain ⟨file, -, rfl⟩ := List.mem_map.mp h
  exact Path.normal_normalize file

theorem mem_sortedPaths_iff {files : List Path} {path : Path} :
    path ∈ sortedPaths (files.map Path.normalize) ↔ path ∈ files.map Path.normalize := by
  refine ⟨mem_of_mem_sortedPaths, fun h => ?_⟩
  obtain ⟨other, hother, hsame⟩ := exists_mem_eraseDups (List.mem_mergeSort.mpr h)
  rw [(normal_of_mem_listed h).eq_of_beq
    (normal_of_mem_listed (mem_of_mem_sortedPaths hother)) hsame]
  exact hother

/-- A normal path is listed where the list has a path that is the same. -/
theorem mem_sortedPaths_of_contains {files : List Path} {path : Path} (hpath : path.Normal)
    (h : (sortedPaths (files.map Path.normalize)).contains path = true) :
    path ∈ files.map Path.normalize := by
  obtain ⟨other, hother, hsame⟩ := List.contains_iff_exists_mem_beq.mp h
  have hlisted := mem_of_mem_sortedPaths hother
  rwa [hpath.eq_of_beq (normal_of_mem_listed hlisted) hsame]

/-! ## Following modules -/

theorem contains_without {paths : List Path} {path other : Path} (h : paths.contains other = true)
    (hne : ¬ (path == other) = true) : (without paths path).contains other = true := by
  obtain ⟨found, hfound, hsame⟩ := List.contains_iff_exists_mem_beq.mp h
  refine List.contains_iff_exists_mem_beq.mpr ⟨found, List.mem_filter.mpr ⟨hfound, ?_⟩, hsame⟩
  rw [bne, Bool.not_eq_true', Bool.eq_false_iff]
  exact fun heq => hne (BEq.trans heq (BEq.symm hsame))

theorem contains_of_without {paths : List Path} {path other : Path}
    (h : (without paths path).contains other = true) :
    paths.contains other = true ∧ ¬ (path == other) = true := by
  obtain ⟨found, hfound, hsame⟩ := List.contains_iff_exists_mem_beq.mp h
  obtain ⟨hmem, hne⟩ := List.mem_filter.mp hfound
  refine ⟨List.contains_iff_exists_mem_beq.mpr ⟨found, hmem, hsame⟩, fun heq => ?_⟩
  rw [bne, BEq.trans heq hsame] at hne
  cases hne

/-- A file in the queue has a normal path, and it is scanned when that is listed. -/
def Pending.Fits (listed : List Path) (e : Pending) : Prop :=
  e.path.Normal ∧ (e.scanned = true ↔ e.path ∈ listed)

/-- Files that can be read were reached, if they are modules. -/
def Open (v : FileView) (reached : Path → Prop) (paths : List Path) : Prop :=
  ∀ path ∈ paths, ∀ m, v.Holds path m → reached path

/-- A waiting file is found, if it is a module. -/
def Finds (v : FileView) (listed waiting : List Path) (queue : List Pending) (path : Path) : Prop :=
  waiting.contains path = true → ∀ m, v.Holds path m → (m.scanned = true ↔ path ∈ listed) →
    m ∈ (readQueue v listed waiting queue).value

section Queue

variable {listed waiting : List Path} {queue : List Pending} {e : Pending} {m : SourceModule}

theorem mem_followed :
    e ∈ followed v listed m ↔
      e.path ∈ targets v m ∧ listed.contains e.path = false ∧ e.scanned = false := by
  obtain ⟨path, scanned⟩ := e
  simp [followed, and_assoc]

theorem fits_of_mem_followed (h : e ∈ followed v listed m) : e.Fits listed := by
  obtain ⟨htarget, hout, hscanned⟩ := mem_followed.mp h
  refine ⟨normal_of_mem_targets htarget, iff_of_false (by simp [hscanned]) fun hin => ?_⟩
  rw [List.contains_iff_exists_mem_beq.mpr ⟨e.path, hin, BEq.rfl⟩] at hout
  cases hout

theorem fits_followed_append (h : ∀ e ∈ queue, e.Fits listed) (m : SourceModule) :
    ∀ e ∈ followed v listed m ++ queue, e.Fits listed := by
  intro e he
  rcases List.mem_append.mp he with he | he
  · exact fits_of_mem_followed he
  · exact h e he

/-! ### One file -/

theorem value_readQueue_some (hwaiting : waiting.contains e.path = true)
    (hread : (e.read v).value = some m) :
    (readQueue v listed waiting (e :: queue)).value =
      m :: (readQueue v listed (without waiting e.path) (followed v listed m ++ queue)).value := by
  rw [readQueue, if_pos hwaiting, Reported.value_bind, hread]
  rfl

theorem value_readQueue_none (hwaiting : waiting.contains e.path = true)
    (hread : (e.read v).value = none) :
    (readQueue v listed waiting (e :: queue)).value =
      (readQueue v listed (without waiting e.path) queue).value := by
  rw [readQueue, if_pos hwaiting, Reported.value_bind, hread]

theorem value_readQueue_seen (hseen : ¬ waiting.contains e.path = true) :
    (readQueue v listed waiting (e :: queue)).value = (readQueue v listed waiting queue).value := by
  rw [readQueue, if_neg hseen]

/-- A path is found when it is at the head of the queue, or found in the rest. -/
theorem Finds.cons {other : Path} (hfits : e.Fits listed) (hother : other.Normal)
    (hwaiting : waiting.contains e.path = true) (hread : (e.read v).value = some m)
    (h : ¬ (e.path == other) = true →
      Finds v listed (without waiting e.path) (followed v listed m ++ queue) other) :
    Finds v listed waiting (e :: queue) other := by
  intro hwait n hn hmark
  rw [value_readQueue_some hwaiting hread]
  by_cases hsame : (e.path == other) = true
  · obtain rfl := hfits.1.eq_of_beq hother hsame
    obtain ⟨hholds, hscanned⟩ := Pending.read_iff.mp hread
    have hagree : n.scanned = m.scanned := by
      rw [hscanned, Bool.eq_iff_iff, hmark, hfits.2]
    rw [hn.unique hholds hagree]
    exact List.mem_cons_self
  · exact List.mem_cons_of_mem _ (h hsame (contains_without hwait hsame) n hn hmark)

/-- A path is found in the rest of the queue when no module is at its head. -/
theorem Finds.skip {other : Path} (hfits : e.Fits listed) (hother : other.Normal)
    (hwaiting : waiting.contains e.path = true) (hread : (e.read v).value = none)
    (h : ¬ (e.path == other) = true → Finds v listed (without waiting e.path) queue other) :
    Finds v listed waiting (e :: queue) other := by
  intro hwait n hn hmark
  rw [value_readQueue_none hwaiting hread]
  have hne : ¬ (e.path == other) = true := by
    intro hsame
    obtain rfl := hfits.1.eq_of_beq hother hsame
    have hscanned : n.scanned = e.scanned := by rw [Bool.eq_iff_iff, hmark, hfits.2]
    rw [Pending.read_iff.mpr ⟨hn, hscanned⟩] at hread
    cases hread
  exact h hne (contains_without hwait hne) n hn hmark

theorem Finds.seen {other : Path} (hseen : ¬ waiting.contains e.path = true)
    (h : Finds v listed waiting queue other) : Finds v listed waiting (e :: queue) other := by
  intro hwait n hn hmark
  rw [value_readQueue_seen hseen]
  exact h hwait n hn hmark

/-! ### All files -/

/-- What is read was waiting, it was reached, and it is scanned when it is listed. -/
theorem readQueue_sound {reached : Path → Prop}
    (hstep : ∀ {path m}, reached path → v.Holds path m → Open v reached (targets v m))
    (hfits : ∀ e ∈ queue, e.Fits listed) (hopen : Open v reached (queue.map (·.path)))
    (hm : m ∈ (readQueue v listed waiting queue).value) :
    waiting.contains m.path = true ∧ v.Holds m.path m ∧ (m.scanned = true ↔ m.path ∈ listed) ∧
      reached m.path := by
  induction waiting, queue using readQueue.induct v listed with
  | case1 waiting =>
    rw [readQueue] at hm
    cases hm
  | case2 waiting e queue hwaiting ihread ihskip =>
    obtain ⟨he, hrest⟩ := List.forall_mem_cons.mp hfits
    obtain ⟨hhead, htail⟩ := List.forall_mem_cons.mp hopen
    cases hread : (e.read v).value with
    | none =>
      rw [value_readQueue_none hwaiting hread] at hm
      obtain ⟨hmore, hspec⟩ := ihskip hrest htail hm
      exact ⟨(contains_of_without hmore).1, hspec⟩
    | some found =>
      obtain ⟨hholds, hscanned⟩ := Pending.read_iff.mp hread
      have hreached := hhead found hholds
      rw [value_readQueue_some hwaiting hread] at hm
      rcases List.mem_cons.mp hm with rfl | hm
      · rw [hholds.path_eq, hscanned]
        exact ⟨hwaiting, hholds, he.2, hreached⟩
      · have hnext : Open v reached ((followed v listed found ++ queue).map (·.path)) := by
          rw [List.map_append]
          intro path hpath
          rcases List.mem_append.mp hpath with hpath | hpath
          · obtain ⟨entry, hentry, rfl⟩ := List.mem_map.mp hpath
            exact hstep hreached hholds entry.path (mem_followed.mp hentry).1
          · exact htail path hpath
        obtain ⟨hmore, hspec⟩ := ihread found (fits_followed_append hrest found) hnext hm
        exact ⟨(contains_of_without hmore).1, hspec⟩
  | case3 waiting e queue hseen ih =>
    rw [value_readQueue_seen hseen] at hm
    exact ih (List.forall_mem_cons.mp hfits).2 (List.forall_mem_cons.mp hopen).2 hm

theorem contains_of_mem_readQueue (hfits : ∀ e ∈ queue, e.Fits listed)
    (hm : m ∈ (readQueue v listed waiting queue).value) : waiting.contains m.path = true := by
  have hopen : ∀ paths, Open v (fun _ => True) paths := fun _ _ _ _ _ => trivial
  exact (readQueue_sound (fun _ _ => hopen _) hfits (hopen _) hm).1

/-- No file is read twice. -/
theorem distinct_readQueue (hfits : ∀ e ∈ queue, e.Fits listed) :
    Distinct (readQueue v listed waiting queue).value := by
  induction waiting, queue using readQueue.induct v listed with
  | case1 waiting =>
    rw [readQueue]
    exact .nil
  | case2 waiting e queue hwaiting ihread ihskip =>
    have hrest := (List.forall_mem_cons.mp hfits).2
    cases hread : (e.read v).value with
    | none =>
      rw [value_readQueue_none hwaiting hread]
      exact ihskip hrest
    | some found =>
      have hnext := fits_followed_append (v := v) hrest found
      rw [value_readQueue_some hwaiting hread]
      refine List.pairwise_cons.mpr ⟨fun m hm => ?_, ihread found hnext⟩
      rw [(Pending.read_iff.mp hread).1.path_eq]
      exact (contains_of_without (contains_of_mem_readQueue hnext hm)).2
  | case3 waiting e queue hseen ih =>
    rw [value_readQueue_seen hseen]
    exact ih (List.forall_mem_cons.mp hfits).2

/-- What stands in the queue, or is led to by what is read and is not listed, is found. -/
theorem readQueue_complete (hfits : ∀ e ∈ queue, e.Fits listed) :
    (∀ e ∈ queue, Finds v listed waiting queue e.path) ∧
      ∀ found ∈ (readQueue v listed waiting queue).value, ∀ path ∈ targets v found,
        listed.contains path = false → Finds v listed waiting queue path := by
  induction waiting, queue using readQueue.induct v listed with
  | case1 waiting =>
    rw [readQueue]
    exact ⟨by simp, by simp⟩
  | case2 waiting e queue hwaiting ihread ihskip =>
    obtain ⟨he, hrest⟩ := List.forall_mem_cons.mp hfits
    cases hread : (e.read v).value with
    | none =>
      obtain ⟨hnext, hclosed⟩ := ihskip hrest
      rw [value_readQueue_none hwaiting hread]
      refine ⟨fun other hother => ?_, fun source hsource path hpath hout => ?_⟩
      · refine .skip he (hfits other hother).1 hwaiting hread fun hne => ?_
        rcases List.mem_cons.mp hother with rfl | hother
        · exact absurd BEq.rfl hne
        · exact hnext other hother
      · exact .skip he (normal_of_mem_targets hpath) hwaiting hread fun _ =>
          hclosed source hsource path hpath hout
    | some found =>
      obtain ⟨hnext, hclosed⟩ := ihread found (fits_followed_append hrest found)
      rw [value_readQueue_some hwaiting hread]
      refine ⟨fun other hother => ?_, fun source hsource path hpath hout => ?_⟩
      · refine .cons he (hfits other hother).1 hwaiting hread fun hne => ?_
        rcases List.mem_cons.mp hother with rfl | hother
        · exact absurd BEq.rfl hne
        · exact hnext other (List.mem_append_right _ hother)
      · refine .cons he (normal_of_mem_targets hpath) hwaiting hread fun _ => ?_
        rcases List.mem_cons.mp hsource with rfl | hsource
        · exact hnext ⟨path, false⟩
            (List.mem_append_left _ (mem_followed.mpr ⟨hpath, hout, rfl⟩))
        · exact hclosed source hsource path hpath hout
  | case3 waiting e queue hseen ih =>
    obtain ⟨hnext, hclosed⟩ := ih (List.forall_mem_cons.mp hfits).2
    rw [value_readQueue_seen hseen]
    refine ⟨fun other hother => ?_, fun source hsource path hpath hout =>
      .seen hseen (hclosed source hsource path hpath hout)⟩
    rcases List.mem_cons.mp hother with rfl | hother
    · exact fun hwait => absurd hwait hseen
    · exact .seen hseen (hnext other hother)

end Queue

end Program

end SchemaCompiler

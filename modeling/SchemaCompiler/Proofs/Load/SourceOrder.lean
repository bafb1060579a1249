import Mathlib
import SchemaCompiler.Generate
import SchemaCompiler.Proofs.Diagnostics
import SchemaCompiler.Proofs.Load.Follow

/-!
# The order of the source files

A program keeps its modules sorted by path, so it is the same program whatever the order is in which
files with distinct paths are added. Nothing after that can tell the orders apart: what is generated is
the same, and only the diagnostics about files that are not modules, which come first, follow the order
of the files.
-/

namespace SchemaCompiler

namespace Program

/-! ## Reading files in another order -/

/-- Files whose normalized paths differ. -/
def Apart (files : List SourceFile) : Prop :=
  files.Pairwise fun a b => ¬ (a.path.normalize == b.path.normalize) = true

theorem value_ofFiles (p : Program) (files : List SourceFile) : (ofFiles p files).value =
    (files.filterMap fun file => file.read.value).foldl insert p := by
  simp [ofFiles]

theorem diagnostics_ofFiles (p : Program) (files : List SourceFile) :
    (ofFiles p files).diagnostics = files.flatMap fun file => file.read.diagnostics := by
  simp [ofFiles]

theorem path_of_read {file : SourceFile} {m : SourceModule} (h : file.read.value = some m) :
    m.path = file.path.normalize :=
  (SourceModule.path_of_parse (readModule_iff.mp h)).1

theorem Apart.distinct {files : List SourceFile} (h : Apart files) :
    Distinct (files.filterMap fun file => file.read.value) := by
  refine List.pairwise_filterMap.mpr (h.imp ?_)
  intro a b hne m hm n hn hsame
  rw [path_of_read hm, path_of_read hn] at hsame
  exact hne hsame

theorem ofFiles_perm {files files' : List SourceFile} (hperm : files.Perm files')
    (happart : Apart files) (p : Program) :
    (ofFiles p files).value = (ofFiles p files').value ∧
      (ofFiles p files).diagnostics.Perm (ofFiles p files').diagnostics := by
  rw [value_ofFiles, value_ofFiles, diagnostics_ofFiles, diagnostics_ofFiles]
  exact ⟨foldl_insert_perm (hperm.filterMap _) happart.distinct p, hperm.flatMap_right _⟩

/-- Reading reports only files that are not modules. -/
theorem parseError_of_mem_ofFiles {p : Program} {files : List SourceFile} {d : Diagnostic}
    (h : d ∈ (ofFiles p files).diagnostics) : d.code = .parseError := by
  rw [diagnostics_ofFiles] at h
  obtain ⟨file, -, hd⟩ := List.mem_flatMap.mp h
  unfold SourceFile.read readModule at hd
  split at hd
  · cases hd
  · split_ifs at hd
    · rw [List.mem_singleton.mp hd]
      rfl
    · cases hd

end Program

/-! ## What is generated -/

/-- Two results that only differ in the order of the parse errors at the front. -/
structure Generated.SameAfter (g g' : Generated) (front front' : List Diagnostic) : Prop where
  sdl : g.sdl = g'.sdl
  typeDefsCode : g.typeDefsCode = g'.typeDefsCode
  resolversCode : g.resolversCode = g'.resolversCode
  prunedTypes : g.prunedTypes = g'.prunedTypes
  hasErrors : g.hasErrors = g'.hasErrors
  rest : ∃ rest, g.diagnostics = front ++ rest ∧ g'.diagnostics = front' ++ rest
  perm : front.Perm front'
  parseErrors : ∀ d ∈ front, d.code = .parseError

theorem hasErrors_perm {ds ds' : List Diagnostic} (h : ds.Perm ds') : hasErrors ds = hasErrors ds' :=
  h.any_eq

/-- Source files that differ in their paths give the same result in every order. -/
theorem generate_ofFiles_perm {files files' : List Program.SourceFile} (hperm : files.Perm files')
    (happart : Program.Apart files) (config : Config) (dir : Path) :
    let loaded := Program.ofFiles {} files
    let loaded' := Program.ofFiles {} files'
    (generate loaded.value loaded.diagnostics config dir).SameAfter
      (generate loaded'.value loaded'.diagnostics config dir)
      loaded.diagnostics loaded'.diagnostics := by
  intro loaded loaded'
  obtain ⟨hvalue, hdiagnostics⟩ := Program.ofFiles_perm hperm happart {}
  have hsame : loaded.value = loaded'.value := hvalue
  rw [← hsame]
  exact {
    sdl := rfl
    typeDefsCode := rfl
    resolversCode := rfl
    prunedTypes := rfl
    hasErrors := hasErrors_perm (hdiagnostics.append_right _)
    rest := ⟨_, rfl, rfl⟩
    perm := hdiagnostics
    parseErrors := fun d hd => Program.parseError_of_mem_ofFiles hd }

/-- Two scanned files; the second one is no module. -/
def twoFiles : List Program.SourceFile :=
  [⟨⟨"src/gqlkit/user.ts"⟩, "export type User = { name: string };", true⟩,
    ⟨⟨"src/gqlkit/../gqlkit/post.ts"⟩, "export type Post =", true⟩]

theorem generate_ofFiles_perm_two :
    let config := ConfigFile.resolve {}
    let dir : Path := ⟨"src/gqlkit/__generated__"⟩
    let loaded := Program.ofFiles {} twoFiles
    let loaded' := Program.ofFiles {} twoFiles.reverse
    twoFiles.Perm twoFiles.reverse ∧ Program.Apart twoFiles ∧
      (generate loaded.value loaded.diagnostics config dir).SameAfter
        (generate loaded'.value loaded'.diagnostics config dir)
        loaded.diagnostics loaded'.diagnostics := by
  have hperm : twoFiles.Perm twoFiles.reverse := (List.reverse_perm twoFiles).symm
  have happart : Program.Apart twoFiles := by
    refine List.pairwise_pair.mpr ?_
    rw [Bool.not_eq_true]
    cbv
  exact ⟨hperm, happart, generate_ofFiles_perm hperm happart _ _⟩

end SchemaCompiler

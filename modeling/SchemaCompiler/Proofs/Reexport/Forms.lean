import SchemaCompiler.Generate
import SchemaCompiler.Proofs.Load.Insertion
import SchemaCompiler.Proofs.Reexport.Types

/-!
# The two forms of a re-export

A name is passed on by `export { X as Y } from S`, or by `import { X as L } from S` and
`export { L as Y }`. Programs that differ in this alone resolve the same names and export the same
types. A form costs no hop more than the other, packages and star exports included.

Only the report of a file that is not found belongs to the first form alone.
-/

namespace SchemaCompiler

open TypeScript

/-- Types and reports that are extracted from a program, without their places. -/
def extraction (p : Program) (mappings : List ScalarMapping) :
    List ExportedType × List Diagnostic :=
  let found := analyze p mappings
  (found.types.value.map ExportedType.unplaced,
    (found.registry.diagnostics ++ found.types.diagnostics).map Diagnostic.unplaced)

/-- The tables of a module are those of its statements. -/
def SourceModule.Built (m : SourceModule) : Prop :=
  m.symbols = Symbols.build (SourceModule.locate m.path m.text.source) m.text.statements

theorem SourceModule.built_of_parse {path : Path} {source : String} {scanned : Bool}
    {m : SourceModule} (h : SourceModule.parse path source scanned = .ok m) : m.Built := by
  unfold SourceModule.parse at h
  split at h
  · cases h
  · cases h
    rfl

namespace Rewriting

variable (w : Rewriting)

/-- The second module is the first one, but that the entry is written as an import and an export. -/
structure Turns (m m' : SourceModule) : Prop where
  file : m.path = w.file
  path : m.path = m'.path
  scanned : m.scanned = m'.scanned
  built : m.Built
  built' : m'.Built
  statements : w.Rewrites (w.compare m m') m.text.statements m'.text.statements

variable {w} {m m' : SourceModule} {p p' : Program}

theorem Turns.counterpart (h : w.Turns m m') : w.Counterpart m m' := by
  have hunknown : ∀ name, (w.compare m m').Known name ↔ name ≠ w.binding := by
    intro name
    show (m.path.components = w.file.components → name ≠ w.binding) ↔ name ≠ w.binding
    rw [h.file]
    exact ⟨fun hname => hname rfl, fun hname _ => hname⟩
  have hbuilt : m.symbols = _ := h.built
  have hbuilt' : m'.symbols = _ := h.built'
  refine ⟨h.path, h.scanned, ?_⟩
  rw [hbuilt, hbuilt']
  exact Comparison.SameSymbols.build h.statements hunknown _ _

/-- A module in another file stays as it is. -/
theorem counterpart_self (h : m.path.components ≠ w.file.components) : w.Counterpart m m :=
  ⟨rfl, rfl, Comparison.SameSymbols.of_trivial ⟨rfl, fun _ hfile => absurd hfile h⟩ _⟩

section Programs

variable {before after : List SourceModule}

/-- The other modules of a program stand in other files. -/
theorem components_ne_of_distinct (h : Program.Distinct (before ++ m :: after)) :
    ∀ other ∈ before ++ after, other.path.components ≠ m.path.components := by
  obtain ⟨-, hback, hfront⟩ := List.pairwise_append.mp h
  intro other hother hsame
  rcases List.mem_append.mp hother with hother | hother
  · exact hfront other hother m List.mem_cons_self (Path.beq_iff.mpr hsame)
  · exact (List.pairwise_cons.mp hback).1 other hother (Path.beq_iff.mpr hsame.symm)

theorem Turns.sameProgram (h : w.Turns m m') (hp : p.modules = before ++ m :: after)
    (hp' : p'.modules = before ++ m' :: after) (hdistinct : Program.Distinct p.modules) :
    w.SameProgram p p' := by
  rw [hp] at hdistinct
  have hothers : ∀ other ∈ before ++ after, w.Counterpart other other := fun other hother =>
    counterpart_self (h.file ▸ components_ne_of_distinct hdistinct other hother)
  rw [SameProgram, hp, hp']
  have hfront : List.Forall₂ w.Counterpart before before :=
    List.forall₂_same.mpr fun other hother => hothers other (List.mem_append_left _ hother)
  have hback : List.Forall₂ w.Counterpart after after :=
    List.forall₂_same.mpr fun other hother => hothers other (List.mem_append_right _ hother)
  exact List.rel_append hfront (.cons h.counterpart hback)

theorem Turns.resolves (h : w.Turns m m') (hp : p.modules = before ++ m :: after)
    (hdistinct : Program.Distinct p.modules)
    (hfound : isRelative w.source = true → (p.resolveModule m.path w.source).isSome = true) :
    w.Resolves p := by
  intro a ha hfile
  have hsame : a.path.components = m.path.components := by
    by_contra hother
    exact hfile fun hcomponents => absurd (hcomponents.trans (by rw [h.file])) hother
  rw [hp] at ha hdistinct
  rcases List.mem_append.mp ha with ha | ha
  · exact absurd hsame (components_ne_of_distinct hdistinct a (List.mem_append_left _ ha))
  · rcases List.mem_cons.mp ha with rfl | ha
    · exact hfound
    · exact absurd hsame (components_ne_of_distinct hdistinct a (List.mem_append_right _ ha))

end Programs

theorem SameProgram.extraction (h : w.SameProgram p p') (hresolves : w.Resolves p)
    (mappings : List ScalarMapping) : extraction p mappings = extraction p' mappings := by
  have hregistry := agree_build h mappings
  have htypes := agree_collectTypes hregistry.value hresolves
  have hvalues : (analyze p mappings).types.value.map ExportedType.unplaced =
      (analyze p' mappings).types.value.map ExportedType.unplaced :=
    map_eq_map_of_forall₂ htypes.value fun _ _ => id
  simp only [SchemaCompiler.extraction, List.map_append, hvalues]
  simp only [analyze, hregistry.diagnostics, htypes.diagnostics]

/-- The two forms of a re-export are interchangeable. All modules export the same under all names, and
see the same behind all names but the one that is imported; the same types are extracted, with the
same reports, where the module that is named is loaded or belongs to a package. -/
theorem forms_interchangeable {before after : List SourceModule}
    (hp : p.modules = before ++ m :: after) (hp' : p'.modules = before ++ m' :: after)
    (hdistinct : Program.Distinct p.modules) (hm : w.Turns m m') :
    (∀ path name depth,
      (p.module? path).map (p.resolveExport · name depth) =
        (p'.module? path).map (p'.resolveExport · name depth)) ∧
      (∀ path name, (path.components = m.path.components → name ≠ w.binding) →
        p.resolveName path name = p'.resolveName path name) ∧
      ((isRelative w.source = true → (p.resolveModule m.path w.source).isSome = true) →
        ∀ mappings, SchemaCompiler.extraction p mappings =
          SchemaCompiler.extraction p' mappings) := by
  have hsame := hm.sameProgram hp hp' hdistinct
  refine ⟨fun path name depth => ?_, fun path name hname => ?_, fun hfound mappings => ?_⟩
  · have hmodule := hsame.module? path
    have hloaded : ∀ a, p.module? path = some a → (p.module? a.path).isSome = true :=
      fun a ha => by
        rw [Program.module?_self ha]
        rfl
    generalize p.module? path = x, p'.module? path = y at hmodule hloaded
    cases hmodule with
    | none => rfl
    | @some a b hab => exact congrArg some (hsame.resolveExport hab (hloaded a rfl) name depth)
  · exact hsame.resolveName fun hfile => hname (hfile.trans (by rw [hm.file]))
  · exact hsame.extraction (hm.resolves hp hdistinct hfound) mappings

end Rewriting

/-! ## A type that is passed on in both forms -/

namespace Sample

/-- The file that passes on a type of the directory, with these statements. -/
def passing (statements : List Statement) : SourceModule where
  path := ⟨"src/api.ts"⟩
  text := ⟨⟨[], [0]⟩, statements, {}⟩
  symbols := Symbols.build (SourceModule.locate ⟨"src/api.ts"⟩ ⟨[], [0]⟩) statements
  scanned := true

def team : Statement :=
  ⟨span, .exportDeclaration (.interface ⟨span, "Team", false, [],
    [property "name" (keyword .string)]⟩)⟩

def person : Rewriting := ⟨⟨"src/api.ts"⟩, ".", "User", "Person", "Local"⟩

def listing : SourceModule :=
  passing [team, ⟨span, .exportNamed [⟨"User", "Person"⟩] (some ".")⟩]

def importing : SourceModule :=
  passing [team, ⟨span, person.importItem⟩, ⟨span, person.exportItem⟩]

theorem turns_person : person.Turns listing importing := by
  have hplace : (person.compare listing importing).SamePlace span span := ⟨rfl, rfl⟩
  refine ⟨rfl, rfl, rfl, rfl, rfl, .skip ⟨hplace, ?_⟩ ?_⟩
  · have hmembers : List.Forall₂ (person.compare listing importing).SameMember
        [property "name" (keyword .string)] [property "name" (keyword .string)] :=
      .cons (.typed hplace (.fixed "name") false (.keyword hplace .string)) .nil
    have hname : (person.compare listing importing).Known "Team" := fun _ => by decide
    exact .exportDeclaration (.ofInterface hname ⟨hplace, rfl, rfl, .nil, hmembers⟩)
  · exact .here (.none rfl) (.none rfl) .nil span span span

theorem resolveModule_listing :
    Program.resolveModule ⟨[listing, people]⟩ listing.path "." = some people := by
  have hrelative : isRelative "." = true := by simp [isRelative]
  have hcandidates : ((listing.path.directory.join ".").normalize).candidates = _ :=
    candidates_people
  rw [Program.resolveModule, if_pos hrelative, resolveSpecifier, hcandidates]
  cbv

theorem resolveExport_listing :
    Program.resolveExport ⟨[listing, people]⟩ listing "Person" 0 =
      some (.symbol ⟨⟨"src/index.ts"⟩, "User"⟩) := by
  have hlisted : listing.symbols.exports.get? "Person" =
      some ⟨.reexport "." "User", false, ⟨⟨"src/api.ts"⟩, 1, 1⟩⟩ := by cbv
  have hrelative : isRelative "." = true := by simp [isRelative]
  rw [Program.resolveExport, show maxReexportHops - 0 = 0 + 1 from rfl,
    Program.resolveExportWithin, Program.resolveExportWith, hlisted]
  simp only [Program.resolveEntry, Option.bind_some, hrelative, Bool.not_true,
    Bool.false_eq_true, if_false, resolveModule_listing]
  cbv

theorem distinct_listing : Program.Distinct [listing, people] := by
  have hpaths : (listing.path == people.path) = false := by cbv
  rw [Program.Distinct, List.pairwise_pair, hpaths]
  exact Bool.false_ne_true

end Sample

open Sample

/-- The type is passed on through the import as it is through the list. -/
theorem forms_interchangeable_person :
    Program.resolveExport ⟨[importing, people]⟩ importing "Person" 0 =
        some (.symbol ⟨⟨"src/index.ts"⟩, "User"⟩) ∧
      extraction ⟨[listing, people]⟩ [] = extraction ⟨[importing, people]⟩ [] := by
  obtain ⟨hexports, -, hextracted⟩ :=
    @Rewriting.forms_interchangeable person listing importing ⟨[listing, people]⟩
      ⟨[importing, people]⟩ [] [people] rfl rfl distinct_listing turns_person
  constructor
  · have hperson := hexports listing.path "Person" 0
    have hfirst : Program.module? ⟨[listing, people]⟩ listing.path = some listing :=
      Program.module?_of_mem distinct_listing List.mem_cons_self
    have hfirst' : Program.module? ⟨[importing, people]⟩ listing.path = some importing := by
      rw [Program.module?, List.find?_cons_of_pos]
      exact BEq.rfl
    rw [hfirst, hfirst', Option.map_some, Option.map_some, resolveExport_listing] at hperson
    exact (Option.some.inj hperson).symm
  · refine hextracted (fun _ => ?_) []
    rw [show person.source = "." from rfl, resolveModule_listing, Option.isSome_some]

end SchemaCompiler

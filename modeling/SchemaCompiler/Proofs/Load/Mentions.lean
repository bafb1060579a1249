import Mathlib.Data.List.Basic
import SchemaCompiler.Program.Basic
import SchemaCompiler.Proofs.Tables

/-!
# Specifiers that a module names

Every import and every re-export names a specifier. A module keeps the specifiers of the names that it
binds, and of the modules whose names it exports all. The others it overlooks: those of an import or
a re-export that binds nothing, as `import "./setup"`, of `export * as`, whose name is never looked
up, and those whose names are all bound again further down.
-/

namespace SchemaCompiler

open TypeScript

/-- The specifier of an import or a re-export, whatever it binds. -/
def TypeScript.Item.source? : Item → Option String
  | .imports _ source => some source
  | .exportNamed _ source => source
  | .exportAll source => some source
  | .declaration _ => none
  | .exportDeclaration _ => none
  | .exportDefaultInterface _ => none
  | .exportDefaultExpr _ => none
  | .other => none

namespace SourceModule

/-- A statement of the module imports or re-exports from a specifier. -/
def Names (m : SourceModule) (specifier : String) : Prop :=
  ∃ s ∈ m.text.statements, s.item.source? = some specifier

/-- The module binds a name by an import from a specifier, or re-exports from it. -/
def Mentions (m : SourceModule) (specifier : String) : Prop :=
  (∃ i ∈ m.symbols.imports.values, i.specifier = specifier) ∨
    (∃ e ∈ m.symbols.exports.values, ∃ name, e.binding = .reexport specifier name) ∨
    ∃ star ∈ m.symbols.stars, star.specifier = specifier

/-- The module names a specifier and keeps nothing of it. -/
def Overlooks (m : SourceModule) (specifier : String) : Prop :=
  m.Names specifier ∧ ¬ m.Mentions specifier

end SourceModule

/-! ## Tables of symbols -/

namespace Symbols

/-- All specifiers that are kept are of one kind. -/
structure DrawOn (named : String → Prop) (s : Symbols) : Prop where
  imports : s.imports.All fun _ i => named i.specifier
  exports : s.exports.All fun _ e =>
    ∀ specifier name, e.binding = .reexport specifier name → named specifier
  stars : ∀ star ∈ s.stars, named star.specifier

variable {named : String → Prop} {s : Symbols}

namespace DrawOn

theorem empty : DrawOn named {} where
  imports := fun _ h => absurd h List.not_mem_nil
  exports := fun _ h => absurd h List.not_mem_nil
  stars := fun _ h => absurd h List.not_mem_nil

theorem addDeclarator (h : s.DrawOn named) (item start : Nat) (d : Declarator × Nat) :
    (s.addDeclarator item start d).DrawOn named :=
  ⟨h.imports, h.exports, h.stars⟩

theorem addExport (h : s.DrawOn named) (exported : String) {e : ExportEntry}
    (he : ∀ specifier name, e.binding = .reexport specifier name → named specifier) :
    (s.addExport exported e).DrawOn named where
  imports := h.imports
  exports := h.exports.insert he
  stars := h.stars

theorem addImport (h : s.DrawOn named) {source : String} (hsource : named source)
    (i : ImportSpecifier) : (s.addImport source i).DrawOn named where
  imports := h.imports.insert hsource
  exports := h.exports
  stars := h.stars

theorem addOwnExports (h : s.DrawOn named) (location : SourceLocation) (names : List String) :
    (s.addOwnExports location names).DrawOn named :=
  List.foldlRecOn names _ h fun _ hs name _ => hs.addExport name nofun

theorem addDeclaration (h : s.DrawOn named) (item start : Nat) (d : Declaration) :
    (s.addDeclaration item start d).1.DrawOn named := by
  cases d with
  | bindings ds => exact List.foldlRecOn _ _ h fun _ hs d _ => hs.addDeclarator item start d
  | _ => exact ⟨h.imports, h.exports, h.stars⟩

/-- A statement keeps no specifier but its own. -/
theorem addStatement (h : s.DrawOn named) (locate : Nat → SourceLocation) {st : Statement}
    (hst : ∀ specifier, st.item.source? = some specifier → named specifier) (index : Nat) :
    (s.addStatement locate (st, index)).DrawOn named := by
  obtain ⟨span, item⟩ := st
  cases item with
  | imports specifiers source =>
    exact List.foldlRecOn specifiers _ h fun _ hs i _ => hs.addImport (hst source rfl) i
  | declaration d => exact h.addDeclaration index span.lo d
  | exportDeclaration d => exact (h.addDeclaration index span.lo d).addOwnExports _ _
  | exportDefaultInterface d =>
    have htype : (s.addType d.name ⟨index, span.lo, .interface d⟩).DrawOn named :=
      ⟨h.imports, h.exports, h.stars⟩
    exact htype.addExport _ nofun
  | exportDefaultExpr value =>
    cases value with
    | name text => exact h.addExport _ nofun
    | _ => exact h
  | exportNamed specifiers source =>
    refine List.foldlRecOn specifiers _ h fun _ hs e _ => hs.addExport e.exported ?_
    intro specifier name hbinding
    cases source with
    | none => cases hbinding
    | some source =>
      cases hbinding
      exact hst specifier rfl
  | exportAll source =>
    refine ⟨h.imports, h.exports, fun star hstar => ?_⟩
    rcases List.mem_append.mp hstar with hstar | hstar
    · exact h.stars star hstar
    · rw [List.mem_singleton.mp hstar]
      exact hst source rfl
  | other => exact h

theorem build (locate : Nat → SourceLocation) {statements : List Statement}
    (h : ∀ st ∈ statements, ∀ specifier, st.item.source? = some specifier → named specifier) :
    (Symbols.build locate statements).DrawOn named := by
  refine List.foldlRecOn _ _ empty fun s hs indexed hindexed => ?_
  exact hs.addStatement locate (h _ (List.fst_mem_of_mem_zipIdx hindexed)) indexed.2

end DrawOn

end Symbols

namespace SourceModule

/-- What a module keeps, it names. -/
theorem names_of_mentions {path : Path} {source : String} {scanned : Bool} {m : SourceModule}
    (h : parse path source scanned = .ok m) {specifier : String} (hm : m.Mentions specifier) :
    m.Names specifier := by
  have hdraw : m.symbols.DrawOn m.Names := by
    unfold parse at h
    split at h
    · cases h
    · cases h
      exact .build _ fun st hst _ hsource => ⟨st, hst, hsource⟩
  rcases hm with ⟨i, hi, rfl⟩ | ⟨e, he, name, hbinding⟩ | ⟨star, hstar, rfl⟩
  · obtain ⟨entry, hentry, rfl⟩ := List.mem_map.mp hi
    exact hdraw.imports entry hentry
  · obtain ⟨entry, hentry, rfl⟩ := List.mem_map.mp he
    exact hdraw.exports entry hentry specifier name hbinding
  · exact hdraw.stars star hstar

end SourceModule

end SchemaCompiler

import Mathlib
import SchemaCompiler.Exported.Collect
import SchemaCompiler.Proofs.Diagnostics
import SchemaCompiler.Proofs.Lists
import SchemaCompiler.Proofs.Path.Order
import SchemaCompiler.Proofs.Sample
import SchemaCompiler.Proofs.Tables

/-!
# Every exported type is extracted once

A declaration is known by its symbol: the path of its module and its name. Scanned modules offer what
they export along several routes, and a route that leads into another scanned module is left to that
module. So every export that resolves to a declaration is offered by some scanned module, and since
only the first offer of a symbol counts, each declaration of a schema type is extracted exactly once.
-/

namespace SchemaCompiler

open TypeScript

/-! ## Symbols -/

theorem SymbolRef.beq_iff {a b : SymbolRef} :
    (a == b) = true ↔ a.module.components = b.module.components ∧ a.name = b.name := by
  show (a.module == b.module && a.name == b.name) = true ↔ _
  rw [Bool.and_eq_true, Path.beq_iff, beq_iff_eq]

instance : EquivBEq SymbolRef :=
  equivBEq_of_key (fun s => (s.module.components, s.name)) fun a b => by simp [SymbolRef.beq_iff]

namespace Program

variable {p : Program}

theorem module?_congr {path path' : Path} (h : path.components = path'.components) :
    p.module? path = p.module? path' := by
  unfold module?
  congr 1
  funext m
  rw [Bool.eq_iff_iff, Path.beq_iff, Path.beq_iff, h]

theorem components_of_module? {path : Path} {m : SourceModule} (h : p.module? path = some m) :
    m.path.components = path.components := by
  have hfound := List.find?_some (show p.modules.find? (fun m => m.path == path) = some m from h)
  exact Path.beq_iff.mp hfound

/-- A module is found under its own path, wherever it was found. -/
theorem module?_self {path : Path} {m : SourceModule} (h : p.module? path = some m) :
    p.module? m.path = some m := by
  rw [module?_congr (components_of_module? h), h]

theorem typeDecl?_congr {ref ref' : SymbolRef} (h : (ref == ref') = true) :
    p.typeDecl? ref = p.typeDecl? ref' := by
  obtain ⟨hpath, hname⟩ := SymbolRef.beq_iff.mp h
  rw [typeDecl?, typeDecl?, module?_congr hpath, hname]

theorem typeDecl?_cases {ref : SymbolRef} {d : TypeDecl} (h : p.typeDecl? ref = some d) :
    p.module? ref.module = some d.module ∧ d.name = ref.name ∧
      ∃ site, d.module.symbols.types.get? ref.name = some site := by
  simp only [typeDecl?, Option.bind_eq_bind, Option.bind_eq_some_iff] at h
  obtain ⟨m, hm, site, hsite, heq⟩ := h
  cases heq
  exact ⟨hm, rfl, site, hsite⟩

/-- A declaration has the symbol that it was found under. -/
theorem symbol_of_typeDecl? {ref : SymbolRef} {d : TypeDecl} (h : p.typeDecl? ref = some d) :
    (d.symbol == ref) = true := by
  obtain ⟨hmodule, hname, -⟩ := typeDecl?_cases h
  exact SymbolRef.beq_iff.mpr ⟨components_of_module? hmodule, hname⟩

theorem typeDecl?_symbol {ref : SymbolRef} {d : TypeDecl} (h : p.typeDecl? ref = some d) :
    p.typeDecl? d.symbol = some d := by
  rw [typeDecl?_congr (symbol_of_typeDecl? h), h]

end Program

/-! ## First offers -/

namespace Offer

def decl? : Offer → Option TypeDecl
  | .type decl _ => some decl
  | .unresolved _ => none

/-- The offers are not of one declaration. -/
def Apart (a b : Offer) : Prop :=
  ∀ d ∈ a.decl?, ∀ e ∈ b.decl?, ¬ (d.symbol == e.symbol) = true

theorem unseen_of_mem_firstOf {seen : List SymbolRef} {offers : List Offer} {o : Offer}
    (h : o ∈ firstOf seen offers) : o ∈ offers ∧ ∀ d ∈ o.decl?, seen.contains d.symbol = false := by
  induction offers generalizing seen with
  | nil => cases h
  | cons first rest ih =>
    cases first with
    | unresolved problem =>
      rw [firstOf] at h
      rcases List.mem_cons.mp h with rfl | h
      · exact ⟨List.mem_cons_self, fun d hd => by cases hd⟩
      · exact ⟨List.mem_cons_of_mem _ (ih h).1, (ih h).2⟩
    | type decl kind =>
      rw [firstOf] at h
      split at h
      · exact ⟨List.mem_cons_of_mem _ (ih h).1, (ih h).2⟩
      · rename_i hnew
        rcases List.mem_cons.mp h with rfl | h
        · refine ⟨List.mem_cons_self, fun d hd => ?_⟩
          cases hd
          exact Bool.eq_false_iff.mpr hnew
        · obtain ⟨hmem, hseen⟩ := ih h
          refine ⟨List.mem_cons_of_mem _ hmem, fun d hd => ?_⟩
          have hno := hseen d hd
          rw [List.contains_cons, Bool.or_eq_false_iff] at hno
          exact hno.2

/-- No declaration is offered twice among the first offers. -/
theorem pairwise_firstOf (seen : List SymbolRef) (offers : List Offer) :
    (firstOf seen offers).Pairwise Apart := by
  induction offers generalizing seen with
  | nil => exact .nil
  | cons first rest ih =>
    cases first with
    | unresolved problem =>
      exact List.pairwise_cons.mpr ⟨fun o _ d hd => (by cases hd), ih seen⟩
    | type decl kind =>
      rw [firstOf]
      split
      · exact ih seen
      · refine List.pairwise_cons.mpr ⟨fun o ho d hd e he hsame => ?_, ih _⟩
        cases hd
        have hno := (unseen_of_mem_firstOf ho).2 e he
        rw [List.contains_cons, BEq.symm hsame, Bool.true_or] at hno
        cases hno

/-- A declaration that is offered is among the first offers. -/
theorem exists_mem_firstOf {seen : List SymbolRef} {offers : List Offer} {d : TypeDecl}
    {kind : ExportKind} (h : .type d kind ∈ offers) (hnew : seen.contains d.symbol = false) :
    ∃ e kind', .type e kind' ∈ firstOf seen offers ∧ (e.symbol == d.symbol) = true := by
  induction offers generalizing seen with
  | nil => cases h
  | cons first rest ih =>
    cases first with
    | unresolved problem =>
      have hrest : Offer.type d kind ∈ rest := by simpa using h
      obtain ⟨e, kind', hmem, hsame⟩ := ih hrest hnew
      exact ⟨e, kind', List.mem_cons_of_mem _ hmem, hsame⟩
    | type decl kind' =>
      rw [firstOf]
      by_cases hsame : (decl.symbol == d.symbol) = true
      · have hfirst : ¬ seen.contains decl.symbol = true := by
          rw [List.contains_congr hsame, hnew]
          exact Bool.false_ne_true
        rw [if_neg hfirst]
        exact ⟨decl, kind', List.mem_cons_self, hsame⟩
      · have hrest : Offer.type d kind ∈ rest := by
          rcases List.mem_cons.mp h with heq | hrest
          · cases heq
            exact absurd BEq.rfl hsame
          · exact hrest
        split
        · exact ih hrest hnew
        · have hstill : (decl.symbol :: seen).contains d.symbol = false := by
            rw [List.contains_cons, hnew, Bool.or_false]
            exact Bool.eq_false_iff.mpr fun hback => hsame (BEq.symm hback)
          obtain ⟨e, kind'', hmem, he⟩ := ih hrest hstill
          exact ⟨e, kind'', List.mem_cons_of_mem _ hmem, he⟩

/-! ## What is offered -/

variable {p : Program} {m : SourceModule} {ref : SymbolRef} {d : TypeDecl} {kind : ExportKind}

theorem typeDecl?_of_reexported {kind' : ExportKind}
    (h : .type d kind ∈ reexported p ref kind') : p.typeDecl? ref = some d := by
  unfold reexported at h
  split at h
  · cases h
  · have hboth : p.typeDecl? ref = some d ∧ kind' = kind := by simpa using h
    exact hboth.1

/-- Every offered declaration is that of its symbol. -/
theorem typeDecl?_of_ofEntry {entry : ExportEntry} (h : .type d kind ∈ ofEntry p m entry) :
    ∃ ref, p.typeDecl? ref = some d := by
  unfold ofEntry at h
  simp only at h
  split at h
  · rename_i name _
    split at h
    · rename_i decl hdecl
      rw [List.mem_singleton] at h
      cases h
      exact ⟨_, hdecl⟩
    · split at h
      · split at h
        · exact ⟨_, typeDecl?_of_reexported h⟩
        · cases h
      · cases h
  · split at h
    · cases h
    · split at h
      · simp [unresolvedModule] at h
      · split at h
        · exact ⟨_, typeDecl?_of_reexported h⟩
        · cases h

theorem typeDecl?_of_ofStar {star : StarExport} (h : .type d kind ∈ ofStar p m star) :
    ∃ ref, p.typeDecl? ref = some d := by
  unfold ofStar at h
  split at h
  · cases h
  · split at h
    · simp [unresolvedModule] at h
    · split at h
      · cases h
      · obtain ⟨entry, -, hentry⟩ := List.mem_flatMap.mp h
        unfold ofStarEntry at hentry
        split at hentry
        · cases hentry
        · split at hentry
          · exact ⟨_, typeDecl?_of_reexported hentry⟩
          · cases hentry

theorem typeDecl?_of_ofProgram (h : .type d kind ∈ ofProgram p) :
    p.typeDecl? d.symbol = some d := by
  obtain ⟨m, -, hm⟩ := List.mem_flatMap.mp h
  have hfound : ∃ ref, p.typeDecl? ref = some d := by
    rcases List.mem_append.mp hm with hm | hm
    · obtain ⟨entry, -, hentry⟩ := List.mem_flatMap.mp hm
      exact typeDecl?_of_ofEntry hentry
    · obtain ⟨star, -, hstar⟩ := List.mem_flatMap.mp hm
      exact typeDecl?_of_ofStar hstar
  obtain ⟨ref, href⟩ := hfound
  exact Program.typeDecl?_symbol href

end Offer

/-! ## Exports that resolve -/

namespace Program

variable {p : Program} {m target : SourceModule} {path : Path} {name : String} {ref : SymbolRef}

theorem module?_of_resolveModule {specifier : String}
    (h : p.resolveModule path specifier = some target) : p.module? target.path = some target := by
  rw [resolveModule] at h
  by_cases hrelative : isRelative specifier = true
  · rw [if_pos hrelative, Option.bind_eq_some_iff] at h
    obtain ⟨_, -, hfound⟩ := h
    exact module?_self hfound
  · rw [if_neg hrelative] at h
    cases h

theorem isRelative_of_resolveModule {specifier : String}
    (h : p.resolveModule path specifier = some target) : isRelative specifier = true := by
  apply Classical.byContradiction
  intro hrelative
  rw [resolveModule, if_neg hrelative] at h
  cases h

/-- A module exports a name of its own, perhaps under another one. -/
def OwnExport (m : SourceModule) (exported : String) (ref : SymbolRef) : Prop :=
  ∃ entry, m.symbols.exports.get? exported = some entry ∧
    ∃ name, entry.binding = .own name ∧ declares m name = true ∧ ref = ⟨m.path, name⟩

/-- Without hops that are left, only names of a module itself are resolved. -/
theorem ownExport_of_resolveExport (h : p.resolveExportWithin 0 m name = some (.symbol ref)) :
    OwnExport m name ref := by
  rw [resolveExportWithin, resolveExportWith] at h
  cases hentry : m.symbols.exports.get? name with
  | none => simp [hentry] at h
  | some entry =>
    cases hbinding : entry.binding with
    | reexport specifier imported => simp [hentry, hbinding, resolveEntry] at h
    | own own =>
      simp only [hentry, hbinding, resolveEntry, Option.bind_none, ite_self] at h
      split at h
      · rename_i hdeclares
        cases h
        exact ⟨entry, hentry, own, hbinding, hdeclares, rfl⟩
      · cases h

/-- One more hop resolves such a name in the same way. -/
theorem resolveExportWithin_succ {hops : Nat}
    (h : p.resolveExportWithin 0 m name = some (.symbol ref)) :
    p.resolveExportWithin (hops + 1) m name = some (.symbol ref) := by
  obtain ⟨entry, hentry, own, hown, hdeclares, rfl⟩ := ownExport_of_resolveExport h
  rw [resolveExportWithin, resolveExportWith]
  simp only [hentry, hown, resolveEntry, hdeclares, if_true]

/-- The export that an import names, unless it takes the whole module. -/
def exportName? : Imported → Option String
  | .named name => some name
  | .default => some "default"
  | .wholeModule => none

/-- A module sees a symbol that it declares itself, or one that it imports from another module. -/
theorem resolveNameWith_iff {follow : Hop} :
    p.resolveNameWith follow path name = some (.symbol ref) ↔
      ∃ m, p.module? path = some m ∧
        (declares m name = true ∧ ref = ⟨path, name⟩ ∨
          declares m name = false ∧ ∃ i, m.symbols.imports.get? name = some i ∧
            ∃ target exported, p.resolveModule path i.specifier = some target ∧
              exportName? i.imported = some exported ∧
                follow target exported = some (.symbol ref)) := by
  simp only [resolveNameWith, Option.bind_eq_bind, Option.bind_eq_some_iff]
  refine exists_congr fun m => and_congr_right fun _ => ?_
  cases declares m name with
  | true => simp [eq_comm]
  | false =>
    simp only [Bool.false_eq_true, if_false, false_and, false_or, true_and, Option.bind_eq_some_iff]
    refine exists_congr fun i => and_congr_right fun _ => ?_
    cases hrelative : isRelative i.specifier with
    | false => simp [resolveModule, hrelative]
    | true =>
      simp only [Bool.not_true, Bool.false_eq_true, if_false, Option.bind_eq_some_iff]
      refine exists_congr fun target => ?_
      cases i.imported <;> simp [exportName?]

theorem resolveNameWith_mono {follow follow' : Hop}
    (hfollow : ∀ target exported, follow target exported = some (.symbol ref) →
      follow' target exported = some (.symbol ref))
    (h : p.resolveNameWith follow path name = some (.symbol ref)) :
    p.resolveNameWith follow' path name = some (.symbol ref) := by
  obtain ⟨m, hm, hown | ⟨hno, i, hi, target, exported, htarget, hexported, hfound⟩⟩ :=
    resolveNameWith_iff.mp h
  · exact resolveNameWith_iff.mpr ⟨m, hm, Or.inl hown⟩
  · refine resolveNameWith_iff.mpr ⟨m, hm, Or.inr ⟨hno, i, hi, target, exported, htarget, ?_⟩⟩
    exact ⟨hexported, hfollow target exported hfound⟩

end Program

/-! ## Exports that are offered -/

namespace Offer

variable {p : Program} {m target : SourceModule} {name : String} {ref : SymbolRef} {d : TypeDecl}
  {kind : ExportKind}

open Program

/-- The declaration is offered by some scanned module. -/
def Offered (p : Program) (d : TypeDecl) : Prop := ∃ kind, .type d kind ∈ ofProgram p

theorem mem_exports {exported : String} {entry : ExportEntry}
    (h : m.symbols.exports.get? exported = some entry) :
    (exported, entry) ∈ m.symbols.exports.entries := by
  obtain ⟨before, after, heq, -⟩ := List.lookup_eq_some_iff.mp h
  rw [heq]
  simp

theorem offered_of_entry (hm : m ∈ p.scannedModules) {exported : String} {entry : ExportEntry}
    (hentry : m.symbols.exports.get? exported = some entry)
    (h : ofEntry p m entry = [.type d kind]) : Offered p d := by
  refine ⟨kind, List.mem_flatMap.mpr ⟨m, hm, List.mem_append_left _ ?_⟩⟩
  refine List.mem_flatMap.mpr ⟨entry, List.mem_map_of_mem (mem_exports hentry), ?_⟩
  rw [h]
  exact List.mem_singleton_self _

theorem ofEntry_own {entry : ExportEntry} {own : String} (hown : entry.binding = .own own)
    (hd : p.typeDecl? ⟨m.path, own⟩ = some d) :
    ofEntry p m entry = [.type d (if entry.isDefault then .default else .named)] := by
  simp only [ofEntry, hown, hd]

/-- What a module exports of its own is offered by it when it is scanned, and by those that pass it
on when it is not. -/
theorem offered_of_ownExport (hfound : p.module? target.path = some target)
    (h : OwnExport target name ref) (hd : p.typeDecl? ref = some d) :
    Offered p d ∨ target.scanned = false ∧ ∀ kind, reexported p ref kind = [.type d kind] := by
  obtain ⟨entry, hentry, own, hown, -, rfl⟩ := h
  cases hscanned : target.scanned with
  | true =>
    have hmem : target ∈ p.scannedModules :=
      List.mem_filter.mpr ⟨List.mem_of_find?_eq_some hfound, hscanned⟩
    exact Or.inl (offered_of_entry hmem hentry (ofEntry_own hown hd))
  | false =>
    refine Or.inr ⟨rfl, fun kind => ?_⟩
    simp [reexported, isScanned, hfound, hscanned, hd]

/-! ## Routes -/

/-- A name that the module imports is passed on. -/
theorem offered_of_import (hm : m ∈ p.scannedModules) {entry : ExportEntry} {own : String}
    (hentry : m.symbols.exports.get? name = some entry) (hown : entry.binding = .own own)
    (himport : m.symbols.imports.contains own = true)
    (h : p.resolveNameWith (p.resolveExportWithin 0) m.path own = some (.symbol ref))
    (hd : p.typeDecl? ref = some d) : Offered p d := by
  obtain ⟨m', hm', ⟨-, rfl⟩ | ⟨hno, i, -, target, exported, htarget, -, hfollow⟩⟩ :=
    resolveNameWith_iff.mp h
  · exact offered_of_entry hm hentry (ofEntry_own hown hd)
  · rcases offered_of_ownExport (module?_of_resolveModule htarget)
      (ownExport_of_resolveExport hfollow) hd with hoffered | ⟨-, hpassed⟩
    · exact hoffered
    · have hnone : p.typeDecl? ⟨m.path, own⟩ = none := by
        rw [Option.eq_none_iff_forall_ne_some]
        intro decl hdecl
        obtain ⟨hmodule, -, site, hsite⟩ := typeDecl?_cases hdecl
        cases hm'.symm.trans hmodule
        simp [declares, Table.contains, hsite] at hno
      have hname : p.resolveName m.path own = some (.symbol ref) :=
        resolveNameWith_mono (fun _ _ => resolveExportWithin_succ) h
      have hoffers : ofEntry p m entry =
          [.type d (if entry.isDefault then .default else .named)] := by
        simp only [ofEntry, hown, hnone, himport, if_true, hname, hpassed]
      exact offered_of_entry hm hentry hoffers

/-- A name of another module is passed on. -/
theorem offered_of_reexport (hm : m ∈ p.scannedModules) {entry : ExportEntry}
    {specifier imported : String} (hentry : m.symbols.exports.get? name = some entry)
    (hbinding : entry.binding = .reexport specifier imported)
    (htarget : p.resolveModule m.path specifier = some target)
    (h : p.resolveExportWithin 0 target imported = some (.symbol ref))
    (hd : p.typeDecl? ref = some d) : Offered p d := by
  rcases offered_of_ownExport (module?_of_resolveModule htarget)
    (ownExport_of_resolveExport h) hd with hoffered | ⟨-, hpassed⟩
  · exact hoffered
  · have hname : p.resolveExport target imported 0 = some (.symbol ref) :=
      resolveExportWithin_succ h
    have hrelative : isRelative specifier = true := isRelative_of_resolveModule htarget
    have hoffers : ofEntry p m entry =
        [.type d (if entry.isDefault then .default else .named)] := by
      simp only [ofEntry, hbinding, hrelative, htarget, hname, hpassed, Bool.not_true,
        Bool.false_eq_true, if_false]
    exact offered_of_entry hm hentry hoffers

/-- All names of another module are passed on. -/
theorem offered_of_star (hm : m ∈ p.scannedModules) {star : StarExport}
    (hstar : star ∈ m.symbols.stars) (hname : name ≠ "default")
    (htarget : p.resolveModule m.path star.specifier = some target)
    (h : p.resolveExportWithin 0 target name = some (.symbol ref))
    (hd : p.typeDecl? ref = some d) : Offered p d := by
  have hown := ownExport_of_resolveExport h
  rcases offered_of_ownExport (module?_of_resolveModule htarget) hown hd with
    hoffered | ⟨hscanned, hpassed⟩
  · exact hoffered
  · obtain ⟨entry, hentry, own, hbinding, -, rfl⟩ := hown
    have hrelative := isRelative_of_resolveModule htarget
    refine ⟨.named, List.mem_flatMap.mpr ⟨m, hm, List.mem_append_right _ ?_⟩⟩
    refine List.mem_flatMap.mpr ⟨star, hstar, ?_⟩
    simp only [ofStar, hrelative, htarget, hscanned, Bool.not_true, Bool.false_eq_true, if_false]
    refine List.mem_flatMap.mpr ⟨(name, entry), mem_exports hentry, ?_⟩
    simp only [ofStarEntry, if_neg hname, hbinding, hpassed, List.mem_singleton]

/-- Every declaration that a scanned module exports is offered. -/
theorem offered_of_resolveExport (hm : m ∈ p.scannedModules)
    (h : p.resolveExport m name 0 = some (.symbol ref)) (hd : p.typeDecl? ref = some d) :
    Offered p d := by
  rw [resolveExport, show maxReexportHops - 0 = 0 + 1 from rfl, resolveExportWithin,
    resolveExportWith] at h
  cases hentry : m.symbols.exports.get? name with
  | some entry =>
    cases hbinding : entry.binding with
    | own own =>
      simp only [hentry, hbinding, resolveEntry, Option.bind_some] at h
      split at h
      · cases h
        exact offered_of_entry hm hentry (ofEntry_own hbinding hd)
      · split at h
        · rename_i himport
          exact offered_of_import hm hentry hbinding himport h hd
        · cases h
    | reexport specifier imported =>
      simp only [hentry, hbinding, resolveEntry, Option.bind_some] at h
      split at h
      · cases h
      · obtain ⟨target, htarget, hfollow⟩ := Option.bind_eq_some_iff.mp h
        exact offered_of_reexport hm hentry hbinding htarget hfollow hd
  | none =>
    simp only [hentry, Option.bind_some] at h
    split at h
    · cases h
    · rename_i hname
      obtain ⟨star, hstar, hfound⟩ := List.exists_of_findSome?_eq_some h
      obtain ⟨target, htarget, hfollow⟩ := Option.bind_eq_some_iff.mp hfound
      exact offered_of_star hm hstar (by simpa using hname) htarget hfollow hd

end Offer

/-! ## Extracted types -/

/-- The symbol of the declaration that a type stands for. -/
def ExportedType.symbol (t : ExportedType) : SymbolRef := ⟨t.sourceFile, t.name⟩

namespace ExportedType

variable {c : Classifier} {d : TypeDecl} {kind : ExportKind}

theorem symbol_fillUnion (body : TypeExpr) (info : ExportedType) :
    (fillUnion c d body info).value.symbol = info.symbol := by
  unfold fillUnion
  simp only [Reported.value_bind]
  split <;> rfl

theorem symbol_fill {info t : ExportedType} (h : (fill c d info).value = some t) :
    t.symbol = info.symbol := by
  unfold fill at h
  split at h
  · cases h
    rfl
  · obtain ⟨members, -, rfl⟩ := Option.map_eq_some_iff.mp h
    rfl
  · split at h
    · cases h
      rfl
    · cases h
      exact symbol_fillUnion _ _
    · cases h
      rfl

/-- A type stands where its declaration does. -/
theorem symbol_ofDecl {t : ExportedType} (h : (ofDecl c d kind).value = some t) :
    t.symbol = d.symbol := by
  unfold ofDecl at h
  split at h
  · cases h
  · exact symbol_fill h

/-- The declaration is one of a schema type: an interface, an enum of strings that is not constant,
or an alias that is a type of its own. -/
def Declares (c : Classifier) (d : TypeDecl) : Prop :=
  match d.node with
  | .interface _ => True
  | .enum e => e.isConst = false ∧
      ∀ member ∈ e.members, ∃ value, EnumLiteral.valueOf member.init = .text value
  | .alias _ => c.aliasKind d 0 ∈ [AliasKind.object, .graphqlInterface, .enum, .union]

theorem fault?_eq_none {e : Enum} (hconst : e.isConst = false)
    (hmembers : ∀ member ∈ e.members, ∃ value, EnumLiteral.valueOf member.init = .text value) :
    EnumLiteral.fault? e = none := by
  have hno : ∀ value : EnumLiteral.Value, (∀ text, value ≠ .text text) →
      (e.members.map (EnumLiteral.valueOf ·.init)).contains value = false := by
    intro value hvalue
    rw [Bool.eq_false_iff, ne_eq, List.contains_iff_mem, List.mem_map]
    rintro ⟨member, hmember, rfl⟩
    obtain ⟨text, htext⟩ := hmembers member hmember
    exact hvalue text htext
  simp only [EnumLiteral.fault?, hconst, hno .computed (by simp), hno .numeric (by simp),
    Bool.false_eq_true, if_false, Bool.not_false, if_true]

/-- Declarations of schema types are extracted. -/
theorem exists_ofDecl (h : Declares c d) (kind : ExportKind) :
    ∃ t, (ofDecl c d kind).value = some t := by
  unfold Declares at h
  rcases hnode : d.node with i | a | e
  · simp [ofDecl, kindOf?, fill, hnode]
  · simp only [hnode, List.mem_cons, List.not_mem_nil, or_false] at h
    rcases h with h | h | h | h <;> simp [ofDecl, kindOf?, fill, hnode, h]
  · simp only [hnode] at h
    simp [ofDecl, kindOf?, fill, hnode, EnumLiteral.ofEnum, fault?_eq_none h.1 h.2]

theorem symbol_ofOffer {o : Offer} {t : ExportedType} (h : (ofOffer c o).value = some t) :
    ∃ d ∈ o.decl?, t.symbol = d.symbol := by
  cases o with
  | unresolved problem => cases h
  | type decl kind => exact ⟨decl, rfl, symbol_ofDecl h⟩

end ExportedType

theorem value_collectTypes (c : Classifier) :
    (collectTypes c).value = (Offer.firstOf [] (Offer.ofProgram c.program)).filterMap fun o =>
      (ExportedType.ofOffer c o).value := by
  simp only [collectTypes, Reported.eachSome, Reported.value_bind, Reported.value_pure,
    Reported.value_each, List.filterMap_map]
  rfl

/-- No two extracted types stand for one declaration. -/
theorem pairwise_collectTypes (c : Classifier) :
    (collectTypes c).value.Pairwise fun a b => ¬ (a.symbol == b.symbol) = true := by
  rw [value_collectTypes]
  refine (Offer.pairwise_firstOf [] _).filterMap _ fun o o' hapart t ht t' ht' => ?_
  obtain ⟨d, hd, hsymbol⟩ := ExportedType.symbol_ofOffer ht
  obtain ⟨e, he, hsymbol'⟩ := ExportedType.symbol_ofOffer ht'
  rw [hsymbol, hsymbol']
  exact hapart d hd e he

/-- A declaration of a schema type is extracted for the first of its offers. -/
theorem exists_mem_collectTypes {c : Classifier} {d : TypeDecl} (hd : Offer.Offered c.program d)
    (h : ExportedType.Declares c d) :
    ∃ kind, ∃ t ∈ (collectTypes c).value, (ExportedType.ofDecl c d kind).value = some t := by
  obtain ⟨kind, hkind⟩ := hd
  obtain ⟨e, kind', hfirst, hsame⟩ :=
    Offer.exists_mem_firstOf hkind (show [].contains d.symbol = false from rfl)
  -- an offer of the same symbol is one of the same declaration
  have heq : e = d := by
    have he := Offer.typeDecl?_of_ofProgram (Offer.unseen_of_mem_firstOf hfirst).1
    rw [Program.typeDecl?_congr hsame, Offer.typeDecl?_of_ofProgram hkind] at he
    exact (Option.some.inj he).symm
  subst heq
  obtain ⟨t, ht⟩ := ExportedType.exists_ofDecl h kind'
  refine ⟨kind', t, ?_, ht⟩
  rw [value_collectTypes]
  exact List.mem_filterMap.mpr ⟨_, hfirst, ht⟩

/-- Every type is extracted once, and so is every declaration of a schema type that a scanned module
exports. -/
theorem collectTypes_once (c : Classifier) :
    (collectTypes c).value.Pairwise (fun a b => ¬ (a.symbol == b.symbol) = true) ∧
      ∀ m ∈ c.program.scannedModules, ∀ name ref d,
        c.program.resolveExport m name 0 = some (.symbol ref) → c.program.typeDecl? ref = some d →
          ExportedType.Declares c d →
            ∃ kind t, (ExportedType.ofDecl c d kind).value = some t ∧
              (collectTypes c).value.filter (·.symbol == d.symbol) = [t] := by
  refine ⟨pairwise_collectTypes c, fun m hm name ref d hresolve hdecl hdeclares => ?_⟩
  obtain ⟨kind, t, hmem, ht⟩ :=
    exists_mem_collectTypes (Offer.offered_of_resolveExport hm hresolve hdecl) hdeclares
  have hsymbol : (t.symbol == d.symbol) = true := by
    rw [ExportedType.symbol_ofDecl ht]
    exact BEq.rfl
  exact ⟨kind, t, ht, filter_key_eq_singleton (pairwise_collectTypes c) hmem hsymbol⟩

/-! ## A type that is passed on twice -/

namespace Sample

/-- A directory that is no part of the scan. -/
def people : SourceModule :=
  { sourceModule [interface "User" [property "name" (keyword .string)]] [] with
    path := ⟨"src/index.ts"⟩, scanned := false }

/-- A module that passes on a type of the directory under another name, and then everything. -/
def api : SourceModule :=
  { sourceModule [] [] with
    path := ⟨"src/api.ts"⟩
    symbols :=
      { exports := ⟨[("Person", ⟨.reexport "." "User", false, place⟩)]⟩
        stars := [⟨".", place⟩] } }

def peopleProgram : Program := ⟨[api, people]⟩

def personDecl : TypeDecl :=
  ⟨people, "User", .interface ⟨span, "User", false, [], [property "name" (keyword .string)]⟩, 0⟩

theorem candidates_people :
    ((api.path.directory.join ".").normalize).candidates =
      [⟨"src"⟩, ⟨"src.ts"⟩, ⟨"src.tsx"⟩, ⟨"src.d.ts"⟩, ⟨"src/index.ts"⟩, ⟨"src/index.tsx"⟩] := by
  have hbase : (api.path.directory.join ".").normalize = ⟨"src"⟩ := by cbv
  have hplain : Path.withoutJs? "src" = none := by cbv
  rw [hbase]
  simp [Path.candidates, hplain, Path.join]

theorem resolveModule_people : peopleProgram.resolveModule api.path "." = some people := by
  have hrelative : isRelative "." = true := by simp [isRelative]
  rw [Program.resolveModule, if_pos hrelative, resolveSpecifier, candidates_people]
  cbv

theorem resolveExport_person :
    peopleProgram.resolveExport api "Person" 0 = some (.symbol ⟨⟨"src/index.ts"⟩, "User"⟩) := by
  have hlisted : api.symbols.exports.get? "Person" =
      some ⟨.reexport "." "User", false, place⟩ := rfl
  have hrelative : isRelative "." = true := by simp [isRelative]
  rw [Program.resolveExport, show maxReexportHops - 0 = 0 + 1 from rfl,
    Program.resolveExportWithin, Program.resolveExportWith, hlisted]
  simp only [Program.resolveEntry, Option.bind_some, hrelative, Bool.not_true,
    Bool.false_eq_true, if_false, resolveModule_people]
  cbv

theorem typeDecl?_person :
    peopleProgram.typeDecl? ⟨⟨"src/index.ts"⟩, "User"⟩ = some personDecl := by
  cbv

end Sample

open Sample

/-- The type that is passed on twice is extracted once. -/
theorem collectTypes_once_person :
    peopleProgram.resolveExport api "Person" 0 = some (.symbol ⟨⟨"src/index.ts"⟩, "User"⟩) ∧
      peopleProgram.typeDecl? ⟨⟨"src/index.ts"⟩, "User"⟩ = some personDecl ∧
        ∃ kind t, (ExportedType.ofDecl ⟨peopleProgram, ⟨[], []⟩⟩ personDecl kind).value = some t ∧
          (collectTypes ⟨peopleProgram, ⟨[], []⟩⟩).value.filter (·.symbol == personDecl.symbol) =
            [t] := by
  refine ⟨resolveExport_person, typeDecl?_person, ?_⟩
  have hm : api ∈ peopleProgram.scannedModules := List.mem_cons_self
  exact (collectTypes_once ⟨peopleProgram, ⟨[], []⟩⟩).2 api hm "Person" _ personDecl
    resolveExport_person typeDecl?_person trivial

end SchemaCompiler

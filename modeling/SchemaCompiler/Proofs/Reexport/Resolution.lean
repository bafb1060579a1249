import SchemaCompiler.Proofs.Exports
import SchemaCompiler.Proofs.Reexport.Symbols

/-!
# Names in programs with a rewritten re-export

Two programs of which one has a re-export rewritten have the same modules at the same paths, and
these resolve the same names to the same things. The rewritten export is one hop to the other module
on both sides: a re-export takes it itself, an import and an export take it when the exported name is
looked up inside the module.
-/

namespace SchemaCompiler

open TypeScript Program

namespace Rewriting

variable (w : Rewriting)

/-- Modules that correspond, of which one may be rewritten. -/
structure Counterpart (a b : SourceModule) : Prop where
  path : a.path = b.path
  scanned : a.scanned = b.scanned
  symbols : (w.compare a b).SameSymbols w (some w.imported) a.symbols b.symbols

def SameProgram (p p' : Program) : Prop := List.Forall₂ w.Counterpart p.modules p'.modules

/-- The same declaration in modules that correspond. -/
structure SameDecl (d d' : TypeDecl) : Prop where
  module : w.Counterpart d.module d'.module
  name : d.name = d'.name
  doc : (w.compare d.module d'.module).SameDoc d.itemStart d'.itemStart
  node : (w.compare d.module d'.module).SameNode d.node d'.node

/-- Two hops lead to the same from all loaded modules that correspond. -/
def SameHop (p : Program) (follow follow' : Hop) : Prop :=
  ∀ a b, w.Counterpart a b → (p.module? a.path).isSome = true →
    ∀ name, follow a name = follow' b name

variable {w} {a b : SourceModule} {p p' : Program}

theorem known_congr {path path' : Path} (h : path.components = path'.components) (name : String) :
    w.Known path name ↔ w.Known path' name := by
  rw [Known, Known, h]

theorem SameDecl.symbol {d d' : TypeDecl} (h : w.SameDecl d d') : d.symbol = d'.symbol := by
  rw [TypeDecl.symbol, h.module.path, h.name]
  rfl

/-! ## What a module declares -/

theorem Counterpart.contains_types (h : w.Counterpart a b) (name : String) :
    a.symbols.types.contains name = b.symbols.types.contains name := by
  have hget := h.symbols.types.get? name
  rw [Table.contains, Table.contains]
  generalize a.symbols.types.get? name = x, b.symbols.types.get? name = y at hget
  cases hget <;> rfl

theorem Counterpart.declares (h : w.Counterpart a b) (name : String) :
    declares a name = declares b name := by
  rw [Program.declares, Program.declares, h.contains_types, h.symbols.values]

theorem Counterpart.known_of_types (h : w.Counterpart a b) {name : String}
    (hname : a.symbols.types.contains name = true) : w.Known a.path name := by
  have hget := h.symbols.types.get? name
  rw [Table.contains] at hname
  generalize a.symbols.types.get? name = x, b.symbols.types.get? name = y at hget hname
  cases hget with
  | some hsite => exact hsite.1
  | none => cases hname

theorem Counterpart.known_of_declares (h : w.Counterpart a b) {name : String}
    (hname : Program.declares a name = true) : w.Known a.path name := by
  rw [Program.declares, Bool.or_eq_true] at hname
  rcases hname with hname | hname
  · exact h.known_of_types hname
  · exact h.symbols.known name hname

/-- The name that the new import binds is declared nowhere. -/
theorem Counterpart.not_declares (h : w.Counterpart a b) {name : String}
    (hname : ¬ w.Known a.path name) : Program.declares b name = false := by
  rw [← h.declares, Bool.eq_false_iff]
  exact fun hdeclares => hname (h.known_of_declares hdeclares)

/-! ## Modules by path -/

theorem SameProgram.module? (h : w.SameProgram p p') (path : Path) :
    Option.Rel w.Counterpart (p.module? path) (p'.module? path) := by
  rw [Program.module?, Program.module?]
  rw [SameProgram] at h
  generalize p.modules = modules, p'.modules = modules' at h
  induction h with
  | nil => exact .none
  | @cons a b _ _ hab _ ih =>
    rw [List.find?_cons, List.find?_cons, ← hab.path]
    cases a.path == path with
    | true => exact .some hab
    | false => exact ih

theorem SameProgram.isSome_module? (h : w.SameProgram p p') (path : Path) :
    (p.module? path).isSome = (p'.module? path).isSome := by
  have hfound := h.module? path
  generalize p.module? path = x, p'.module? path = y at hfound
  cases hfound <;> rfl

theorem SameProgram.resolveModule (h : w.SameProgram p p') (path : Path) (specifier : String) :
    Option.Rel w.Counterpart (p.resolveModule path specifier)
      (p'.resolveModule path specifier) := by
  have hpresent : (fun path => (p.module? path).isSome) = fun path => (p'.module? path).isSome :=
    funext h.isSome_module?
  rw [Program.resolveModule, Program.resolveModule, hpresent]
  split
  · cases resolveSpecifier path specifier fun path => (p'.module? path).isSome with
    | none => exact .none
    | some found => exact h.module? found
  · exact .none

/-! ## Names inside modules -/

/-- The new import is the only one of the name that it binds. -/
theorem Counterpart.get?_binding (h : w.Counterpart a b) (hfile : ¬ w.Known a.path w.binding) :
    b.symbols.imports.get? w.binding = some w.imported :=
  h.symbols.unknown w.binding hfile

theorem Counterpart.get?_imports (h : w.Counterpart a b) {name : String}
    (hname : w.Known a.path name) :
    a.symbols.imports.get? name = b.symbols.imports.get? name :=
  h.symbols.imports name hname

theorem SameProgram.bind_resolveModule (h : w.SameProgram p p') (path : Path) (specifier : String)
    {α : Type} {f g : SourceModule → Option α}
    (hfg : ∀ c d, w.Counterpart c d → (p.module? c.path).isSome = true → f c = g d) :
    (p.resolveModule path specifier).bind f = (p'.resolveModule path specifier).bind g := by
  have htarget := h.resolveModule path specifier
  have hloaded : ∀ c, p.resolveModule path specifier = some c →
      (p.module? c.path).isSome = true := by
    intro c hc
    rw [module?_of_resolveModule hc]
    rfl
  generalize p.resolveModule path specifier = x, p'.resolveModule path specifier = y at *
  cases htarget with
  | none => rfl
  | @some c d hcd => exact hfg c d hcd (hloaded c rfl)

variable {follow follow' : Hop} {path : Path} {name : String}

theorem SameProgram.resolveNameWith (h : w.SameProgram p p') (hfollow : w.SameHop p follow follow')
    (hname : w.Known path name) :
    p.resolveNameWith follow path name = p'.resolveNameWith follow' path name := by
  have hmodule := h.module? path
  have hpath : ∀ c, p.module? path = some c → c.path.components = path.components :=
    fun c => components_of_module?
  unfold Program.resolveNameWith
  generalize p.module? path = x, p'.module? path = y at hmodule hpath
  cases hmodule with
  | none => simp only [Option.bind_eq_bind, Option.bind_none]
  | @some a b hab =>
    have himports := hab.get?_imports ((known_congr (hpath a rfl) name).mpr hname)
    simp only [Option.bind_eq_bind, Option.bind_some, ← hab.declares, ← himports]
    split
    · rfl
    · refine Option.bind_congr fun i _ => ?_
      generalize isRelative i.specifier = relative
      cases relative with
      | false => simp only [Bool.not_false, if_true]
      | true =>
        simp only [Bool.not_true, Bool.false_eq_true, if_false]
        refine h.bind_resolveModule path i.specifier fun c d hcd hloaded => ?_
        cases i.imported with
        | named imported => exact hfollow c d hcd hloaded imported
        | default => exact hfollow c d hcd hloaded "default"
        | wholeModule => rw [hcd.path]

/-- In the rewritten file the imported name leads where the re-export led. -/
theorem SameProgram.resolveNameWith_binding (h : w.SameProgram p p')
    (hloaded : (p.module? path).isSome = true) (hfile : ¬ w.Known path w.binding) :
    p'.resolveNameWith follow' path w.binding =
      if !isRelative w.source then some (.external w.source w.name)
      else (p'.resolveModule path w.source).bind fun target => follow' target w.name := by
  have hmodule := h.module? path
  have hpath : ∀ c, p.module? path = some c → c.path.components = path.components :=
    fun c => components_of_module?
  unfold Program.resolveNameWith
  generalize p.module? path = x, p'.module? path = y at hmodule hpath hloaded
  cases hmodule with
  | none => cases hloaded
  | @some a b hab =>
    have hunknown : ¬ w.Known a.path w.binding := fun hknown =>
      hfile ((known_congr (hpath a rfl) w.binding).mp hknown)
    simp only [Option.bind_eq_bind, Option.bind_some, hab.not_declares hunknown,
      hab.get?_binding hunknown]
    rfl

/-! ## Exports -/

variable {deeper deeper' : Option Hop}

theorem SameProgram.resolveEntry (h : w.SameProgram p p') (hab : w.Counterpart a b)
    (hloaded : (p.module? a.path).isSome = true)
    (hdeeper : Option.Rel (w.SameHop p) deeper deeper') {x y : ExportBinding}
    (hxy : (w.compare a b).SameBinding w x y) :
    p.resolveEntry deeper a x = p'.resolveEntry deeper' b y := by
  cases hxy with
  | @own name hname =>
    have himports := hab.get?_imports hname
    have hname' : w.Known b.path name := hab.path ▸ (show w.Known a.path name from hname)
    simp only [Program.resolveEntry, hab.declares, hab.path, Table.contains]
    rw [himports]
    refine if_congr Iff.rfl rfl (if_congr Iff.rfl ?_ rfl)
    cases hdeeper with
    | none => rw [Option.bind_none, Option.bind_none]
    | some hfollow => exact h.resolveNameWith hfollow hname'
  | reexport source name =>
    cases hdeeper with
    | none => simp only [Program.resolveEntry, Option.bind_none]
    | some hfollow =>
      simp only [Program.resolveEntry, Option.bind_some, hab.path]
      generalize isRelative source = relative
      cases relative with
      | false => simp only [Bool.not_false, if_true]
      | true =>
        simp only [Bool.not_true, Bool.false_eq_true, if_false]
        exact h.bind_resolveModule b.path source fun c d hcd hc => hfollow c d hcd hc name
  | rewritten hfile =>
    have hfile' : ¬ w.Known b.path w.binding := hab.path ▸ hfile
    have hloaded' : (p.module? b.path).isSome = true := hab.path ▸ hloaded
    simp only [Program.resolveEntry, hab.not_declares hfile, Table.contains,
      hab.get?_binding hfile, Bool.false_eq_true, if_false, Option.isSome_some, if_true]
    cases hdeeper with
    | none => simp
    | some hfollow =>
      simp only [Option.bind_some, h.resolveNameWith_binding hloaded' hfile', hab.path]
      refine if_congr Iff.rfl rfl ?_
      exact h.bind_resolveModule b.path w.source fun c d hcd hc => hfollow c d hcd hc w.name

theorem SameProgram.resolveExportWith (h : w.SameProgram p p') (hab : w.Counterpart a b)
    (hloaded : (p.module? a.path).isSome = true)
    (hdeeper : Option.Rel (w.SameHop p) deeper deeper') (name : String) :
    p.resolveExportWith deeper a name = p'.resolveExportWith deeper' b name := by
  have hentry := hab.symbols.exports.get? name
  unfold Program.resolveExportWith
  generalize a.symbols.exports.get? name = x, b.symbols.exports.get? name = y at hentry
  cases hentry with
  | some hxy => exact h.resolveEntry hab hloaded hdeeper hxy.binding
  | none =>
    cases hdeeper with
    | none => simp only [Option.bind_none]
    | @some follow follow' hfollow =>
      simp only [Option.bind_some]
      have hstars : ∀ (q : Program) (c : SourceModule) (f : Hop),
          (c.symbols.stars.findSome? fun star =>
            (q.resolveModule c.path star.specifier).bind fun target => f target name) =
          (c.symbols.stars.map (·.specifier)).findSome? fun specifier =>
            (q.resolveModule c.path specifier).bind fun target => f target name := by
        intro q c f
        rw [List.findSome?_map]
        rfl
      rw [hstars, hstars, hab.symbols.stars, hab.path]
      refine if_congr Iff.rfl rfl (congrArg (List.findSome? · _) (funext fun specifier => ?_))
      exact h.bind_resolveModule b.path specifier fun c d hcd hc => hfollow c d hcd hc name

/-- Whatever the number of hops, exports lead to the same: by induction on the hops that are left. -/
theorem SameProgram.sameHop (h : w.SameProgram p p') (hops : Nat) :
    w.SameHop p (p.resolveExportWithin hops) (p'.resolveExportWithin hops) := by
  induction hops with
  | zero => exact fun a b hab hloaded name => h.resolveExportWith hab hloaded .none name
  | succ hops ih =>
    exact fun a b hab hloaded name => h.resolveExportWith hab hloaded (.some ih) name

theorem SameProgram.resolveExport (h : w.SameProgram p p') (hab : w.Counterpart a b)
    (hloaded : (p.module? a.path).isSome = true) (name : String) (depth : Nat) :
    p.resolveExport a name depth = p'.resolveExport b name depth :=
  h.sameHop _ a b hab hloaded name

theorem SameProgram.resolveName (h : w.SameProgram p p') (hname : w.Known path name) :
    p.resolveName path name = p'.resolveName path name :=
  h.resolveNameWith (h.sameHop _) hname

/-- The imported name of the rewritten file is seen from inside it as the other module exports it. -/
theorem SameProgram.resolveName_binding (h : w.SameProgram p p')
    (hloaded : (p.module? path).isSome = true) (hfile : ¬ w.Known path w.binding) :
    p'.resolveName path w.binding =
      if !isRelative w.source then some (.external w.source w.name)
      else (p.resolveModule path w.source).bind fun target => p.resolveExport target w.name 0 := by
  rw [Program.resolveName, h.resolveNameWith_binding hloaded hfile]
  refine if_congr Iff.rfl rfl ?_
  exact (h.bind_resolveModule path w.source fun c d hcd hc => h.resolveExport hcd hc w.name 0).symm

/-! ## Declarations -/

theorem SameProgram.typeDecl? (h : w.SameProgram p p') (ref : SymbolRef) :
    Option.Rel w.SameDecl (p.typeDecl? ref) (p'.typeDecl? ref) := by
  have hmodule := h.module? ref.module
  unfold Program.typeDecl?
  generalize p.module? ref.module = x, p'.module? ref.module = y at hmodule
  cases hmodule with
  | none => exact .none
  | @some a b hab =>
    have hsite := hab.symbols.types.get? ref.name
    simp only [Option.bind_eq_bind, Option.bind_some]
    generalize a.symbols.types.get? ref.name = x, b.symbols.types.get? ref.name = y at hsite
    cases hsite with
    | none => exact .none
    | some hxy => exact .some ⟨hab, rfl, hxy.2.doc, hxy.2.node⟩

/-- A name stands for the same type in both programs. -/
theorem SameProgram.resolveType (h : w.SameProgram p p') (hname : w.Known path name) :
    Option.Rel w.SameDecl (p.resolveType path name) (p'.resolveType path name) := by
  rw [Program.resolveType, Program.resolveType, ← h.resolveName hname]
  rcases p.resolveName path name with - | (ref | other | ⟨specifier, exported⟩)
  · exact .none
  · exact h.typeDecl? ref
  · exact .none
  · exact .none

end Rewriting

/-!
## Type names in programs with a rewritten re-export

A type name that stands in modules that correspond means the same in both programs, and an alias
plays the same part.
-/

namespace Rewriting

variable (w : Rewriting)

/-- Two programs with scalars of which the same is known, but for places. -/
structure SameClassifier (c c' : Classifier) : Prop where
  program : w.SameProgram c.program c'.program
  declared : ∀ symbol, (c.scalars.declared? symbol).map (·.use) =
    (c'.scalars.declared? symbol).map (·.use)
  mapped : c.scalars.mapped = c'.scalars.mapped

inductive SameNamed : Named → Named → Prop where
  | declared {d d' : TypeDecl} (h : w.SameDecl d d') : SameNamed (.declared d) (.declared d')
  | runtime (name : String) : SameNamed (.runtime name) (.runtime name)
  | external (specifier name : String) :
    SameNamed (.external specifier name) (.external specifier name)
  | unknown (name : String) : SameNamed (.unknown name) (.unknown name)

variable {w} {a b : SourceModule} {c c' : Classifier} {d d' : TypeDecl}

namespace SameClassifier

/-! ### Names -/

theorem resolveLocal (hc : w.SameClassifier c c') (hab : w.Counterpart a b) {name : String}
    (hname : w.Known a.path name) :
    w.SameNamed (c.resolveLocal a name) (c'.resolveLocal b name) := by
  unfold Classifier.resolveLocal
  rw [← hab.path, ← hc.program.resolveName hname]
  rcases c.program.resolveName a.path name with _ | ref | path | ⟨specifier, exported⟩
  · simp only
    split
    · exact .runtime name
    · exact .unknown name
  · have hdecl := hc.program.typeDecl? ref
    simp only
    generalize c.program.typeDecl? ref = x, c'.program.typeDecl? ref = y at hdecl
    cases hdecl with
    | none => exact .unknown name
    | some hd => exact .declared hd
  · exact .unknown name
  · simp only
    split
    · exact .runtime exported
    · exact .external specifier exported

theorem qualifiedDecl? (hc : w.SameClassifier c c') (hab : w.Counterpart a b) {left : String}
    (hleft : w.Known a.path left) (right : String) :
    Option.Rel w.SameDecl (c.qualifiedDecl? a left right) (c'.qualifiedDecl? b left right) := by
  unfold Classifier.qualifiedDecl?
  rw [← hab.path, ← hc.program.resolveName hleft]
  rcases c.program.resolveName a.path left with _ | ref | path | ⟨specifier, exported⟩
  · exact .none
  · exact .none
  · have hmodule := hc.program.module? path
    have hloaded : ∀ m, c.program.module? path = some m →
        (c.program.module? m.path).isSome = true := fun m hm => by
      rw [Program.module?_self hm]
      rfl
    simp only
    generalize c.program.module? path = x, c'.program.module? path = y at hmodule hloaded
    cases hmodule with
    | none => exact .none
    | @some m m' hm =>
      simp only [Option.bind_some]
      rw [hc.program.resolveExport hm (hloaded m rfl) right 0]
      rcases c'.program.resolveExport m' right 0 with _ | ref | path | ⟨specifier, exported⟩
      · exact .none
      · exact hc.program.typeDecl? ref
      · exact .none
      · exact .none
  · exact .none

theorem resolveEntity (hc : w.SameClassifier c c') (hab : w.Counterpart a b) {name : EntityName}
    (hname : (w.compare a b).KnownEntity name) :
    w.SameNamed (c.resolveEntity a name) (c'.resolveEntity b name) := by
  match name, hname with
  | .ident name, hname => exact hc.resolveLocal hab hname
  | .qualified (.ident left) right, hname =>
    have hdecl := hc.qualifiedDecl? hab hname.1 right
    rw [Classifier.resolveEntity, Classifier.resolveEntity]
    generalize c.qualifiedDecl? a left right = x, c'.qualifiedDecl? b left right = y at hdecl
    cases hdecl with
    | none => exact .unknown right
    | some hd => exact .declared hd
  | .qualified (.qualified _ _) right, _ => exact .unknown right

theorem known_lastName {name : EntityName} (hname : (w.compare a b).KnownEntity name) :
    w.Known a.path (Classifier.lastName name) := by
  cases name with
  | ident name => exact hname
  | qualified left right => exact hname.2

/-- A configured scalar is found through the name and what it is imported from. -/
theorem mappedScalar? (hc : w.SameClassifier c c') (hab : w.Counterpart a b) {name : EntityName}
    (hname : (w.compare a b).KnownEntity name) {named named' : Named}
    (hnamed : w.SameNamed named named') :
    c.mappedScalar? a name named = c'.mappedScalar? b name named' := by
  have himport := hab.get?_imports (known_lastName hname)
  unfold Classifier.mappedScalar? ScalarRegistry.mapped?
  rw [himport, hc.mapped]
  cases hnamed with
  | declared hd => simp only [hd.name]
  | _ => rfl

/-! ### Scalars and aliases -/

theorem isDeclaredScalar (hc : w.SameClassifier c c') (hd : w.SameDecl d d') :
    c.isDeclaredScalar d = c'.isDeclaredScalar d' := by
  have hsome := congrArg Option.isSome (hc.declared d.symbol)
  rw [Option.isSome_map, Option.isSome_map] at hsome
  rw [Classifier.isDeclaredScalar, Classifier.isDeclaredScalar, hsome, hd.symbol]

variable {kind kind' : TypeDecl → AliasKind}

theorem isObjectLikeBy (hc : w.SameClassifier c c') (hab : w.Counterpart a b)
    (hkind : ∀ d d', w.SameDecl d d' → kind d = kind' d') {t t' : TypeExpr}
    (ht : (w.compare a b).SameType t t') :
    c.isObjectLikeBy kind a t = c'.isObjectLikeBy kind' b t' := by
  have hstrip := ht.stripParens
  rw [Classifier.isObjectLikeBy, Classifier.isObjectLikeBy]
  generalize t.stripParens = u, t'.stripParens = u' at hstrip
  cases hstrip with
  | @reference _ _ _ name hname _ _ _ =>
    have hnamed := hc.resolveEntity hab hname
    simp only [hc.mappedScalar? hab hname hnamed]
    generalize c.resolveEntity a name = named, c'.resolveEntity b name = named' at hnamed
    refine if_congr Iff.rfl rfl ?_
    cases hnamed with
    | @declared d d' hd =>
      have hnode := hd.node
      have hscalar := hc.isDeclaredScalar hd
      have hsame := hkind d d' hd
      simp only
      generalize d.node = node, d'.node = node' at hnode
      cases hnode with
      | ofInterface => rw [hscalar]
      | ofAlias => rw [hsame]
      | ofEnum => rfl
    | _ => rfl
  | _ => rfl

theorem referenceKind (hc : w.SameClassifier c c')
    (hkind : ∀ d d', w.SameDecl d d' → kind d = kind' d') {named named' : Named}
    (hnamed : w.SameNamed named named') :
    c.referenceKind kind named = c'.referenceKind kind' named' := by
  cases hnamed with
  | @declared d d' hd =>
    have hnode := hd.node
    have hsame := hkind d d' hd
    rw [Classifier.referenceKind, Classifier.referenceKind, hc.isDeclaredScalar hd]
    refine if_congr Iff.rfl rfl ?_
    generalize d.node = node, d'.node = node' at hnode
    cases hnode with
    | ofInterface => rfl
    | ofAlias =>
      simp only
      rw [hsame]
    | ofEnum => rfl
  | _ => rfl

end SameClassifier

theorem all_eq_of_forall₂ {R : TypeExpr → TypeExpr → Prop} {f g : TypeExpr → Bool}
    {types types' : List TypeExpr} (h : List.Forall₂ R types types')
    (hfg : ∀ t t', R t t' → f t = g t') : types.all f = types'.all g := by
  induction h with
  | nil => rfl
  | cons hfirst _ ih => rw [List.all_cons, List.all_cons, hfg _ _ hfirst, ih]

theorem unionKind_eq {k : Comparison} {types types' : List TypeExpr}
    (h : List.Forall₂ k.SameType types types') {f g : TypeExpr → Bool}
    (hfg : ∀ t t', k.SameType t t' → f t = g t') :
    Classifier.unionKind f types = Classifier.unionKind g types' := by
  obtain ⟨hmembers, -⟩ := Comparison.SameType.splitNullable h
  have hlength := h.length_eq
  have hcount := hmembers.length_eq
  have hobjects := all_eq_of_forall₂ hmembers hfg
  have htexts := all_eq_of_forall₂ hmembers fun t t' ht =>
    congrArg Option.isSome (Comparison.SameType.stringLiteral? ht)
  have hempty : (TypeExpr.splitNullable types).1.isEmpty =
      (TypeExpr.splitNullable types').1.isEmpty := by
    rw [Bool.eq_iff_iff, List.isEmpty_iff_length_eq_zero, List.isEmpty_iff_length_eq_zero, hcount]
  simp only [Classifier.unionKind, hlength, hcount, hempty, hobjects, htexts]

/-- An alias plays the same part, however far it is followed. -/
theorem SameClassifier.aliasKind (hc : w.SameClassifier c c') (hd : w.SameDecl d d') (depth : Nat) :
    c.aliasKind d depth = c'.aliasKind d' depth := by
  induction hroom : maxDepth + 1 - depth using Nat.strongRecOn generalizing d d' depth with
  | _ room ih =>
    have hnode := hd.node
    have hscalar := hc.isDeclaredScalar hd
    rw [Classifier.aliasKind, Classifier.aliasKind, ← hscalar]
    generalize d.node = node, d'.node = node' at hnode
    cases hnode with
    | ofInterface => rfl
    | ofEnum => rfl
    | @ofAlias decl decl' hdecl =>
      simp only
      refine if_congr Iff.rfl rfl ?_
      by_cases hdeep : depth > maxDepth
      · rw [if_pos hdeep, if_pos hdeep]
      · rw [if_neg hdeep, if_neg hdeep]
        have hfollow : ∀ deeper > depth, ∀ e e', w.SameDecl e e' →
            c.aliasKind e deeper = c'.aliasKind e' deeper := by
          intro deeper hdeeper e e' he
          exact ih (maxDepth + 1 - deeper) (by omega) he deeper rfl
        have hbody := hdecl.body.stripParens
        generalize decl.body.stripParens = body, decl'.body.stripParens = body' at hbody
        cases hbody with
        | union _ htypes =>
          exact unionKind_eq htypes fun t t' ht =>
            hc.isObjectLikeBy hd.module (hfollow (depth + 2) (by omega)) ht
        | reference _ hname _ =>
          exact hc.referenceKind (hfollow (depth + 1) (by omega))
            (hc.resolveEntity hd.module hname)
        | _ => rfl

end Rewriting

end SchemaCompiler

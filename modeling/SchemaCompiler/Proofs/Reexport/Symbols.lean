import SchemaCompiler.Proofs.Reexport.Syntax
import SchemaCompiler.Proofs.Tables

/-!
# The names of a module with a rewritten re-export

An entry of a list of re-exports may be written as an import and an export of the imported name. The
statements around it stay as they are, but for their places. Then the module declares, imports and
exports the same, but that it has one more import, and that the rewritten export leads through it.
-/

namespace SchemaCompiler

open TypeScript

/-! ## Tables side by side -/

namespace Table

variable {α β : Type} {R : String → α → β → Prop}

/-- The entries have the same keys in the same order, and related values. -/
def Corresponds (R : String → α → β → Prop) (t : Table α) (t' : Table β) : Prop :=
  List.Forall₂ (fun x y => x.1 = y.1 ∧ R x.1 x.2 y.2) t.entries t'.entries

theorem Corresponds.insert {t : Table α} {t' : Table β} (h : t.Corresponds R t') {key : String}
    {a : α} {b : β} (hnew : R key a b) : (t.insert key a).Corresponds R (t'.insert key b) := by
  have hentries : ∀ {xs : List (String × α)} {ys : List (String × β)},
      List.Forall₂ (fun x y => x.1 = y.1 ∧ R x.1 x.2 y.2) xs ys →
        List.Forall₂ (fun x y => x.1 = y.1 ∧ R x.1 x.2 y.2) (alterEntries key (fun _ => a) xs)
          (alterEntries key (fun _ => b) ys) := by
    intro xs ys hxs
    induction hxs with
    | nil => exact .cons ⟨rfl, hnew⟩ .nil
    | cons hfirst hrest ih =>
      rw [alterEntries, alterEntries, ← hfirst.1]
      split
      · exact .cons ⟨rfl, hnew⟩ hrest
      · exact .cons hfirst ih
  exact hentries h

theorem Corresponds.get? {t : Table α} {t' : Table β} (h : t.Corresponds R t') (key : String) :
    Option.Rel (R key) (t.get? key) (t'.get? key) := by
  rw [Table.get?, Table.get?]
  rw [Corresponds] at h
  generalize t.entries = xs, t'.entries = ys at h
  induction h with
  | nil => exact .none
  | @cons x y xs ys hfirst _ ih =>
    obtain ⟨name, a⟩ := x
    obtain ⟨name', b⟩ := y
    obtain ⟨rfl, hab⟩ := hfirst
    rw [lookup_cons, lookup_cons]
    by_cases hkey : key = name
    · subst hkey
      rw [if_pos rfl, if_pos rfl]
      exact .some hab
    · rw [if_neg hkey, if_neg hkey]
      exact ih

theorem get?_insert (t : Table α) (key other : String) (a : α) :
    (t.insert key a).get? other = if other = key then some a else t.get? other :=
  get?_alter t key other _

theorem contains_insert (t : Table α) (key other : String) (a : α) :
    (t.insert key a).contains other = (other == key || t.contains other) := by
  rw [contains, get?_insert, contains]
  by_cases h : other = key
  · simp [h]
  · simp [h]

end Table

/-! ## Statements -/

namespace TypeScript

/-- The name that stands alone in the place of an expression. -/
def Expr.name? : Expr → Option String
  | .name text => some text
  | _ => none

/-- The names that variables bind. -/
def boundNames (declarators : List Declarator) : List String :=
  declarators.flatMap fun d => (Symbols.bindings d.pattern).map (·.1)

end TypeScript

namespace Comparison

variable (k : Comparison)

/-- Of variables only the names count that they bind. -/
inductive SameDeclaration : Declaration → Declaration → Prop where
  | ofInterface {a b : Interface} (hname : k.Known a.name) (h : k.SameInterface a b) :
    SameDeclaration (.interface a) (.interface b)
  | ofAlias {a b : Alias} (hname : k.Known a.name) (h : k.SameAlias a b) :
    SameDeclaration (.alias a) (.alias b)
  | ofEnum {a b : Enum} (hname : k.Known a.name) (h : k.SameEnum a b) :
    SameDeclaration (.enum a) (.enum b)
  | bindings {ds ds' : List Declarator} (hnames : boundNames ds = boundNames ds')
    (hknown : ∀ name ∈ boundNames ds, k.Known name) : SameDeclaration (.bindings ds) (.bindings ds')
  | function {name : String} (hname : k.Known name) :
    SameDeclaration (.function name) (.function name)
  | other : SameDeclaration .other .other

inductive SameItem : Item → Item → Prop where
  | imports {specifiers : List ImportSpecifier} (hknown : ∀ i ∈ specifiers, k.Known i.binding)
    (source : String) : SameItem (.imports specifiers source) (.imports specifiers source)
  | declaration {a b : Declaration} (h : k.SameDeclaration a b) :
    SameItem (.declaration a) (.declaration b)
  | exportDeclaration {a b : Declaration} (h : k.SameDeclaration a b) :
    SameItem (.exportDeclaration a) (.exportDeclaration b)
  | exportDefaultInterface {a b : Interface} (hname : k.Known a.name) (h : k.SameInterface a b) :
    SameItem (.exportDefaultInterface a) (.exportDefaultInterface b)
  | exportDefaultExpr {value value' : Expr} (hname : value.name? = value'.name?)
    (hknown : ∀ name ∈ value.name?, k.Known name) :
    SameItem (.exportDefaultExpr value) (.exportDefaultExpr value')
  | exportNamed {specifiers : List ExportSpecifier} (hknown : ∀ x ∈ specifiers, k.Known x.name) :
    SameItem (.exportNamed specifiers none) (.exportNamed specifiers none)
  | reexport (specifiers : List ExportSpecifier) (source : String) :
    SameItem (.exportNamed specifiers (some source)) (.exportNamed specifiers (some source))
  | exportAll (source : String) : SameItem (.exportAll source) (.exportAll source)
  | other : SameItem .other .other

structure SameStatement (a b : Statement) : Prop where
  place : k.SamePlace a.span b.span
  item : k.SameItem a.item b.item

end Comparison

/-- An entry `name as exported` of the re-exports from `source` in a file. Where it is written as two
statements, it is `binding` that the first one imports and the second one exports. -/
structure Rewriting where
  file : Path
  source : String
  name : String
  exported : String
  binding : String

namespace Rewriting

variable (w : Rewriting)

/-- In the file itself the name that the new import binds is not used otherwise. -/
def Known (path : Path) (name : String) : Prop :=
  path.components = w.file.components → name ≠ w.binding

def compare (a b : SourceModule) : Comparison := ⟨a, b, w.Known a.path⟩

def imported : ImportBinding := ⟨w.source, .named w.name⟩

def reexport : ExportSpecifier := ⟨w.name, w.exported⟩

def importItem : Item := .imports [⟨w.binding, .named w.name⟩] w.source

def exportItem : Item := .exportNamed [⟨w.binding, w.exported⟩] none

/-- What is left of a list of re-exports; an empty list may be left out. -/
inductive Left (specifiers : List ExportSpecifier) : List Statement → Prop where
  | none (h : specifiers = []) : Left specifiers []
  | list (s : Span) : Left specifiers [⟨s, .exportNamed specifiers (some w.source)⟩]

/-- The statements are the same, but that the entry is written as an import and an export. -/
inductive Rewrites (k : Comparison) : List Statement → List Statement → Prop where
  | skip {a b : Statement} {as bs : List Statement} (h : k.SameStatement a b)
    (hrest : Rewrites k as bs) : Rewrites k (a :: as) (b :: bs)
  | here {earlier later : List ExportSpecifier} {front back after after' : List Statement}
    (hfront : w.Left earlier front) (hback : w.Left later back)
    (hafter : List.Forall₂ k.SameStatement after after') (s s₁ s₂ : Span) :
    Rewrites k (⟨s, .exportNamed (earlier ++ w.reexport :: later) (some w.source)⟩ :: after)
      (front ++ ⟨s₁, w.importItem⟩ :: ⟨s₂, w.exportItem⟩ :: (back ++ after'))

end Rewriting

/-! ## Tables of names -/

namespace Comparison

variable (k : Comparison) (w : Rewriting)

structure SameSite (a b : TypeSite) : Prop where
  doc : k.SameDoc a.itemStart b.itemStart
  node : k.SameNode a.node b.node

/-- The rewritten entry has become an export of the imported name. -/
inductive SameBinding : ExportBinding → ExportBinding → Prop where
  | own {name : String} (hname : k.Known name) : SameBinding (.own name) (.own name)
  | reexport (source name : String) : SameBinding (.reexport source name) (.reexport source name)
  | rewritten (hfile : ¬ k.Known w.binding) :
    SameBinding (.reexport w.source w.name) (.own w.binding)

structure SameEntry (a b : ExportEntry) : Prop where
  isDefault : a.isDefault = b.isDefault
  binding : k.SameBinding w a.binding b.binding

/-- The tables of two modules; of names that are not known the second one imports `imported`. -/
structure SameSymbols (imported : Option ImportBinding) (s s' : Symbols) : Prop where
  types : s.types.Corresponds (fun name a b => k.Known name ∧ k.SameSite a b) s'.types
  values : ∀ name, s.values.contains name = s'.values.contains name
  known : ∀ name, s.values.contains name = true → k.Known name
  imports : ∀ name, k.Known name → s.imports.get? name = s'.imports.get? name
  unknown : ∀ name, ¬ k.Known name → s'.imports.get? name = imported
  exports : s.exports.Corresponds (fun _ => k.SameEntry w) s'.exports
  stars : s.stars.map (·.specifier) = s'.stars.map (·.specifier)

variable {k w} {s s' : Symbols} {imported : Option ImportBinding}

namespace SameSymbols

theorem empty : k.SameSymbols w none {} {} :=
  ⟨.nil, fun _ => rfl, fun _ h => (nomatch h), fun _ _ => rfl, fun _ _ => rfl, .nil, rfl⟩

theorem addType (h : k.SameSymbols w imported s s') {name : String} (hname : k.Known name)
    {site site' : TypeSite} (hsite : k.SameSite site site') :
    k.SameSymbols w imported (s.addType name site) (s'.addType name site') :=
  { h with types := h.types.insert ⟨hname, hsite⟩ }

theorem addExport (h : k.SameSymbols w imported s s') (exported : String)
    {entry entry' : ExportEntry} (hentry : k.SameEntry w entry entry') :
    k.SameSymbols w imported (s.addExport exported entry) (s'.addExport exported entry') :=
  { h with exports := h.exports.insert hentry }

theorem addOwnExports (h : k.SameSymbols w imported s s') {names : List String}
    (hnames : ∀ name ∈ names, k.Known name) (l l' : SourceLocation) :
    k.SameSymbols w imported (s.addOwnExports l names) (s'.addOwnExports l' names) := by
  rw [Symbols.addOwnExports, Symbols.addOwnExports]
  induction names generalizing s s' with
  | nil => exact h
  | cons name names ih =>
    rw [List.foldl_cons, List.foldl_cons]
    refine ih (h.addExport name ⟨rfl, .own ?_⟩) fun other hother => ?_
    · exact hnames name List.mem_cons_self
    · exact hnames other (List.mem_cons_of_mem _ hother)

theorem addNamedExports (h : k.SameSymbols w imported s s') {source : Option String}
    {specifiers : List ExportSpecifier} (hknown : source = none → ∀ x ∈ specifiers, k.Known x.name)
    (l l' : SourceLocation) :
    k.SameSymbols w imported (specifiers.foldl (Symbols.addNamedExport l source) s)
      (specifiers.foldl (Symbols.addNamedExport l' source) s') := by
  induction specifiers generalizing s s' with
  | nil => exact h
  | cons x rest ih =>
    refine ih (h.addExport x.exported ⟨rfl, ?_⟩) fun hnone y hy =>
      hknown hnone y (List.mem_cons_of_mem _ hy)
    cases source with
    | none => exact .own (hknown rfl x List.mem_cons_self)
    | some source => exact .reexport source x.name

theorem addImports (h : k.SameSymbols w imported s s') (source : String)
    {specifiers : List ImportSpecifier} (hknown : ∀ i ∈ specifiers, k.Known i.binding) :
    k.SameSymbols w imported (specifiers.foldl (Symbols.addImport source) s)
      (specifiers.foldl (Symbols.addImport source) s') := by
  induction specifiers generalizing s s' with
  | nil => exact h
  | cons i rest ih =>
    have hfirst : k.Known i.binding := hknown i List.mem_cons_self
    refine ih { h with imports := fun name hname => ?_, unknown := fun name hname => ?_ }
      fun other hother => hknown other (List.mem_cons_of_mem _ hother)
    · simp only [Symbols.addImport, Table.get?_insert, h.imports name hname]
    · have hne : name ≠ i.binding := fun heq => hname (heq ▸ hfirst)
      simp only [Symbols.addImport, Table.get?_insert, if_neg hne, h.unknown name hname]

end SameSymbols

/-! ## Variables -/

theorem contains_foldl_insert {α : Type} (f : String × Option String → α) (name : String)
    (pairs : List (String × Option String)) (values : Table α) :
    (pairs.foldl (fun values pair => values.insert pair.1 (f pair)) values).contains name =
      ((pairs.map (·.1)).contains name || values.contains name) := by
  induction pairs generalizing values with
  | nil => rfl
  | cons pair pairs ih =>
    rw [List.foldl_cons, ih, Table.contains_insert, List.map_cons, List.contains_cons,
      Bool.or_left_comm, Bool.or_assoc]

theorem foldl_addDeclarator (item start : Nat) (ds : List Declarator) (i : Nat) (s : Symbols) :
    ∃ values, (ds.zipIdx i).foldl (Symbols.addDeclarator item start) s = { s with values } ∧
      ∀ name, values.contains name = ((boundNames ds).contains name || s.values.contains name) := by
  induction ds generalizing i s with
  | nil => exact ⟨s.values, rfl, fun name => rfl⟩
  | cons d ds ih =>
    rw [List.zipIdx_cons, List.foldl_cons]
    obtain ⟨values, heq, hcontains⟩ := ih (i + 1) (Symbols.addDeclarator item start s (d, i))
    refine ⟨values, heq, fun name => ?_⟩
    have hfirst : (Symbols.addDeclarator item start s (d, i)).values.contains name =
        (((Symbols.bindings d.pattern).map (·.1)).contains name || s.values.contains name) :=
      contains_foldl_insert (fun pair => (⟨item, start, i, pair.2, d⟩ : ValueSite)) name _ _
    have hnames : boundNames (d :: ds) =
        (Symbols.bindings d.pattern).map (·.1) ++ boundNames ds := rfl
    rw [hcontains, hfirst, hnames, List.contains_append, Bool.or_left_comm, Bool.or_assoc]

/-! ## Statements side by side -/

namespace SameSymbols

/-- A declaration adds the same to both modules, and binds the same names. -/
theorem addDeclaration (h : k.SameSymbols w imported s s') {d d' : Declaration}
    (hd : k.SameDeclaration d d') {start start' : Nat} (hstart : k.SameDoc start start')
    (item item' : Nat) :
    k.SameSymbols w imported (s.addDeclaration item start d).1
        (s'.addDeclaration item' start' d').1 ∧
      (s.addDeclaration item start d).2 = (s'.addDeclaration item' start' d').2 ∧
      ∀ name ∈ (s.addDeclaration item start d).2, k.Known name := by
  cases hd with
  | @ofInterface a b hname hab =>
    have hnames : [a.name] = [b.name] := by rw [hab.name]
    refine ⟨?_, hnames, by simpa [Symbols.addDeclaration] using hname⟩
    rw [Symbols.addDeclaration, Symbols.addDeclaration, ← hab.name]
    exact h.addType hname ⟨hstart, .ofInterface hab⟩
  | @ofAlias a b hname hab =>
    have hnames : [a.name] = [b.name] := by rw [hab.name]
    refine ⟨?_, hnames, by simpa [Symbols.addDeclaration] using hname⟩
    rw [Symbols.addDeclaration, Symbols.addDeclaration, ← hab.name]
    exact h.addType hname ⟨hstart, .ofAlias hab⟩
  | @ofEnum a b hname hab =>
    have hnames : [a.name] = [b.name] := by rw [hab.name]
    refine ⟨?_, hnames, by simpa [Symbols.addDeclaration] using hname⟩
    rw [Symbols.addDeclaration, Symbols.addDeclaration, ← hab.name]
    exact h.addType hname ⟨hstart, .ofEnum hab⟩
  | @bindings ds ds' hnames hknown =>
    refine ⟨?_, hnames, hknown⟩
    obtain ⟨values, heq, hvalues⟩ := foldl_addDeclarator item start ds 0 s
    obtain ⟨values', heq', hvalues'⟩ := foldl_addDeclarator item' start' ds' 0 s'
    rw [Symbols.addDeclaration, Symbols.addDeclaration, heq, heq']
    refine { h with values := fun name => ?_, known := fun name hname => ?_ }
    · rw [hvalues, hvalues', hnames, h.values]
    · rw [hvalues, Bool.or_eq_true] at hname
      rcases hname with hname | hname
      · exact hknown name (List.contains_iff_mem.mp hname)
      · exact h.known name hname
  | function hname => exact ⟨h, rfl, by simpa [Symbols.addDeclaration] using hname⟩
  | other => exact ⟨h, rfl, by simp [Symbols.addDeclaration]⟩

theorem addStatement (h : k.SameSymbols w imported s s') {a b : Statement}
    (hab : k.SameStatement a b) (locate locate' : Nat → SourceLocation) (i i' : Nat) :
    k.SameSymbols w imported (Symbols.addStatement locate s (a, i))
      (Symbols.addStatement locate' s' (b, i')) := by
  obtain ⟨span, item⟩ := a
  obtain ⟨span', item'⟩ := b
  obtain ⟨hplace, hitem⟩ := hab
  have hstart : k.SameDoc span.lo span'.lo := hplace.doc
  cases hitem with
  | imports hknown source => exact h.addImports source hknown
  | declaration hd => exact (h.addDeclaration hd hstart i i').1
  | @exportDeclaration d d' hd =>
    obtain ⟨hsymbols, hnames, hknown⟩ := h.addDeclaration hd hstart i i'
    have hexports := hsymbols.addOwnExports hknown (locate span.lo) (locate' span'.lo)
    rw [hnames] at hexports
    simp only [Symbols.addStatement]
    rw [hnames]
    exact hexports
  | @exportDefaultInterface d d' hname hd =>
    have hsite : k.SameSite ⟨i, span.lo, .interface d⟩ ⟨i', span'.lo, .interface d'⟩ :=
      ⟨hstart, .ofInterface hd⟩
    have hadded := h.addType hname hsite
    simp only [Symbols.addStatement]
    rw [← hd.name]
    exact hadded.addExport "default" ⟨rfl, .own hname⟩
  | @exportDefaultExpr value value' hname hknown =>
    have hadded : ∀ name, value.name? = some name → k.SameSymbols w imported
        (s.addExport "default" ⟨.own name, true, locate span.lo⟩)
        (s'.addExport "default" ⟨.own name, true, locate' span'.lo⟩) := fun name heq =>
      h.addExport "default" ⟨rfl, .own (hknown name heq)⟩
    cases value with
    | name text =>
      cases value' with
      | name text' =>
        obtain rfl : text = text' := Option.some.inj hname
        exact hadded text rfl
      | _ => cases hname
    | _ =>
      cases value' with
      | name text' => cases hname
      | _ => exact h
  | exportNamed hknown => exact h.addNamedExports (fun _ => hknown) _ _
  | reexport specifiers source =>
    have hsome : some source = none → ∀ x ∈ specifiers, k.Known x.name := fun h => nomatch h
    exact h.addNamedExports hsome _ _
  | exportAll source =>
    exact { h with stars := by simp [Symbols.addStatement, h.stars] }
  | other => exact h

theorem addStatements (h : k.SameSymbols w imported s s') {as bs : List Statement}
    (hab : List.Forall₂ k.SameStatement as bs) (locate locate' : Nat → SourceLocation) (i i' : Nat) :
    k.SameSymbols w imported ((as.zipIdx i).foldl (Symbols.addStatement locate) s)
      ((bs.zipIdx i').foldl (Symbols.addStatement locate') s') := by
  induction hab generalizing s s' i i' with
  | nil => exact h
  | cons hfirst _ ih => exact ih (h.addStatement hfirst locate locate' i i') _ _

/-- The new import is the only one of a name that is not known. -/
theorem addRewritten (h : k.SameSymbols w none s s')
    (hunknown : ∀ name, k.Known name ↔ name ≠ w.binding) (l l' : SourceLocation) :
    k.SameSymbols w (some w.imported)
      (Symbols.addNamedExport l (some w.source) s w.reexport)
      (Symbols.addNamedExport l' none
        (Symbols.addImport w.source s' ⟨w.binding, .named w.name⟩) ⟨w.binding, w.exported⟩) := by
  have hfile : ¬ k.Known w.binding := fun hknown => (hunknown w.binding).mp hknown rfl
  have himported : k.SameSymbols w (some w.imported) s
      (Symbols.addImport w.source s' ⟨w.binding, .named w.name⟩) := by
    refine { h with imports := fun name hname => ?_, unknown := fun name hname => ?_ }
    · rw [Symbols.addImport, Table.get?_insert, if_neg ((hunknown name).mp hname)]
      exact h.imports name hname
    · have hname : name = w.binding := not_not.mp fun hne => hname ((hunknown name).mpr hne)
      rw [Symbols.addImport, Table.get?_insert, if_pos hname]
      rfl
  exact himported.addExport w.exported ⟨rfl, .rewritten hfile⟩

/-- The rest of the list of re-exports stays on both sides, also where it is left out. -/
theorem addLeft (h : k.SameSymbols w imported s s') {specifiers : List ExportSpecifier}
    {statements : List Statement} (hleft : w.Left specifiers statements) (l : SourceLocation)
    (locate' : Nat → SourceLocation) (i' : Nat) :
    k.SameSymbols w imported (specifiers.foldl (Symbols.addNamedExport l (some w.source)) s)
      ((statements.zipIdx i').foldl (Symbols.addStatement locate') s') := by
  have hsome : some w.source = none → ∀ x ∈ specifiers, k.Known x.name := fun h => nomatch h
  cases hleft with
  | none hnil =>
    rw [hnil]
    exact h
  | list span => exact h.addNamedExports hsome l (locate' span.lo)

theorem rewrite {as bs : List Statement} (hab : w.Rewrites k as bs)
    (hunknown : ∀ name, k.Known name ↔ name ≠ w.binding) (h : k.SameSymbols w none s s')
    (locate locate' : Nat → SourceLocation) (i i' : Nat) :
    k.SameSymbols w (some w.imported)
      ((as.zipIdx i).foldl (Symbols.addStatement locate) s)
      ((bs.zipIdx i').foldl (Symbols.addStatement locate') s') := by
  induction hab generalizing s s' i i' with
  | skip hfirst _ ih => exact ih (h.addStatement hfirst locate locate' i i') _ _
  | @here earlier later front back after after' hfront hback hafter place _ _ =>
    have hlist : Symbols.addStatement locate s
        (⟨place, .exportNamed (earlier ++ w.reexport :: later) (some w.source)⟩, i) =
        later.foldl (Symbols.addNamedExport (locate place.lo) (some w.source))
          (Symbols.addNamedExport (locate place.lo) (some w.source)
            (earlier.foldl (Symbols.addNamedExport (locate place.lo) (some w.source)) s)
            w.reexport) := by
      rw [← List.foldl_cons, ← List.foldl_append]
      rfl
    rw [List.zipIdx_cons, List.foldl_cons, hlist]
    simp only [List.zipIdx_append, List.zipIdx_cons, List.foldl_append, List.foldl_cons]
    refine addStatements ?_ hafter locate locate' _ _
    refine addLeft ?_ hback _ locate' _
    exact addRewritten (h.addLeft hfront _ locate' i') hunknown _ _

theorem build {as bs : List Statement} (hab : w.Rewrites k as bs)
    (hunknown : ∀ name, k.Known name ↔ name ≠ w.binding) (locate locate' : Nat → SourceLocation) :
    k.SameSymbols w (some w.imported) (Symbols.build locate as) (Symbols.build locate' bs) :=
  rewrite hab hunknown .empty locate locate' 0 0

/-- A module that stays has the tables that it has. -/
theorem of_trivial (h : k.Trivial) (s : Symbols) : k.SameSymbols w imported s s where
  types := List.forall₂_same.mpr fun entry _ =>
    ⟨rfl, h.known entry.1, h.doc entry.2.itemStart, h.node entry.2.node⟩
  values := fun _ => rfl
  known := fun name _ => h.known name
  imports := fun _ _ => rfl
  unknown := fun name hname => absurd (h.known name) hname
  exports := List.forall₂_same.mpr fun entry _ => by
    refine ⟨rfl, rfl, ?_⟩
    cases entry.2.binding with
    | own name => exact .own (h.known name)
    | reexport source name => exact .reexport source name
  stars := rfl

end SameSymbols

end Comparison

end SchemaCompiler

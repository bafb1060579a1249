import SchemaCompiler.Proofs.Reexport.Shapes

/-!
# Extracted types of programs with a rewritten re-export

Both programs declare the same scalars. A scanned module offers the same types: those that the
rewritten export offered are offered through the import, because an export of an imported name offers
what the name means. Only a module that cannot be resolved is reported of a re-export and not of an
import. What is offered is read alike, so both export the same types, but for places.
-/

namespace SchemaCompiler

open TypeScript Program

/-! ## Types without places -/

/-- An exported type without its places; the file stays. -/
def ExportedType.unplaced (t : ExportedType) : ExportedType :=
  { t with
    location := .wholeFile t.sourceFile
    fields := t.fields.map Field.unplaced
    inlineMembers := t.inlineMembers.map (·.map Field.unplaced) }

def SameExported (t t' : ExportedType) : Prop := t.unplaced = t'.unplaced

theorem SameExported.kind {t t' : ExportedType} (h : SameExported t t') : t.kind = t'.kind := by
  have hkind : t.unplaced.kind = t'.unplaced.kind := congrArg ExportedType.kind h
  exact hkind

/-- Members of unions that are the same but for places. -/
inductive SameUnionMember : ExportedType.UnionMember → ExportedType.UnionMember → Prop where
  | named (name : String) : SameUnionMember (.named name) (.named name)
  | inline {fields fields' : List Field} (h : SameFields fields fields') :
    SameUnionMember (.inline fields) (.inline fields')
  | refused : SameUnionMember .refused .refused

theorem namedMembers_eq {members members' : List ExportedType.UnionMember}
    (h : List.Forall₂ SameUnionMember members members') :
    ExportedType.namedMembers members = ExportedType.namedMembers members' := by
  induction h with
  | nil => rfl
  | cons hfirst _ ih =>
    cases hfirst with
    | named name => exact congrArg (name :: ·) ih
    | inline _ => exact ih
    | refused => exact ih

theorem inlineMembersOf_same {members members' : List ExportedType.UnionMember}
    (h : List.Forall₂ SameUnionMember members members') :
    List.Forall₂ SameFields (ExportedType.inlineMembersOf members)
      (ExportedType.inlineMembersOf members') := by
  induction h with
  | nil => exact .nil
  | cons hfirst _ ih =>
    cases hfirst with
    | named name => exact ih
    | inline hfields => exact .cons hfields ih
    | refused => exact ih

namespace Rewriting

variable {w : Rewriting} {a b : SourceModule} {c c' : Classifier} {d d' : TypeDecl} {p p' : Program}

theorem forall₂_of_map_eq {α β : Type} {f : α → β} {xs ys : List α} (h : xs.map f = ys.map f) :
    List.Forall₂ (fun x y => f x = f y) xs ys := by
  have heq : List.Forall₂ (· = ·) (xs.map f) (ys.map f) := by
    rw [h]
    exact List.forall₂_refl _
  exact List.forall₂_map_right_iff.mp (List.forall₂_map_left_iff.mp heq)

/-! ## Scalars -/

/-- Scalars of one symbol whose uses are the same. -/
structure SameScalar (x y : DeclaredScalar) : Prop where
  symbol : x.symbol = y.symbol
  use : x.binding.use = y.binding.use

theorem SameProgram.scalarBody? (h : w.SameProgram p p') (hab : w.Counterpart a b)
    {body body' : TypeExpr} (hbody : (w.compare a b).SameType body body') :
    Option.Rel (List.Forall₂ (w.compare a b).SameType) (ScalarRegistry.scalarBody? p a body)
      (ScalarRegistry.scalarBody? p' b body') := by
  have hstrip := hbody.stripParens
  rw [ScalarRegistry.scalarBody?, ScalarRegistry.scalarBody?]
  generalize body.stripParens = u, body'.stripParens = u' at hstrip
  cases hstrip with
  | @reference _ _ _ name hname _ _ harguments =>
    cases name with
    | ident callee =>
      simp only
      rw [← hab.path, ← h.resolveName (show w.Known a.path callee from hname)]
      split
      all_goals
        split
        · exact .some harguments
        · exact .none
    | qualified left right => exact .none
  | _ => exact .none

theorem agree_ofSite (h : w.SameProgram p p') (hab : w.Counterpart a b) {name : String}
    {site site' : TypeSite} (hsite : (w.compare a b).SameSite site site') :
    Agree (Option.Rel SameScalar) (ScalarRegistry.ofSite p a (name, site))
      (ScalarRegistry.ofSite p' b (name, site')) := by
  have hnode := hsite.node
  rw [ScalarRegistry.ofSite, ScalarRegistry.ofSite]
  generalize site.node = node, site'.node = node' at hnode
  cases hnode with
  | ofAlias hdecl =>
    have harguments := h.scalarBody? hab hdecl.body
    simp only
    generalize ScalarRegistry.scalarBody? p a _ = x, ScalarRegistry.scalarBody? p' b _ = y
      at harguments
    cases harguments with
    | none => exact .pure .none
    | some harguments =>
      simp only [read_eq harguments, hab.scanned]
      split
      · exact .pure (.some ⟨by rw [hab.path], rfl⟩)
      · split
        · exact ⟨.none, rfl⟩
        · exact .pure .none
  | ofInterface => exact .pure .none
  | ofEnum => exact .pure .none

theorem agree_ofModule (h : w.SameProgram p p') (hab : w.Counterpart a b) :
    Agree (List.Forall₂ SameScalar) (ScalarRegistry.ofModule p a)
      (ScalarRegistry.ofModule p' b) := by
  refine Agree.eachSome (hab.symbols.types.imp fun x y hxy => ?_)
  obtain ⟨name, site⟩ := x
  obtain ⟨name', site'⟩ := y
  obtain ⟨rfl, -, hsite⟩ := hxy
  exact agree_ofSite h hab hsite

theorem find?_of_sameScalar {xs ys : List DeclaredScalar} (h : List.Forall₂ SameScalar xs ys)
    (symbol : SymbolRef) :
    ((xs.find? (·.symbol == symbol)).map (·.binding)).map (·.use) =
      ((ys.find? (·.symbol == symbol)).map (·.binding)).map (·.use) := by
  induction h with
  | nil => rfl
  | @cons x y _ _ hxy _ ih =>
    rw [List.find?_cons, List.find?_cons, hxy.symbol]
    cases y.symbol == symbol with
    | true => exact congrArg some hxy.use
    | false => exact ih

/-- What is read of the scalars makes classifiers that say the same. -/
theorem agree_build (h : w.SameProgram p p') (mappings : List ScalarMapping) :
    Agree (fun r r' => w.SameClassifier ⟨p, r⟩ ⟨p', r'⟩) (ScalarRegistry.build p mappings)
      (ScalarRegistry.build p' mappings) :=
  (Agree.each (h.imp fun _ _ hab => agree_ofModule h hab)).bind fun _ _ hdeclared =>
    .pure ⟨h, find?_of_sameScalar (List.rel_flatten hdeclared), rfl⟩

/-! ## Offers -/

variable (w) in
inductive SameOffer : Offer → Offer → Prop where
  | type {d d' : TypeDecl} (h : w.SameDecl d d') (kind : ExportKind) :
    SameOffer (.type d kind) (.type d' kind)
  | unresolved {d d' : Diagnostic} (h : d.unplaced = d'.unplaced) :
    SameOffer (.unresolved d) (.unresolved d')

variable (w p) in
/-- The module that the rewritten file re-exports from is loaded, or belongs to a package. -/
def Resolves : Prop :=
  ∀ a ∈ p.modules, ¬ w.Known a.path w.binding → isRelative w.source = true →
    (p.resolveModule a.path w.source).isSome = true

theorem SameProgram.isScanned (h : w.SameProgram p p') (path : Path) :
    p.isScanned path = p'.isScanned path := by
  have hmodule := h.module? path
  rw [Program.isScanned, Program.isScanned]
  generalize p.module? path = x, p'.module? path = y at hmodule
  cases hmodule with
  | none => rfl
  | some hab => exact hab.scanned

theorem SameProgram.reexported (h : w.SameProgram p p') (ref : SymbolRef) (kind : ExportKind) :
    List.Forall₂ w.SameOffer (Offer.reexported p ref kind) (Offer.reexported p' ref kind) := by
  have hdecl := h.typeDecl? ref
  rw [Offer.reexported, Offer.reexported, h.isScanned]
  generalize p.typeDecl? ref = x, p'.typeDecl? ref = y at hdecl
  split
  · exact .nil
  · cases hdecl with
    | none => exact .nil
    | some hd => exact .cons (.type hd kind) .nil

theorem unresolvedModule_same (hab : w.Counterpart a b) (specifier : String)
    (l l' : SourceLocation) :
    List.Forall₂ w.SameOffer (Offer.unresolvedModule a specifier l)
      (Offer.unresolvedModule b specifier l') := by
  rw [Offer.unresolvedModule, Offer.unresolvedModule, hab.path]
  exact .cons (.unresolved rfl) .nil

/-- The name that the new import binds is no type of the rewritten file. -/
theorem SameProgram.typeDecl?_binding (h : w.SameProgram p p') {path : Path}
    (hfile : ¬ w.Known path w.binding) : p'.typeDecl? ⟨path, w.binding⟩ = none := by
  have hmodule := h.module? path
  have hpath : ∀ c, p.module? path = some c → c.path.components = path.components :=
    fun c => components_of_module?
  unfold Program.typeDecl?
  generalize p.module? path = x, p'.module? path = y at hmodule hpath
  cases hmodule with
  | none => rfl
  | @some a b hab =>
    have hunknown : ¬ w.Known a.path w.binding := fun hknown =>
      hfile ((known_congr (hpath a rfl) w.binding).mp hknown)
    have habsent : b.symbols.types.contains w.binding = false := by
      rw [← hab.contains_types, Bool.eq_false_iff]
      exact fun hcontains => hunknown (hab.known_of_types hcontains)
    rw [Table.contains, Option.isSome_eq_false_iff, Option.isNone_iff_eq_none] at habsent
    simp only [Option.bind_eq_bind, Option.bind_some, habsent, Option.bind_none]

/-! ### Entries of an export table -/

variable {isDefault : Bool} {l l' : SourceLocation}

theorem SameProgram.ofEntry_own (h : w.SameProgram p p') (hab : w.Counterpart a b) {name : String}
    (hname : w.Known a.path name) :
    List.Forall₂ w.SameOffer (Offer.ofEntry p a ⟨.own name, isDefault, l⟩)
      (Offer.ofEntry p' b ⟨.own name, isDefault, l'⟩) := by
  have hdecl := h.typeDecl? ⟨a.path, name⟩
  have himports : a.symbols.imports.contains name = b.symbols.imports.contains name := by
    rw [Table.contains, hab.get?_imports hname, Table.contains]
  simp only [Offer.ofEntry, ← hab.path, ← himports, ← h.resolveName hname]
  generalize p.typeDecl? ⟨a.path, name⟩ = u, p'.typeDecl? ⟨a.path, name⟩ = u' at hdecl
  cases hdecl with
  | some hd => exact .cons (.type hd _) .nil
  | none =>
    generalize a.symbols.imports.contains name = imported
    cases imported with
    | false => exact .nil
    | true =>
      simp only [if_true]
      split
      · exact h.reexported _ _
      · exact .nil

theorem SameProgram.ofEntry_reexport (h : w.SameProgram p p') (hab : w.Counterpart a b)
    (source name : String) :
    List.Forall₂ w.SameOffer (Offer.ofEntry p a ⟨.reexport source name, isDefault, l⟩)
      (Offer.ofEntry p' b ⟨.reexport source name, isDefault, l'⟩) := by
  have htarget := h.resolveModule a.path source
  have hloaded : ∀ m, p.resolveModule a.path source = some m →
      (p.module? m.path).isSome = true := fun m hm => by
    rw [module?_of_resolveModule hm]
    rfl
  simp only [Offer.ofEntry, ← hab.path]
  generalize isRelative source = relative
  generalize p.resolveModule a.path source = u, p'.resolveModule a.path source = u'
    at htarget hloaded
  cases relative with
  | false => exact .nil
  | true =>
    simp only [Bool.not_true, Bool.false_eq_true, if_false]
    cases htarget with
    | none => exact unresolvedModule_same hab source _ _
    | @some m m' hm =>
      simp only
      rw [h.resolveExport hm (hloaded m rfl)]
      split
      · exact h.reexported _ _
      · exact .nil

/-- A re-export offers what an export of the imported name offers. -/
theorem SameProgram.ofEntry_rewritten (h : w.SameProgram p p') (hresolves : w.Resolves p)
    (ha : a ∈ p.modules) (hab : w.Counterpart a b) (hunknown : ¬ w.Known a.path w.binding) :
    List.Forall₂ w.SameOffer (Offer.ofEntry p a ⟨.reexport w.source w.name, isDefault, l⟩)
      (Offer.ofEntry p' b ⟨.own w.binding, isDefault, l'⟩) := by
  have hself : (p.module? a.path).isSome = true :=
    List.find?_isSome.mpr ⟨a, ha, BEq.rfl⟩
  have hfound := hresolves a ha hunknown
  have himported : b.symbols.imports.contains w.binding = true := by
    rw [Table.contains, hab.get?_binding hunknown, Option.isSome_some]
  simp only [Offer.ofEntry, ← hab.path, h.typeDecl?_binding hunknown, himported, if_true,
    h.resolveName_binding hself hunknown]
  generalize isRelative w.source = relative at *
  cases relative with
  | false => exact .nil
  | true =>
    obtain ⟨target, htarget⟩ := Option.isSome_iff_exists.mp (hfound rfl)
    simp only [htarget, Bool.not_true, Bool.false_eq_true, if_false, Option.bind_some]
    split
    · exact h.reexported _ _
    · exact .nil

theorem SameProgram.ofEntry (h : w.SameProgram p p') (hresolves : w.Resolves p)
    (ha : a ∈ p.modules) (hab : w.Counterpart a b) {x y : ExportEntry}
    (hxy : (w.compare a b).SameEntry w x y) :
    List.Forall₂ w.SameOffer (Offer.ofEntry p a x) (Offer.ofEntry p' b y) := by
  obtain ⟨binding, isDefault, l⟩ := x
  obtain ⟨binding', isDefault', l'⟩ := y
  obtain ⟨rfl, hbinding⟩ := hxy
  cases hbinding with
  | own hname => exact h.ofEntry_own hab hname
  | reexport source name => exact h.ofEntry_reexport hab source name
  | rewritten hfile => exact h.ofEntry_rewritten hresolves ha hab hfile

theorem SameProgram.ofStarEntry (h : w.SameProgram p p') (hab : w.Counterpart a b)
    {x y : String × ExportEntry} (hkey : x.1 = y.1) (hxy : (w.compare a b).SameEntry w x.2 y.2) :
    List.Forall₂ w.SameOffer (Offer.ofStarEntry p a x) (Offer.ofStarEntry p' b y) := by
  have hbinding := hxy.binding
  rw [Offer.ofStarEntry, Offer.ofStarEntry, hkey]
  split
  · exact .nil
  · generalize x.2.binding = binding, y.2.binding = binding' at hbinding
    cases hbinding with
    | own _ =>
      simp only [← hab.path]
      exact h.reexported _ _
    | reexport source name => exact .nil
    | rewritten hfile =>
      -- neither a re-export nor an imported name is offered by a star export
      have hunknown : ¬ w.Known a.path w.binding := hfile
      simp only [← hab.path, Offer.reexported, h.typeDecl?_binding hunknown]
      split <;> exact .nil

theorem SameProgram.ofStar (h : w.SameProgram p p') (hab : w.Counterpart a b) {x y : StarExport}
    (hxy : x.specifier = y.specifier) :
    List.Forall₂ w.SameOffer (Offer.ofStar p a x) (Offer.ofStar p' b y) := by
  have htarget := h.resolveModule a.path y.specifier
  rw [Offer.ofStar, Offer.ofStar, hxy, ← hab.path]
  generalize p.resolveModule a.path y.specifier = u, p'.resolveModule a.path y.specifier = u'
    at htarget
  split
  · exact .nil
  · cases htarget with
    | none => exact unresolvedModule_same hab _ _ _
    | some hm =>
      simp only [hm.scanned]
      split
      · exact .nil
      · exact List.rel_flatMap hm.symbols.exports fun _ _ hentry =>
          h.ofStarEntry hm hentry.1 hentry.2

theorem SameProgram.ofModule (h : w.SameProgram p p') (hresolves : w.Resolves p)
    (ha : a ∈ p.modules) (hab : w.Counterpart a b) :
    List.Forall₂ w.SameOffer (Offer.ofModule p a) (Offer.ofModule p' b) := by
  have hvalues : List.Forall₂ ((w.compare a b).SameEntry w) a.symbols.exports.values
      b.symbols.exports.values :=
    List.forall₂_map_left_iff.mpr (List.forall₂_map_right_iff.mpr
      (hab.symbols.exports.imp fun _ _ hentry => hentry.2))
  refine List.rel_append ?_ ?_
  · exact List.rel_flatMap hvalues fun _ _ hentry => h.ofEntry hresolves ha hab hentry
  · exact List.rel_flatMap (forall₂_of_map_eq hab.symbols.stars) fun _ _ hstar =>
      h.ofStar hab hstar

theorem SameProgram.ofProgram (h : w.SameProgram p p') (hresolves : w.Resolves p) :
    List.Forall₂ w.SameOffer (Offer.ofProgram p) (Offer.ofProgram p') := by
  have hmodules : List.Forall₂ (fun a b => a ∈ p.modules ∧ w.Counterpart a b) p.modules
      p'.modules := (List.forall₂_and_left _ _).mpr ⟨fun _ => id, h⟩
  have hscanned : List.Forall₂ (fun a b => a ∈ p.modules ∧ w.Counterpart a b) p.scannedModules
      p'.scannedModules :=
    List.rel_filter (fun _ _ hab => by simp only [hab.2.scanned]) hmodules
  exact List.rel_flatMap hscanned fun _ _ hab => h.ofModule hresolves hab.1 hab.2

theorem firstOf_same {xs ys : List Offer} (h : List.Forall₂ w.SameOffer xs ys)
    (seen : List SymbolRef) :
    List.Forall₂ w.SameOffer (Offer.firstOf seen xs) (Offer.firstOf seen ys) := by
  induction h generalizing seen with
  | nil => exact .nil
  | cons hfirst _ ih =>
    cases hfirst with
    | unresolved hd => exact .cons (.unresolved hd) (ih seen)
    | type hd kind =>
      rw [Offer.firstOf, Offer.firstOf, hd.symbol]
      split
      · exact ih seen
      · exact .cons (.type hd kind) (ih _)

variable {t t' : ExportedType}

/-! ## Enums -/

theorem filterMap_eq_of_forall₂ {α β γ : Type} {R : α → β → Prop} {f : α → Option γ}
    {g : β → Option γ} {xs : List α} {ys : List β} (h : List.Forall₂ R xs ys)
    (hfg : ∀ x y, R x y → f x = g y) : xs.filterMap f = ys.filterMap g := by
  induction h with
  | nil => rfl
  | cons hfirst _ ih => rw [List.filterMap_cons, List.filterMap_cons, hfg _ _ hfirst, ih]

theorem ofMember?_eq {member member' : EnumMember}
    (h : (w.compare a b).SameEnumMember member member') :
    EnumLiteral.ofMember? a member = EnumLiteral.ofMember? b member' := by
  have hdoc : a.docAt member.span.lo = b.docAt member'.span.lo := h.place.doc
  rw [EnumLiteral.ofMember?, EnumLiteral.ofMember?, h.value, h.name, hdoc]

theorem agree_ofEnum {e e' : Enum} (h : (w.compare a b).SameEnum e e') :
    Agree (· = ·) (EnumLiteral.ofEnum a e) (EnumLiteral.ofEnum b e') := by
  have hvalues : e.members.map (EnumLiteral.valueOf ·.init) =
      e'.members.map (EnumLiteral.valueOf ·.init) :=
    map_eq_map_of_forall₂ h.members fun _ _ hmember => hmember.value
  have hfault : EnumLiteral.fault? e = EnumLiteral.fault? e' := by
    rw [EnumLiteral.fault?, EnumLiteral.fault?, hvalues, h.isConst]
  have hmembers := filterMap_eq_of_forall₂ h.members fun _ _ hmember => ofMember?_eq hmember
  rw [EnumLiteral.ofEnum, EnumLiteral.ofEnum, hfault, hmembers, h.name]
  split
  · exact .pure rfl
  · exact ⟨rfl, rfl⟩

/-! ## Unions -/

namespace SameClassifier

theorem memberName (hc : w.SameClassifier c c') (hab : w.Counterpart a b) {name : EntityName}
    (hname : (w.compare a b).KnownEntity name) :
    ExportedType.memberName c a name = ExportedType.memberName c' b name := by
  have hnamed := hc.resolveEntity hab hname
  rw [ExportedType.memberName, ExportedType.memberName]
  generalize c.resolveEntity a name = named, c'.resolveEntity b name = named' at hnamed
  cases hnamed with
  | declared hd => exact hd.name
  | _ => rfl

theorem unionMember (hc : w.SameClassifier c c') (hd : w.SameDecl d d') {u u' : TypeExpr}
    (hu : (w.compare d.module d'.module).SameType u u') :
    Agree SameUnionMember (ExportedType.unionMember c d u) (ExportedType.unionMember c' d' u') := by
  have hrefused : Agree SameUnionMember
      ⟨.refused, [.error .unsupportedSyntax
        ("union `" ++ d.name ++ "` member `" ++ d.module.snippet u.span ++
          "` must be a named type or an object literal") (some (d.module.location u.span))]⟩
      ⟨.refused, [.error .unsupportedSyntax
        ("union `" ++ d'.name ++ "` member `" ++ d'.module.snippet u'.span ++
          "` must be a named type or an object literal") (some (d'.module.location u'.span))]⟩ := by
    have hsnippet : d.module.snippet u.span = d'.module.snippet u'.span := hu.span.snippet
    rw [hd.name, hsnippet]
    exact ⟨.refused, rfl⟩
  cases hu with
  | object _ hmembers =>
    exact (hc.memberFields hd.module hmembers 0).bind fun _ _ hfields => .pure (.inline hfields)
  | reference _ hname _ =>
    rw [ExportedType.unionMember, ExportedType.unionMember, hc.memberName hd.module hname]
    exact .pure (.named _)
  | _ => exact hrefused

theorem fillUnion (hc : w.SameClassifier c c') (hd : w.SameDecl d d') {body body' : TypeExpr}
    (hbody : (w.compare d.module d'.module).SameType body body') (ht : SameExported t t') :
    Agree SameExported (ExportedType.fillUnion c d body t)
      (ExportedType.fillUnion c' d' body' t') := by
  obtain ⟨htypes, -⟩ := Comparison.SameType.splitNullable hbody.alternatives
  refine (Agree.each (htypes.imp fun _ _ hu => hc.unionMember hd hu)).bind
    fun members members' hmembers => ?_
  have hnamed := namedMembers_eq hmembers
  have hinline := inlineMembersOf_same hmembers
  have hempty : (ExportedType.inlineMembersOf members).isEmpty =
      (ExportedType.inlineMembersOf members').isEmpty := by
    rw [Bool.eq_iff_iff, List.isEmpty_iff_length_eq_zero, List.isEmpty_iff_length_eq_zero,
      hinline.length_eq]
  have hfields : (ExportedType.inlineMembersOf members).map (·.map Field.unplaced) =
      (ExportedType.inlineMembersOf members').map (·.map Field.unplaced) :=
    map_eq_map_of_forall₂ hinline fun _ _ => id
  simp only [hnamed, hempty, hd.name]
  have hfilled : SameExported
      { t with
        unionMembers := ((ExportedType.namedMembers members').mergeSort (· ≤ ·)).eraseDups
        inlineMembers := ExportedType.inlineMembersOf members }
      { t' with
        unionMembers := ((ExportedType.namedMembers members').mergeSort (· ≤ ·)).eraseDups
        inlineMembers := ExportedType.inlineMembersOf members' } := by
    simp only [SameExported, ExportedType.unplaced, ExportedType.mk.injEq, hfields] at ht ⊢
    simp [ht]
  split
  · refine (Agree.report ?_).bind fun _ _ _ => .pure hfilled
    rfl
  · exact .pure hfilled

/-! ## Types -/

theorem fillFields (hc : w.SameClassifier c c') (hd : w.SameDecl d d') (ht : SameExported t t') :
    Agree SameExported (ExportedType.fillFields c d t) (ExportedType.fillFields c' d' t') :=
  (hc.declProperties hd 0).bind fun set set' hset => .pure <| by
    have hfields : set.fields.map Field.unplaced = set'.fields.map Field.unplaced := hset.fields
    have hinterfaces : set.interfaces = set'.interfaces := hset.interfaces
    simp only [SameExported, ExportedType.unplaced, ExportedType.mk.injEq, hfields,
      hinterfaces] at ht ⊢
    simp [ht]

theorem kindOf? (hc : w.SameClassifier c c') (hd : w.SameDecl d d') :
    ExportedType.kindOf? c d = ExportedType.kindOf? c' d' := by
  have hnode := hd.node
  rw [ExportedType.kindOf?, ExportedType.kindOf?, hc.aliasKind hd]
  generalize d.node = node, d'.node = node' at hnode
  cases hnode <;> rfl

theorem fill (hc : w.SameClassifier c c') (hd : w.SameDecl d d') (ht : SameExported t t') :
    Agree (Option.Rel SameExported) (ExportedType.fill c d t) (ExportedType.fill c' d' t') := by
  have hnode := hd.node
  have hkind : t.kind = t'.kind := ht.kind
  have hplain : Agree (Option.Rel SameExported)
      (do pure (some (← ExportedType.fillFields c d t)))
      (do pure (some (← ExportedType.fillFields c' d' t'))) :=
    (hc.fillFields hd ht).bind fun _ _ hfilled => .pure (.some hfilled)
  have hlisted : ∀ kind literals, SameExported { t with kind, enumMembers := literals }
      { t' with kind, enumMembers := literals } := by
    intro kind literals
    simp only [SameExported, ExportedType.unplaced, ExportedType.mk.injEq] at ht ⊢
    simp [ht]
  rw [ExportedType.fill, ExportedType.fill]
  generalize d.node = node, d'.node = node' at hnode
  cases hnode with
  | ofInterface => exact hplain
  | ofEnum he =>
    refine (agree_ofEnum he).bind fun members members' hmembers => .pure ?_
    subst hmembers
    cases members with
    | none => exact .none
    | some literals => exact .some (by simpa only [hkind] using hlisted t'.kind literals)
  | @ofAlias decl decl' hdecl =>
    simp only [hkind]
    cases t'.kind with
    | enum =>
      obtain ⟨htypes, -⟩ := Comparison.SameType.splitNullable hdecl.body.alternatives
      have hliterals := filterMap_eq_of_forall₂ htypes fun _ _ hu =>
        Comparison.SameType.stringLiteral? hu
      simp only [hliterals]
      exact .pure (.some (hlisted .enum _))
    | union =>
      exact (hc.fillUnion hd hdecl.body ht).bind fun _ _ hfilled => .pure (.some hfilled)
    | _ => exact hplain

theorem ofDecl (hc : w.SameClassifier c c') (hd : w.SameDecl d d') (kind : ExportKind) :
    Agree (Option.Rel SameExported) (ExportedType.ofDecl c d kind)
      (ExportedType.ofDecl c' d' kind) := by
  have hwarning : ∀ l l', Agree (fun _ _ => True) (ExportedType.genericWarning d l)
      (ExportedType.genericWarning d' l') := by
    intro l l'
    rw [ExportedType.genericWarning, ExportedType.genericWarning, hd.node.isGeneric, hd.name]
    split
    · exact .report rfl
    · exact .pure trivial
  have hdocs : d.module.docAtAny [d.itemStart, d.node.span.lo] =
      d'.module.docAtAny [d'.itemStart, d'.node.span.lo] :=
    Comparison.docAtAny_eq (k := w.compare d.module d'.module) hd.doc hd.node.span.doc
  rw [ExportedType.ofDecl, ExportedType.ofDecl, hc.kindOf? hd]
  split
  · exact .pure .none
  · refine (hwarning _ _).bind fun _ _ _ => hc.fill hd ?_
    simp only [SameExported, ExportedType.unplaced, hd.name, hd.module.path, hdocs]

end SameClassifier

theorem agree_collectTypes (hc : w.SameClassifier c c') (hresolves : w.Resolves c.program) :
    Agree (List.Forall₂ SameExported) (collectTypes c) (collectTypes c') := by
  have hoffers := firstOf_same (hc.program.ofProgram hresolves) []
  refine Agree.eachSome (hoffers.imp fun x y hxy => ?_)
  cases hxy with
  | type hd kind => exact hc.ofDecl hd kind
  | unresolved hd => exact ⟨.none, by simpa [ExportedType.ofOffer] using hd⟩

end Rewriting

end SchemaCompiler

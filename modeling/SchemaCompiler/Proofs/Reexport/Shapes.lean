import SchemaCompiler.Proofs.Reexport.Resolution
import SchemaCompiler.Proofs.Reexport.Unplaced

/-!
# Shapes in programs with a rewritten re-export

The classifier reads the same of a type in modules that correspond, and reports the same, but for
places. What it reads of a type it gets from the types inside it and from the declarations that these
name, which correspond again.
-/

namespace SchemaCompiler

open TypeScript

namespace Rewriting

variable {w : Rewriting} {a b : SourceModule} {c c' : Classifier} {d d' : TypeDecl}

/-! ## Reports -/

theorem agree_refuse {s s' : Span} (message : String) :
    Agree SameRef (Classifier.refuse a s message) (Classifier.refuse b s' message) :=
  ⟨rfl, rfl⟩

theorem agree_unsupported {t t' : TypeExpr} (ht : (w.compare a b).SameType t t') (reason : String) :
    Agree SameRef (Classifier.unsupported a t reason) (Classifier.unsupported b t' reason) := by
  have hsnippet : a.snippet t.span = b.snippet t'.span := ht.span.snippet
  rw [Classifier.unsupported, Classifier.unsupported, hsnippet]
  exact agree_refuse _

theorem agree_unmergeable {t t' : TypeExpr} (ht : (w.compare a b).SameType t t') :
    Agree SameSet
      (do
        let _ ← Classifier.unsupported a t "only object types can be merged into an object"
        pure {})
      (do
        let _ ← Classifier.unsupported b t' "only object types can be merged into an object"
        pure {}) :=
  (agree_unsupported ht _).bind fun _ _ _ => .pure rfl

theorem agree_wrongArity {s s' : Span} (u : Utility) :
    Agree SameSet (Classifier.wrongArity a s u) (Classifier.wrongArity b s' u) :=
  (agree_refuse _).bind fun _ _ _ => .pure rfl

theorem agree_ignoredMember {s s' : Span} (message : String) :
    Agree (fun _ _ => True) (Classifier.ignoredMember a s message)
      (Classifier.ignoredMember b s' message) :=
  .report rfl

theorem agree_finishUtility {u : Utility} {keys keys' : Option TypeExpr}
    (hkeys : Option.Rel (w.compare a b).SameType keys keys') {set set' : PropertySet}
    (hset : SameSet set set') :
    Agree SameSet (Classifier.finishUtility a u keys set)
      (Classifier.finishUtility b u keys' set') := by
  cases hkeys with
  | none => exact .pure (hset.applyUtility u [])
  | some ht =>
    rw [Classifier.finishUtility, Classifier.finishUtility]
    simp only [← ht.literalKeys?]
    split
    · exact .pure (hset.applyUtility u _)
    · exact (agree_unsupported ht _).bind fun _ _ _ => .pure hset

theorem sameFields_describeField {s s' : Span} (hs : (w.compare a b).SamePlace s s') (name : String)
    (optional : Bool) {t t' : TypeRef} (ht : SameRef t t') :
    SameFields [Classifier.describeField a s name optional t]
      [Classifier.describeField b s' name optional t'] := by
  have hdoc : a.docAt s.lo = b.docAt s'.lo := hs.doc
  have htype : TypeRef.unplaced t = TypeRef.unplaced t' := ht
  simp only [SameFields, List.map_singleton, Classifier.describeField, Field.unplaced, hdoc, htype]

/-! ## Meanings -/

variable (w) in
/-- Two meanings of a name that is applied to arguments. -/
inductive SameMeaning (a b : SourceModule) : Classifier.Meaning → Classifier.Meaning → Prop where
  | type (t : TypeRef) : SameMeaning a b (.type t) (.type t)
  | refused (message : String) : SameMeaning a b (.refused message) (.refused message)
  | list {element element' : TypeExpr} (h : (w.compare a b).SameType element element') :
    SameMeaning a b (.list element) (.list element')
  | utility (u : Utility) : SameMeaning a b (.utility u) (.utility u)
  | follow {m m' : SourceModule} {body body' : TypeExpr} (hm : w.Counterpart m m')
    (hbody : (w.compare m m').SameType body body') :
    SameMeaning a b (.alias m body) (.alias m' body')

variable {arguments arguments' : List TypeExpr}

theorem read_eq (h : List.Forall₂ (w.compare a b).SameType arguments arguments') :
    ScalarArguments.read a arguments = ScalarArguments.read b arguments' := by
  have hbase : ∀ {t t' : TypeExpr}, (w.compare a b).SameType t t' →
      a.snippet t.span = b.snippet t'.span := fun ht => ht.span.snippet
  have hside : ∀ {t t' : TypeExpr}, (w.compare a b).SameType t t' →
      ScalarArguments.onlyOf? t = ScalarArguments.onlyOf? t' := fun ht => by
    rw [ScalarArguments.onlyOf?, ScalarArguments.onlyOf?, ht.stringLiteral?]
  cases h with
  | nil => rfl
  | cons hname h =>
    cases h with
    | nil => rfl
    | cons hbase' h =>
      cases h with
      | nil => simp only [ScalarArguments.read, hname.stringLiteral?, hbase hbase']
      | cons honly h =>
        cases h with
        | nil =>
          simp only [ScalarArguments.read, hname.stringLiteral?, hbase hbase', hside honly]
        | cons _ _ => rfl

theorem runtimeMeaning?_eq (h : List.Forall₂ (w.compare a b).SameType arguments arguments')
    (name : String) : Option.Rel (w.SameMeaning a b)
      (Classifier.runtimeMeaning? a arguments name)
      (Classifier.runtimeMeaning? b arguments' name) := by
  have heq : Classifier.runtimeMeaning? a arguments name =
      Classifier.runtimeMeaning? b arguments' name := by
    rw [Classifier.runtimeMeaning?, Classifier.runtimeMeaning?, read_eq h]
  rw [← heq]
  cases hfound : Classifier.runtimeMeaning? a arguments name with
  | none => exact .none
  | some found =>
    rcases Classifier.runtimeMeaning?_cases hfound with ⟨use, rfl⟩ | ⟨message, rfl⟩
    · exact .some (.type _)
    · exact .some (.refused message)

theorem sameMeaning_byName (name : String) :
    w.SameMeaning a b (Classifier.plainMeaning.byName name)
      (Classifier.plainMeaning.byName name) := by
  rw [Classifier.plainMeaning.byName]
  split
  · exact .utility _
  · exact .type _

namespace SameClassifier

theorem scalarMeaning? (hc : w.SameClassifier c c') (hab : w.Counterpart a b) {name : EntityName}
    (hname : (w.compare a b).KnownEntity name) {named named' : Named}
    (hnamed : w.SameNamed named named') :
    c.scalarMeaning? a name named = c'.scalarMeaning? b name named' := by
  have hmapped := hc.mappedScalar? hab hname hnamed
  have huse : ∀ found : Option ScalarBinding,
      found.map (fun b => Classifier.Meaning.type (Classifier.scalarType b.use)) =
        (found.map (·.use)).map fun use => .type (Classifier.scalarType use) := by
    intro found
    rw [Option.map_map]
    rfl
  unfold Classifier.scalarMeaning?
  simp only [huse, Option.map_or, hmapped]
  cases hnamed with
  | declared hd => simp only [hc.declared, hd.symbol]
  | _ => rfl

theorem plainMeaning (hc : w.SameClassifier c c')
    (harguments : List.Forall₂ (w.compare a b).SameType arguments arguments') (depth : Nat)
    {named named' : Named} (hnamed : w.SameNamed named named') :
    w.SameMeaning a b (c.plainMeaning arguments depth named)
      (c'.plainMeaning arguments' depth named') := by
  cases hnamed with
  | unknown name =>
    cases harguments with
    | nil => exact sameMeaning_byName name
    | cons hfirst hrest =>
      cases hrest with
      | nil =>
        rw [Classifier.plainMeaning, Classifier.plainMeaning]
        split
        · exact .list hfirst
        · exact sameMeaning_byName name
      | cons _ _ => exact sameMeaning_byName name
  | @declared d d' hd =>
    have hkind := hc.aliasKind hd (depth + 1)
    have hnode := hd.node
    rw [Classifier.plainMeaning, Classifier.plainMeaning, hkind, hd.name]
    generalize d.node = node, d'.node = node' at hnode
    cases hnode with
    | ofInterface => exact .type _
    | ofEnum => exact .type _
    | ofAlias hdecl =>
      simp only
      split
      · exact .follow hd.module hdecl.body
      · exact .type _
  | runtime name => exact .refused _
  | external specifier name => exact .type _

theorem meaning (hc : w.SameClassifier c c') (hab : w.Counterpart a b) {name : EntityName}
    (hname : (w.compare a b).KnownEntity name)
    (harguments : List.Forall₂ (w.compare a b).SameType arguments arguments') (depth : Nat) :
    w.SameMeaning a b (c.meaning a name arguments depth) (c'.meaning b name arguments' depth) := by
  have hnamed := hc.resolveEntity hab hname
  have hscalar := hc.scalarMeaning? hab hname hnamed
  have hplain := hc.plainMeaning harguments depth hnamed
  unfold Classifier.meaning
  simp only
  generalize c.resolveEntity a name = named, c'.resolveEntity b name = named' at *
  rw [← hscalar]
  generalize hfound : c.scalarMeaning? a name named = found
  have hrest : w.SameMeaning a b (found.getD (c.plainMeaning arguments depth named))
      (found.getD (c'.plainMeaning arguments' depth named')) := by
    cases found with
    | none => exact hplain
    | some _ =>
      obtain ⟨use, rfl⟩ := Classifier.scalarMeaning?_cases hfound
      exact .type _
  cases hnamed with
  | runtime runtimeName =>
    have hruntime := runtimeMeaning?_eq harguments runtimeName
    simp only
    generalize Classifier.runtimeMeaning? a arguments runtimeName = x,
      Classifier.runtimeMeaning? b arguments' runtimeName = y at hruntime
    cases hruntime with
    | none => cases found <;> exact hrest
    | some hmeaning => exact hmeaning
  | _ => cases found <;> exact hrest

end SameClassifier

variable (w) in
inductive SameSource : Classifier.Source → Classifier.Source → Prop where
  | declaration {d d' : TypeDecl} (h : w.SameDecl d d') :
    SameSource (.declaration d) (.declaration d')
  | interfaceBody : SameSource .interfaceBody .interfaceBody
  | utility (u : Utility) : SameSource (.utility u) (.utility u)
  | refused : SameSource .refused .refused

theorem SameClassifier.source (hc : w.SameClassifier c c') (hab : w.Counterpart a b)
    {name : EntityName} (hname : (w.compare a b).KnownEntity name) :
    w.SameSource (c.source a name) (c'.source b name) := by
  have hnamed := hc.resolveEntity hab hname
  rw [Classifier.source, Classifier.source]
  generalize c.resolveEntity a name = named, c'.resolveEntity b name = named' at hnamed
  cases hnamed with
  | declared hd => exact .declaration hd
  | runtime name =>
    simp only
    split
    · exact .interfaceBody
    · exact .refused
  | unknown name =>
    simp only
    split
    · exact .utility _
    · exact .refused
  | external specifier name => exact .refused

theorem SameClassifier.ownInterface (hc : w.SameClassifier c c') (hd : w.SameDecl d d')
    (depth : Nat) : c.ownInterface d depth = c'.ownInterface d' depth := by
  rw [Classifier.ownInterface, Classifier.ownInterface, hc.aliasKind hd, hd.name]

theorem SameClassifier.parentDecl? (hc : w.SameClassifier c c') (hab : w.Counterpart a b)
    {parent parent' : Heritage} (hparent : (w.compare a b).SameHeritage parent parent') :
    Option.Rel w.SameDecl (c.parentDecl? a parent) (c'.parentDecl? b parent') := by
  rw [Classifier.parentDecl?, Classifier.parentDecl?, ← hparent.name]
  cases hname : parent.name with
  | none => exact .none
  | some name =>
    have hnamed := hc.resolveLocal hab (hparent.known name hname)
    simp only
    generalize c.resolveLocal a name = named, c'.resolveLocal b name = named' at hnamed
    cases hnamed with
    | declared hd => exact .some hd
    | _ => exact .none

theorem agree_unresolvedParent (hd : w.SameDecl d d') {parent parent' : Heritage}
    (hparent : (w.compare d.module d'.module).SameHeritage parent parent') :
    Agree (fun _ _ => True) (Reported.report (Classifier.unresolvedParent d parent))
      (Reported.report (Classifier.unresolvedParent d' parent')) := by
  have hsnippet : d.module.snippet parent.span = d'.module.snippet parent'.span :=
    hparent.place.snippet
  refine .report ?_
  rw [Classifier.unresolvedParent, Classifier.unresolvedParent, hd.name, hsnippet]
  rfl

/-! ## Types and their properties -/

theorem agree_inlineObject {r r' : Reported PropertySet} (h : Agree SameSet r r') :
    Agree SameRef (do let set ← r; pure (TypeRef.plain (.inlineObject set.fields)))
      (do let set ← r'; pure (TypeRef.plain (.inlineObject set.fields))) :=
  h.bind fun _ _ hset => .pure hset.fields.inlineObject

/-- A union is read alike when its members are. -/
theorem agree_union {depth : Nat} (hdepth : depth ≤ maxDepth) {s s' : Span}
    (hs : (w.compare a b).SamePlace s s') {types types' : List TypeExpr}
    (htypes : List.Forall₂ (w.compare a b).SameType types types')
    (hmember : ∀ t t', (w.compare a b).SameType t t' →
      Agree SameRef (c.classifyAt a t (depth + 1)) (c'.classifyAt b t' (depth + 1))) :
    Agree SameRef (c.classifyAt a (.union s types) depth)
      (c'.classifyAt b (.union s' types') depth) := by
  obtain ⟨hmembers, hflag⟩ := Comparison.SameType.splitNullable htypes
  have hself := Comparison.SameType.union hs htypes
  rcases hsplit : TypeExpr.splitNullable types with ⟨members, nullable⟩
  rcases hsplit' : TypeExpr.splitNullable types' with ⟨members', nullable'⟩
  rw [hsplit, hsplit'] at hmembers hflag
  obtain rfl : nullable = nullable' := hflag
  have hcount := hmembers.length_eq
  rcases hmembers with _ | ⟨hsingle, _ | ⟨hsecond, hmore⟩⟩
  · rw [Classifier.classifyAt_union_nil hdepth s (by rw [hsplit]),
      Classifier.classifyAt_union_nil hdepth s' (by rw [hsplit'])]
    exact agree_unsupported hself _
  · rw [Classifier.classifyAt_union_single hdepth s hsplit,
      Classifier.classifyAt_union_single hdepth s' hsplit']
    exact (hmember _ _ hsingle).bind fun _ _ hinner => .pure (hinner.orNullable nullable)
  · have hparts := List.Forall₂.cons hsingle (.cons hsecond hmore)
    have hliterals := all_eq_of_forall₂ hparts fun t t' ht =>
      Comparison.SameType.isBooleanLiteral ht
    rw [Classifier.classifyAt_union_several hdepth s (by rw [hsplit]; simp),
      Classifier.classifyAt_union_several hdepth s' (by rw [hsplit']; simp), hsplit, hsplit',
      hliterals, hcount]
    split
    · exact .pure rfl
    · refine (Agree.each (hparts.imp hmember)).bind fun _ _ hvalues => .pure ?_
      exact (SameRef.union hvalues).orNullable nullable

theorem agree_keyword {depth : Nat} (hdepth : depth ≤ maxDepth) {s s' : Span}
    (hs : (w.compare a b).SamePlace s s') (word : Keyword) :
    Agree SameRef (c.classifyAt a (.keyword s word) depth)
      (c'.classifyAt b (.keyword s' word) depth) := by
  have hrefused := @agree_unsupported w a b _ _ (.keyword hs word)
  rw [Classifier.classifyAt_keyword hdepth, Classifier.classifyAt_keyword hdepth]
  cases word with
  | string | number | boolean => exact .pure rfl
  | _ => exact hrefused _

theorem agree_literal {depth : Nat} (hdepth : depth ≤ maxDepth) {s s' : Span}
    (hs : (w.compare a b).SamePlace s s') (value : TypeLiteral) :
    Agree SameRef (c.classifyAt a (.literal s value) depth)
      (c'.classifyAt b (.literal s' value) depth) := by
  have hrefused := @agree_unsupported w a b _ _ (.literal hs value)
  rw [Classifier.classifyAt_literal hdepth, Classifier.classifyAt_literal hdepth]
  cases value with
  | other => exact hrefused _
  | _ => exact .pure rfl

namespace SameClassifier

mutual

theorem classifyAt (hc : w.SameClassifier c c') {a b : SourceModule} (hab : w.Counterpart a b)
    {t t' : TypeExpr} (ht : (w.compare a b).SameType t t') (depth : Nat) :
    Agree SameRef (c.classifyAt a t depth) (c'.classifyAt b t' depth) := by
  by_cases hdepth : depth ≤ maxDepth
  · have hroom := Classifier.room_succ_lt (Nat.not_lt.mpr hdepth)
    match t, t', ht with
    | .paren _ inner, .paren _ inner', .paren _ hinner =>
      rw [Classifier.classifyAt_paren hdepth, Classifier.classifyAt_paren hdepth]
      exact classifyAt hc hab hinner depth
    | .readonly _ inner, .readonly _ inner', .readonly _ hinner =>
      rw [Classifier.classifyAt_readonly hdepth, Classifier.classifyAt_readonly hdepth]
      exact classifyAt hc hab hinner depth
    | .union s types, .union s' types', .union hs htypes =>
      exact agree_union hdepth hs htypes fun u u' hu => classifyAt hc hab hu (depth + 1)
    | .intersection s types, .intersection s' types', .intersection hs htypes =>
      rw [Classifier.classifyAt_intersection hdepth, Classifier.classifyAt_intersection hdepth]
      exact agree_inlineObject (typeProperties hc hab (.intersection hs htypes) (depth + 1))
    | .object s members, .object s' members', .object hs hmembers =>
      rw [Classifier.classifyAt_object hdepth, Classifier.classifyAt_object hdepth]
      exact agree_inlineObject (typeProperties hc hab (.object hs hmembers) (depth + 1))
    | .array s element, .array s' element', .array _ helement =>
      rw [Classifier.classifyAt_array hdepth, Classifier.classifyAt_array hdepth]
      exact (classifyAt hc hab helement (depth + 1)).bind fun _ _ hinner => .pure hinner.array
    | .keyword s word, .keyword s' _, .keyword hs _ => exact agree_keyword hdepth hs word
    | .literal s value, .literal s' _, .literal hs _ => exact agree_literal hdepth hs value
    | .reference s name arguments, .reference s' _ arguments', .reference hs hname harguments =>
      rw [Classifier.classifyAt_reference hdepth, Classifier.classifyAt_reference hdepth]
      have hmeaning := hc.meaning hab hname harguments depth
      generalize c.meaning a name arguments depth = x, c'.meaning b name arguments' depth = y
        at hmeaning
      cases hmeaning with
      | type found => exact .pure rfl
      | refused message => exact agree_refuse message
      | list helement =>
        exact (classifyAt hc hab helement (depth + 1)).bind fun _ _ hinner => .pure hinner.array
      | utility u =>
        exact agree_inlineObject (utilityProperties hc hab harguments u (depth + 1))
      | follow hm hbody => exact classifyAt hc hm hbody (depth + 1)
    | .other s, .other s', .other hs =>
      rw [Classifier.classifyAt_other hdepth, Classifier.classifyAt_other hdepth]
      exact agree_unsupported (.other hs) _
  · rw [Classifier.classifyAt_too_deep (Nat.not_le.mp hdepth),
      Classifier.classifyAt_too_deep (Nat.not_le.mp hdepth)]
    exact agree_unsupported ht _
termination_by (Classifier.room depth, sizeOf t, 0)
decreasing_by
  all_goals
    first
    | (apply Prod.Lex.left; omega)
    | (apply Prod.Lex.right; apply Prod.Lex.left; simp +arith)

/-- Own properties and those of the parents, which correspond again. -/
theorem declProperties (hc : w.SameClassifier c c') {d d' : TypeDecl} (hd : w.SameDecl d d')
    (depth : Nat) : Agree SameSet (c.declProperties d depth) (c'.declProperties d' depth) := by
  by_cases hdepth : depth ≤ maxDepth
  · have hroom := Classifier.room_succ_lt (Nat.not_lt.mpr hdepth)
    rcases hleft : d.node with i | decl | e <;> rcases hright : d'.node with i' | decl' | e' <;>
      have hnode := hd.node <;> rw [hleft, hright] at hnode <;> cases hnode
    case ofInterface hi =>
      rw [Classifier.declProperties_interface hdepth hleft,
        Classifier.declProperties_interface hdepth hright]
      have hinherited : List.Forall₂ (fun parent parent' =>
          Agree SameSet (c.inheritance d depth parent) (c'.inheritance d' depth parent'))
          i.parents i'.parents := by
        refine hi.parents.imp fun parent parent' hparent => ?_
        have htarget := hc.parentDecl? hd.module hparent
        rw [Classifier.inheritance, Classifier.inheritance]
        generalize c.parentDecl? d.module parent = x, c'.parentDecl? d'.module parent' = y
          at htarget
        cases htarget with
        | none => exact (agree_unresolvedParent hd hparent).bind fun _ _ _ => .pure rfl
        | some he =>
          simp only
          rw [hc.ownInterface he]
          exact (declProperties hc he (depth + 1)).bind fun _ _ hfound =>
            .pure (SameSet.merge rfl hfound)
      exact (memberFields hc hd.module hi.members (depth + 1)).bind fun _ _ hown =>
        (Agree.each hinherited).bind fun _ _ hsets =>
          .pure (SameSet.foldl_merge hsets (congrArg (PropertySet.mk · []) hown))
    case ofAlias hdecl =>
      rw [Classifier.declProperties_alias hdepth hleft,
        Classifier.declProperties_alias hdepth hright]
      exact typeProperties hc hd.module hdecl.body (depth + 1)
    case ofEnum =>
      rw [Classifier.declProperties_enum hdepth hleft, Classifier.declProperties_enum hdepth hright]
      exact .pure rfl
  · rw [Classifier.declProperties_too_deep (Nat.not_le.mp hdepth),
      Classifier.declProperties_too_deep (Nat.not_le.mp hdepth)]
    exact .pure rfl
termination_by (Classifier.room depth - 1, 0, 0)
decreasing_by
  all_goals
    apply Prod.Lex.left
    omega

theorem typeProperties (hc : w.SameClassifier c c') {a b : SourceModule} (hab : w.Counterpart a b)
    {t t' : TypeExpr} (ht : (w.compare a b).SameType t t') (depth : Nat) :
    Agree SameSet (c.typeProperties a t depth) (c'.typeProperties b t' depth) := by
  rw [Classifier.typeProperties, Classifier.typeProperties]
  exact partProperties hc hab ht.mergeOrder rfl depth
termination_by (Classifier.room depth, sizeOf t, 3)
decreasing_by
  have hsize := Classifier.totalSize_mergeOrder_le t
  rcases Nat.lt_or_eq_of_le hsize with hlt | heq
  · exact .right _ (.left _ _ hlt)
  · exact heq ▸ .right _ (.right _ (by decide))

theorem partProperties (hc : w.SameClassifier c c') {a b : SourceModule} (hab : w.Counterpart a b)
    {parts parts' : List TypeExpr} (hparts : List.Forall₂ (w.compare a b).SameType parts parts')
    {set set' : PropertySet} (hset : SameSet set set') (depth : Nat) :
    Agree SameSet (c.partProperties a parts set depth)
      (c'.partProperties b parts' set' depth) := by
  match parts, parts', hparts with
  | [], [], _ =>
    rw [Classifier.partProperties, Classifier.partProperties]
    exact .pure hset
  | t :: rest, t' :: rest', .cons ht hrest =>
    rw [Classifier.partProperties_cons, Classifier.partProperties_cons]
    exact (contribution hc hab ht depth).bind fun _ _ hfound =>
      partProperties hc hab hrest (hset.merge hfound) depth
termination_by (Classifier.room depth, TypeExpr.totalSize parts, 2)
decreasing_by
  · simp only [TypeExpr.totalSize]
    rcases Nat.eq_zero_or_pos (TypeExpr.totalSize rest) with hzero | hpos
    · rw [hzero]
      exact .right _ (.right _ (by decide))
    · exact .right _ (.left _ _ (by omega))
  · exact Classifier.lex_of_le_of_lt (Nat.le_refl _) (TypeExpr.totalSize_lt_cons _ _)

theorem contribution (hc : w.SameClassifier c c') {a b : SourceModule} (hab : w.Counterpart a b)
    {t t' : TypeExpr} (ht : (w.compare a b).SameType t t') (depth : Nat) :
    Agree SameSet (c.contribution a t depth) (c'.contribution b t' depth) := by
  match t, t', ht with
  | .object s members, .object s' members', .object hs hmembers =>
    rw [Classifier.contribution, Classifier.contribution]
    exact (memberFields hc hab hmembers (depth + 1)).bind fun _ _ hfields =>
      .pure (congrArg (PropertySet.mk · []) hfields)
  | .reference s name arguments, .reference s' _ arguments', .reference hs hname harguments =>
    rw [Classifier.contribution, Classifier.contribution]
    exact referenceProperties hc hab hs hname harguments (depth + 1)
  | _, _, .keyword hs word => exact agree_unmergeable (.keyword hs word)
  | _, _, .literal hs value => exact agree_unmergeable (.literal hs value)
  | _, _, .array hs helement => exact agree_unmergeable (.array hs helement)
  | _, _, .union hs htypes => exact agree_unmergeable (.union hs htypes)
  | _, _, .intersection hs htypes => exact agree_unmergeable (.intersection hs htypes)
  | _, _, .paren hs hinner => exact agree_unmergeable (.paren hs hinner)
  | _, _, .readonly hs hinner => exact agree_unmergeable (.readonly hs hinner)
  | _, _, .other hs => exact agree_unmergeable (.other hs)
termination_by (Classifier.room depth, sizeOf t, 1)
decreasing_by
  all_goals exact Classifier.lex_of_le_of_lt (Classifier.room_succ_le _) (by simp +arith)

theorem referenceProperties (hc : w.SameClassifier c c') {a b : SourceModule}
    (hab : w.Counterpart a b) {s s' : Span} (hs : (w.compare a b).SamePlace s s')
    {name : EntityName} (hname : (w.compare a b).KnownEntity name)
    {arguments arguments' : List TypeExpr}
    (harguments : List.Forall₂ (w.compare a b).SameType arguments arguments') (depth : Nat) :
    Agree SameSet (c.referenceProperties a s name arguments depth)
      (c'.referenceProperties b s' name arguments' depth) := by
  have hsource := hc.source hab hname
  rw [Classifier.referenceProperties.eq_def, Classifier.referenceProperties.eq_def]
  generalize c.source a name = x, c'.source b name = y at hsource
  cases hsource with
  | declaration hd =>
    simp only
    rw [hc.ownInterface hd]
    exact (declProperties hc hd depth).bind fun _ _ hfound => .pure (SameSet.merge rfl hfound)
  | interfaceBody =>
    match arguments, arguments', harguments with
    | [], [], _ => exact .pure rfl
    | t :: _, t' :: _, .cons ht _ => exact typeProperties hc hab ht depth
  | utility u => exact utilityProperties hc hab harguments u depth
  | refused =>
    have hsnippet : a.snippet s = b.snippet s' := hs.snippet
    simp only
    rw [hsnippet]
    exact (agree_refuse _).bind fun _ _ _ => .pure rfl
termination_by (Classifier.room depth, sizeOf arguments, 1)
decreasing_by
  · exact .left _ _ (by unfold Classifier.room; omega)
  · exact Classifier.lex_of_le_of_lt (Nat.le_refl _) (by simp +arith)
  · exact .right _ (.right _ (by decide))

theorem utilityProperties (hc : w.SameClassifier c c') {a b : SourceModule}
    (hab : w.Counterpart a b) {arguments arguments' : List TypeExpr}
    (harguments : List.Forall₂ (w.compare a b).SameType arguments arguments') {s s' : Span}
    (u : Utility) (depth : Nat) :
    Agree SameSet (c.utilityProperties a s arguments u depth)
      (c'.utilityProperties b s' arguments' u depth) := by
  match arguments, arguments', harguments with
  | [], [], _ =>
    rw [Classifier.utilityProperties, Classifier.utilityProperties]
    exact agree_wrongArity u
  | t :: rest, t' :: rest', .cons ht hrest =>
    have hlength : (t :: rest).length = (t' :: rest').length := by
      rw [List.length_cons, List.length_cons, hrest.length_eq]
    have hkeys : Option.Rel (w.compare a b).SameType rest.head? rest'.head? := by
      cases hrest with
      | nil => exact .none
      | cons hfirst _ => exact .some hfirst
    rw [Classifier.utilityProperties, Classifier.utilityProperties, hlength]
    split
    · exact agree_wrongArity u
    · exact (typeProperties hc hab ht (depth + 1)).bind fun _ _ hset =>
        agree_finishUtility hkeys hset
termination_by (Classifier.room depth, sizeOf arguments, 0)
decreasing_by
  exact Classifier.lex_of_le_of_lt (Classifier.room_succ_le _) (by simp +arith)

theorem memberFields (hc : w.SameClassifier c c') {a b : SourceModule} (hab : w.Counterpart a b)
    {members members' : List Member}
    (hmembers : List.Forall₂ (w.compare a b).SameMember members members') (depth : Nat) :
    Agree SameFields (c.memberFields a members depth) (c'.memberFields b members' depth) := by
  match members, members', hmembers with
  | [], [], _ =>
    rw [Classifier.memberFields, Classifier.memberFields]
    exact .pure rfl
  | member :: rest, member' :: rest', .cons hmember hrest =>
    rw [Classifier.memberFields_cons, Classifier.memberFields_cons]
    exact (memberField hc hab hmember depth).bind fun _ _ hfound =>
      (memberFields hc hab hrest depth).bind fun _ _ hfields => .pure (hfound.append hfields)
termination_by (Classifier.room depth, sizeOf members, 0)
decreasing_by
  all_goals exact Classifier.lex_of_le_of_lt (Nat.le_refl _) (by simp +arith)

theorem memberField (hc : w.SameClassifier c c') {a b : SourceModule} (hab : w.Counterpart a b)
    {member member' : Member} (hmember : (w.compare a b).SameMember member member') (depth : Nat) :
    Agree (fun found found' => SameFields found.toList found'.toList)
      (c.memberField? a depth member) (c'.memberField? b depth member') := by
  match member, member', hmember with
  | .property s key optional (some t), .property s' _ _ (some t'), .typed hs _ _ ht =>
    cases key with
    | computed => exact (agree_refuse _).bind fun _ _ _ => .pure rfl
    | fixed name =>
      exact (classifyAt hc hab ht (depth + 1)).bind fun _ _ hfound =>
        .pure (sameFields_describeField hs name optional hfound)
  | _, _, .untyped hs key optional =>
    cases key with
    | computed => exact (agree_refuse _).bind fun _ _ _ => .pure rfl
    | fixed name =>
      exact (agree_refuse _).bind fun _ _ hfound =>
        .pure (sameFields_describeField hs name optional hfound)
  | _, _, .index _ => exact (agree_ignoredMember _).bind fun _ _ _ => .pure rfl
  | _, _, .method _ => exact (agree_ignoredMember _).bind fun _ _ _ => .pure rfl
  | _, _, .other => exact .pure rfl
termination_by (Classifier.room depth, sizeOf member, 0)
decreasing_by
  exact Classifier.lex_of_le_of_lt (Classifier.room_succ_le _) (by simp +arith)

end

end SameClassifier

end Rewriting

end SchemaCompiler

import SchemaCompiler.Proofs.Shape.AliasKind
import SchemaCompiler.Proofs.Shape.FieldTypes

/-!
# Which aliases the classifier keeps the names of

An alias becomes a type of the schema when `aliasKind` finds at depth 0 that it is a type of its own.
The classifier asks again wherever it meets the name, with less depth left, and where the depth is too
short it follows the alias instead, until it runs out of depth and reports it.

One thing can come in between. The classifier asks of every name whether the configuration maps it to
a scalar, and stops there; `aliasKind` follows a name without asking. So an alias that is a type of
its own at depth 0 may be followed near the end of the depth to a mapped name behind it, and is then
read as that scalar without a report. Everywhere else the two agree.
-/

namespace SchemaCompiler

open TypeScript

namespace Classifier

variable {c : Classifier} {m : SourceModule} {d : TypeDecl} {a : Alias}

/-! ## Names of aliases -/

/-- A name that is no scalar has its plain meaning. -/
theorem meaning_of_declared {name : EntityName} (hname : c.resolveEntity m name = .declared d)
    (hscalar : c.isDeclaredScalar d = false) (hmapped : c.mappedScalar? m name (.declared d) = none)
    (arguments : List TypeExpr) (depth : Nat) :
    c.meaning m name arguments depth = c.plainMeaning arguments depth (.declared d) := by
  have hdeclared : c.scalars.declared? d.symbol = none := by
    simpa [isDeclaredScalar] using hscalar
  simp only [meaning, hname, scalarMeaning?, hdeclared, hmapped, Option.or_none, Option.map_none]

theorem classifyAt_alias {name : EntityName} {depth : Nat} (hdepth : depth ≤ maxDepth)
    (hname : c.resolveEntity m name = .declared d) (hnode : d.node = .alias a)
    (hscalar : c.isDeclaredScalar d = false) (hmapped : c.mappedScalar? m name (.declared d) = none)
    (s : Span) (arguments : List TypeExpr) :
    c.classifyAt m (.reference s name arguments) depth =
      if c.aliasKind d (depth + 1) = .transparent then c.classifyAt d.module a.body (depth + 1)
      else pure (.reference d.name) := by
  rw [classifyAt_reference hdepth, meaning_of_declared hname hscalar hmapped, plainMeaning, hnode]
  simp only
  split
  · rfl
  · rfl

theorem le_maxDepth_of_quiet {t : TypeExpr} {depth : Nat}
    (hquiet : (c.classifyAt m t depth).diagnostics = []) : depth ≤ maxDepth :=
  Nat.not_lt.mp fun hdeep => classifyAt_deep hdeep t hquiet

/-! ## Mapped names behind aliases -/

/-- The alias comes to a name that the configuration maps to a scalar, with `n` aliases in
between. -/
inductive ReachesMapped (c : Classifier) : TypeDecl → Nat → Prop where
  | mapped {d : TypeDecl} {a : Alias} {s : Span} {name : EntityName} {arguments : List TypeExpr}
      (hnode : d.node = .alias a) (hbody : a.body.stripParens = .reference s name arguments)
      (hmapped : c.mappedScalar? d.module name (c.resolveEntity d.module name) ≠ none) :
      ReachesMapped c d 0
  | next {d target : TypeDecl} {a : Alias} {s : Span} {name : EntityName}
      {arguments : List TypeExpr} {n : Nat} (hnode : d.node = .alias a)
      (hbody : a.body.stripParens = .reference s name arguments)
      (hname : c.resolveEntity d.module name = .declared target)
      (htarget : ReachesMapped c target n) : ReachesMapped c d (n + 1)

/-- The alias has fields when it is looked into at depth `near`. At depth `far` there is too little
depth left to find them, but enough to come to a mapped name. -/
structure Hides (c : Classifier) (d : TypeDecl) (near far : Nat) : Prop where
  fields : ∃ n, c.StandsFor d n ∧ near + n ≤ maxDepth ∧ maxDepth < far + n
  mapped : ∃ n, c.ReachesMapped d n ∧ far + n ≤ maxDepth

/-- Reading on without a report where too little depth is left comes to a mapped name. -/
theorem StandsFor.reachesMapped {n e : Nat} (h : c.StandsFor d n) (hnode : d.node = .alias a)
    (hdeep : maxDepth < e + n) (hquiet : (c.classifyAt d.module a.body e).diagnostics = []) :
    ∃ k, c.ReachesMapped d k ∧ e + k ≤ maxDepth := by
  have he := le_maxDepth_of_quiet hquiet
  induction h generalizing a e with
  | fields => omega
  | @next d target _ s name arguments n hnode' hscalar hbody hname hstands ih =>
    cases hnode.symm.trans hnode'
    obtain ⟨b, hb, hplain⟩ := hstands.alias
    by_cases hmapped : c.mappedScalar? d.module name (.declared target) = none
    · have hkind : c.aliasKind target (e + 1) = .transparent := hstands.aliasKind_eq (by omega)
      rw [classifyAt_stripParens he, hbody, classifyAt_alias he hname hb hplain hmapped,
        if_pos hkind] at hquiet
      obtain ⟨k, hk, hle⟩ := ih hb (by omega) hquiet (le_maxDepth_of_quiet hquiet)
      exact ⟨k + 1, .next hnode hbody hname hk, by omega⟩
    · exact ⟨0, .mapped hnode hbody (hname ▸ hmapped), he⟩

theorem hides_of_hasFields {near far : Nat} (hnode : d.node = .alias a)
    (h : (c.aliasKind d near).hasFields = true) (h' : ¬ (c.aliasKind d far).hasFields = true)
    (hquiet : (c.classifyAt d.module a.body far).diagnostics = []) : c.Hides d near far := by
  obtain ⟨n, hn, hnear⟩ := (hasFields_aliasKind_iff c d near).mp h
  have hfar : maxDepth < far + n :=
    Nat.lt_of_not_le fun hle => h' ((hasFields_aliasKind_iff c d far).mpr ⟨n, hn, hle⟩)
  exact ⟨⟨n, hn, hnear, hfar⟩, hn.reachesMapped hnode hfar hquiet⟩

theorem Hides.aliasKind {near far : Nat} (h : c.Hides d near far) :
    (c.aliasKind d near).hasFields = true ∧ c.aliasKind d far = .transparent := by
  obtain ⟨n, hn, hnear, hfar⟩ := h.fields
  exact ⟨(hasFields_aliasKind_iff c d near).mpr ⟨n, hn, hnear⟩, hn.aliasKind_eq hfar⟩

/-! ## Aliases that are lost -/

/-- At `depth` a mapped name hides that the alias is a type of its own: the alias has fields, or is a
union and a member of it has. -/
inductive Overlooked (c : Classifier) (d : TypeDecl) (depth : Nat) : Prop where
  | fields (h : c.Hides d 0 depth)
  | member {a : Alias} {s s' : Span} {types arguments : List TypeExpr} {t : TypeExpr}
      {name : EntityName} {target : TypeDecl} (hunion : c.aliasKind d 0 = .union)
      (hnode : d.node = .alias a) (hbody : a.body.stripParens = .union s types)
      (ht : t ∈ (TypeExpr.splitNullable types).1)
      (hmember : t.stripParens = .reference s' name arguments)
      (hname : c.resolveEntity d.module name = .declared target)
      (h : c.Hides target 2 (depth + 2))

/-- A member of a union of objects that names an alias is no mapped name, and the alias has fields. -/
theorem isObjectLikeBy_alias {kind : TypeDecl → AliasKind} {t : TypeExpr} {s : Span}
    {name : EntityName} {arguments : List TypeExpr} {target : TypeDecl} {b : Alias}
    (ht : t.stripParens = .reference s name arguments)
    (hname : c.resolveEntity m name = .declared target) (hnode : target.node = .alias b) :
    c.isObjectLikeBy kind m t = true ↔
      c.mappedScalar? m name (.declared target) = none ∧ (kind target).hasFields = true := by
  cases hmapped : c.mappedScalar? m name (.declared target) <;>
    simp [isObjectLikeBy, ht, hname, hnode, hmapped]

/-- A union of string literals is an enum; any other one depends on what its members are like. -/
theorem unionKind_cases (types : List TypeExpr) :
    (∀ like, unionKind like types = .enum) ∨
      ∀ like, unionKind like types =
        if 2 ≤ (TypeExpr.splitNullable types).1.length ∧
          ∀ t ∈ (TypeExpr.splitNullable types).1, like t = true then .union else .transparent := by
  by_cases henum : (decide (types.length ≥ 2) && !(TypeExpr.splitNullable types).1.isEmpty &&
      (TypeExpr.splitNullable types).1.all (·.stringLiteral?.isSome)) = true
  · exact Or.inl fun like => if_pos henum
  · refine Or.inr fun like => (if_neg henum).trans ?_
    simp only [Bool.and_eq_true, decide_eq_true_eq, List.all_eq_true, ge_iff_le]

theorem aliasKind_union {e : Nat} {s : Span} {types : List TypeExpr} (hnode : d.node = .alias a)
    (hscalar : c.isDeclaredScalar d = false) (he : e ≤ maxDepth)
    (hbody : a.body.stripParens = .union s types) :
    c.aliasKind d e =
      unionKind (c.isObjectLikeBy (fun target => c.aliasKind target (e + 2)) d.module) types := by
  rw [aliasKind_alias hnode hscalar he, hbody]

/-- An alias that is overlooked is a type of its own, and taken for transparent. -/
theorem Overlooked.aliasKind {depth : Nat} (h : c.Overlooked d depth)
    (hscalar : c.isDeclaredScalar d = false) :
    c.aliasKind d 0 ≠ .transparent ∧ c.aliasKind d depth = .transparent := by
  cases h with
  | fields h =>
    refine ⟨fun heq => ?_, h.aliasKind.2⟩
    have hfields := h.aliasKind.1
    rw [heq] at hfields
    cases hfields
  | @member _ s s' types arguments t name target hunion hnode hbody ht hmember hname h =>
    refine ⟨by simp [hunion], ?_⟩
    obtain ⟨hnear, hfar⟩ := h.aliasKind
    obtain ⟨-, -, b, hb⟩ := alias_of_hasFields hnear
    have hdepth : depth ≤ maxDepth := by
      obtain ⟨k, -, hle⟩ := h.mapped
      omega
    rw [aliasKind_union hnode hscalar hdepth hbody]
    rw [aliasKind_union hnode hscalar (Nat.zero_le _) hbody] at hunion
    rcases unionKind_cases types with henum | hlike
    · rw [henum] at hunion
      cases hunion
    · rw [hlike, if_neg]
      rintro ⟨-, hall⟩
      have hfields := ((isObjectLikeBy_alias hmember hname hb).mp (hall t ht)).2
      rw [hfar] at hfields
      cases hfields

/-- An alias of a union that changes with the depth is a union, and all its members have fields. -/
theorem union_of_aliasKind_ne {depth : Nat} {s : Span} {types : List TypeExpr}
    (hnode : d.node = .alias a) (hscalar : c.isDeclaredScalar d = false)
    (hbody : a.body.stripParens = .union s types) (hdepth : depth ≤ maxDepth)
    (hown : c.aliasKind d 0 ≠ .transparent) (hfollowed : c.aliasKind d depth = .transparent) :
    c.aliasKind d 0 = .union ∧ ∀ t ∈ (TypeExpr.splitNullable types).1,
      c.isObjectLikeBy (fun target => c.aliasKind target 2) d.module t = true := by
  rw [aliasKind_union hnode hscalar (Nat.zero_le _) hbody] at hown ⊢
  rw [aliasKind_union hnode hscalar hdepth hbody] at hfollowed
  rcases unionKind_cases types with henum | hlike
  · rw [henum] at hfollowed
    cases hfollowed
  · rw [hlike] at hown ⊢
    split at hown
    · rename_i hall
      exact ⟨if_pos hall, hall.2⟩
    · exact absurd rfl hown

/-- A union that is read without a report has a member that is no literal, read in the same way, and
is no reference. -/
theorem member_of_quiet_union {depth : Nat} {s : Span} {types : List TypeExpr} {t : TypeExpr}
    (hdepth : depth ≤ maxDepth) (hseveral : 2 ≤ (TypeExpr.splitNullable types).1.length)
    (ht : t ∈ (TypeExpr.splitNullable types).1) (hliteral : t.isBooleanLiteral = false)
    (hquiet : (c.classifyAt m (.union s types) depth).diagnostics = []) :
    (c.classifyAt m t (depth + 1)).diagnostics = [] ∧
      ∀ name, (c.classifyAt m (.union s types) depth).value ≠ .reference name := by
  have hno : ¬ ((TypeExpr.splitNullable types).1.length == 2 &&
      (TypeExpr.splitNullable types).1.all (·.isBooleanLiteral)) = true := by
    intro hall
    have := List.all_eq_true.mp (Bool.and_eq_true_iff.mp hall).2 t ht
    rw [hliteral] at this
    cases this
  rw [classifyAt_union_several hdepth s hseveral, if_neg hno] at hquiet ⊢
  simp only [Reported.diagnostics_bind, Reported.diagnostics_pure, List.append_nil,
    Reported.diagnostics_each, List.flatMap_eq_nil_iff] at hquiet
  refine ⟨hquiet t ht, fun name heq => ?_⟩
  cases congrArg Nullable.shape heq

/-- An alias that is a type of its own, and is followed without a report, is overlooked; what is
read of it is no reference. -/
theorem overlooked_of_quiet {depth : Nat} (hnode : d.node = .alias a)
    (hscalar : c.isDeclaredScalar d = false) (hown : c.aliasKind d 0 ≠ .transparent)
    (hfollowed : c.aliasKind d depth = .transparent)
    (hquiet : (c.classifyAt d.module a.body depth).diagnostics = []) :
    c.Overlooked d depth ∧ c.aliasKind d 0 ≠ .scalar ∧
      ∀ name, (c.classifyAt d.module a.body depth).value ≠ .reference name := by
  have hdepth := le_maxDepth_of_quiet hquiet
  rcases namesChange_of_aliasKind hnode (Nat.zero_le _) hdepth hown hfollowed with
    hchange | ⟨s, types, hbody, hseveral, t, ht, hchange⟩
  · obtain ⟨s, name, arguments, target, b, hbody, hname, -, hk, -⟩ := id hchange
    have hfields : (c.aliasKind d 0).hasFields = true :=
      (hasFields_aliasKind_step hnode hscalar (Nat.zero_le _)).mpr
        (Or.inr ⟨s, name, arguments, target, hbody, hname, hk⟩)
    refine ⟨.fields (hides_of_hasFields hnode hfields (by rw [hfollowed]; decide) hquiet), ?_, ?_⟩
    · intro heq
      rw [heq] at hfields
      cases hfields
    · intro name heq
      rcases unsettled_of_namesChange hchange with hreported | ⟨use, hshape⟩
      · exact hreported hquiet
      · rw [heq] at hshape
        cases hshape
  · obtain ⟨s', name, arguments, target, b, hmember, hname, hb, hk, hk'⟩ := hchange
    obtain ⟨hunion, hlike⟩ := union_of_aliasKind_ne hnode hscalar hbody hdepth hown hfollowed
    obtain ⟨hmapped, -⟩ := (isObjectLikeBy_alias hmember hname hb).mp (hlike t ht)
    rw [classifyAt_stripParens hdepth, hbody] at hquiet ⊢
    obtain ⟨hpart, hread⟩ := member_of_quiet_union hdepth hseveral ht
      (by rw [TypeExpr.isBooleanLiteral, hmember]) hquiet
    -- the member is followed in turn, and hides its fields
    have hnext := le_maxDepth_of_quiet hpart
    rw [classifyAt_stripParens hnext, hmember,
      classifyAt_alias hnext hname hb (alias_of_hasFields hk).2.1 hmapped,
      if_pos (unsettled_of_hasFields hb hk hk').1] at hpart
    refine ⟨?_, by rw [hunion]; decide, hread⟩
    exact .member hunion hnode hbody ht hmember hname (hides_of_hasFields hb hk hk' hpart)

/-! ## The two readings -/

/-- What the classifier makes of the name of an alias at a depth, as the schema needs it: its name
where the alias is a type of its own, and the body of the alias where it is transparent. -/
structure Agrees (c : Classifier) (d : TypeDecl) (a : Alias) (depth : Nat)
    (found : Reported TypeRef) : Prop where
  type : c.aliasKind d 0 ∈ [AliasKind.object, .graphqlInterface, .enum, .union] →
    found.value = .reference d.name
  name : c.aliasKind d 0 = .transparent → found = c.classifyAt d.module a.body (depth + 1)

/-- The classifier and `aliasKind` agree on every alias that is read without a report, unless a
mapped name hides it. -/
theorem agrees_iff_not_overlooked {name : EntityName} {depth : Nat}
    (hname : c.resolveEntity m name = .declared d) (hnode : d.node = .alias a)
    (hscalar : c.isDeclaredScalar d = false)
    (hmapped : c.mappedScalar? m name (.declared d) = none) (s : Span) (arguments : List TypeExpr)
    (hquiet : (c.classifyAt m (.reference s name arguments) depth).diagnostics = []) :
    c.Agrees d a depth (c.classifyAt m (.reference s name arguments) depth) ↔
      ¬ c.Overlooked d (depth + 1) := by
  have hdepth := le_maxDepth_of_quiet hquiet
  rw [classifyAt_alias hdepth hname hnode hscalar hmapped] at hquiet ⊢
  by_cases hfollowed : c.aliasKind d (depth + 1) = .transparent
  · rw [if_pos hfollowed] at hquiet ⊢
    by_cases hown : c.aliasKind d 0 = .transparent
    · refine iff_of_true ⟨fun htype => ?_, fun _ => rfl⟩ fun h => (h.aliasKind hscalar).1 hown
      simp [hown] at htype
    · obtain ⟨hoverlooked, hplain, hread⟩ := overlooked_of_quiet hnode hscalar hown hfollowed hquiet
      refine iff_of_false (fun h => hread d.name (h.type ?_)) (not_not_intro hoverlooked)
      cases hkind : c.aliasKind d 0 <;> simp_all
  · rw [if_neg hfollowed]
    refine iff_of_true ⟨fun _ => rfl, fun hown => ?_⟩ fun h => hfollowed (h.aliasKind hscalar).2
    exact absurd hown (aliasKind_mono (Nat.zero_le _) hfollowed)

end Classifier

/-! ## An alias of a mapped type -/

namespace Sample

attribute [local irreducible] String.decEq

/-- An alias of a type with fields. -/
def pointModule : SourceModule :=
  sourceModule [typeAlias "Point" (object [property "x" (keyword .string)]),
    typeAlias "Place" (named "Point")] []

def placeAlias : Alias := ⟨span, "Place", false, named "Point"⟩

def placeDecl : TypeDecl := ⟨pointModule, "Place", .alias placeAlias, 0⟩

/-- A configuration that maps the type to a scalar, and so says nothing of the alias. -/
def pointMapping : ScalarMapping := ⟨"Position", "Point", none, none, none⟩

def pointClassifier : Classifier := configured [pointMapping] pointModule

theorem resolve_place :
    pointClassifier.resolveEntity pointModule (.ident "Place") = .declared placeDecl := by
  cbv

theorem not_declared_place : pointClassifier.isDeclaredScalar placeDecl = false := by
  cbv

theorem mappedScalar_place :
    pointClassifier.mappedScalar? pointModule (.ident "Place") (.declared placeDecl) = none := by
  cbv

theorem aliasKind_place : pointClassifier.aliasKind placeDecl 0 = .object := by
  cbv

theorem classifyAt_place :
    pointClassifier.classifyAt pointModule (named "Place") 0 = ⟨.reference "Place", []⟩ := by
  cbv

/-- Near the end of the depth the name is read as the scalar. -/
theorem classifyAt_place_deep :
    pointClassifier.classifyAt pointModule (named "Place") 31 =
      ⟨Classifier.scalarType ⟨"Position", "Point", none, true, none⟩, []⟩ := by
  cbv

/-- Lists in lists, `n` deep. -/
def lists : Nat → TypeExpr → TypeExpr
  | 0, t => t
  | n + 1, t => .array span (lists n t)

/-- Each list is one step towards the end of the depth. -/
theorem diagnostics_classifyAt_lists (c : Classifier) (m : SourceModule) (n : Nat) (t : TypeExpr)
    {depth : Nat} (h : depth + n ≤ maxDepth) :
    (c.classifyAt m (lists n t) depth).diagnostics =
      (c.classifyAt m t (depth + n)).diagnostics := by
  induction n generalizing depth with
  | zero => rfl
  | succ n ih =>
    rw [lists, Classifier.classifyAt, dif_neg (by omega), Reported.diagnostics_bind,
      Reported.diagnostics_pure, List.append_nil, ih (by omega), Nat.add_right_comm, Nat.add_assoc]

end Sample

open Sample

/-- At depth 0 nothing is overlooked. -/
theorem not_overlooked_place :
    pointClassifier.resolveEntity pointModule (.ident "Place") = .declared placeDecl ∧
      pointClassifier.isDeclaredScalar placeDecl = false ∧
      pointClassifier.mappedScalar? pointModule (.ident "Place") (.declared placeDecl) = none ∧
      (pointClassifier.classifyAt pointModule (named "Place") 0).diagnostics = [] ∧
      ¬ pointClassifier.Overlooked placeDecl 1 := by
  have hquiet : (pointClassifier.classifyAt pointModule (named "Place") 0).diagnostics = [] := by
    rw [classifyAt_place]
  refine ⟨resolve_place, not_declared_place, mappedScalar_place, hquiet, ?_⟩
  refine (Classifier.agrees_iff_not_overlooked resolve_place rfl not_declared_place
    mappedScalar_place span [] hquiet).mp ⟨fun _ => ?_, fun hname => ?_⟩
  · exact congrArg Reported.value classifyAt_place
  · rw [aliasKind_place] at hname
    cases hname

/-- In lists that are nested 31 deep, the alias of a mapped type is read as the scalar without a
report, though it is an object type of its own. -/
theorem alias_becomes_scalar :
    pointClassifier.resolveEntity pointModule (.ident "Place") = .declared placeDecl ∧
      pointClassifier.isDeclaredScalar placeDecl = false ∧
      pointClassifier.mappedScalar? pointModule (.ident "Place") (.declared placeDecl) = none ∧
      (pointClassifier.classify pointModule (lists 31 (named "Place"))).diagnostics = [] ∧
      (pointClassifier.classifyAt pointModule (named "Place") 31).diagnostics = [] ∧
      ¬ pointClassifier.Agrees placeDecl placeAlias 31
        (pointClassifier.classifyAt pointModule (named "Place") 31) := by
  have hquiet : (pointClassifier.classifyAt pointModule (named "Place") 31).diagnostics = [] := by
    rw [classifyAt_place_deep]
  refine ⟨resolve_place, not_declared_place, mappedScalar_place, ?_, hquiet, fun h => ?_⟩
  · exact (diagnostics_classifyAt_lists _ _ 31 _ (by decide)).trans hquiet
  · have hvalue := h.type (by rw [aliasKind_place]; decide)
    rw [classifyAt_place_deep] at hvalue
    cases congrArg Nullable.shape hvalue

end SchemaCompiler

import SchemaCompiler.Proofs.Shape.Classify

/-!
# The part of an alias at different depths

`aliasKind` follows aliases of aliases as far as the depth allows, and behind it takes an alias for
transparent. An alias of a type with fields has a distance to it, and the part that is found depends
on the depth only through that distance. Where too little depth is left for the distance, the
classifier, which follows the same aliases, runs out of depth as well and reports it.
-/

namespace SchemaCompiler

open TypeScript

/-- The shape is a scalar, or a union with a scalar among its parts. -/
def TypeRef.UsesScalar (t : TypeRef) : Prop :=
  match t.shape with
  | .scalar _ => True
  | .union parts => ∃ part ∈ parts, ∃ use, part.shape = .scalar use
  | _ => False

namespace Classifier

variable {c : Classifier} {d : TypeDecl} {a : Alias}

/-! ## Types with fields -/

/-- Whether a type without parentheses is an object, or names one without an alias in between. -/
def namesFields (c : Classifier) (m : SourceModule) : TypeExpr → Bool
  | .object _ _ => true
  | .intersection _ _ => true
  | .reference _ name _ =>
    (c.referenceKind (fun _ => .transparent) (c.resolveEntity m name)).hasFields
  | _ => false

/-- The alias stands for a type with fields, with `n` aliases in between. -/
inductive StandsFor (c : Classifier) : TypeDecl → Nat → Prop where
  | fields {d : TypeDecl} {a : Alias} (hnode : d.node = .alias a)
      (hscalar : c.isDeclaredScalar d = false)
      (hbody : c.namesFields d.module a.body.stripParens = true) : StandsFor c d 0
  | next {d target : TypeDecl} {a : Alias} {s : Span} {name : EntityName}
      {arguments : List TypeExpr} {n : Nat} (hnode : d.node = .alias a)
      (hscalar : c.isDeclaredScalar d = false)
      (hbody : a.body.stripParens = .reference s name arguments)
      (hname : c.resolveEntity d.module name = .declared target)
      (hstands : StandsFor c target n) : StandsFor c d (n + 1)

theorem StandsFor.alias {n : Nat} (h : c.StandsFor d n) :
    ∃ a, d.node = .alias a ∧ c.isDeclaredScalar d = false := by
  cases h with
  | fields hnode hscalar _ => exact ⟨_, hnode, hscalar⟩
  | next hnode hscalar _ _ _ => exact ⟨_, hnode, hscalar⟩

/-- The equation of `aliasKind` for an alias within the depth that is no scalar. -/
theorem aliasKind_alias {e : Nat} (hnode : d.node = .alias a)
    (hscalar : c.isDeclaredScalar d = false) (he : e ≤ maxDepth) :
    c.aliasKind d e =
      match a.body.stripParens with
      | .object _ _ => .object
      | .intersection _ _ => .object
      | .union _ types =>
        unionKind (c.isObjectLikeBy (fun target => c.aliasKind target (e + 2)) d.module) types
      | .reference _ name _ =>
        c.referenceKind (fun target => c.aliasKind target (e + 1))
          (c.resolveEntity d.module name)
      | _ => .transparent := by
  rw [aliasKind, hnode]
  cases hbody : a.body.stripParens <;>
    simp only [hbody, hscalar, Nat.not_lt.mpr he, if_false, Bool.false_eq_true]

theorem hasFields_unionKind (isObjectLike : TypeExpr → Bool) (types : List TypeExpr) :
    (unionKind isObjectLike types).hasFields = false := by
  unfold unionKind
  simp only
  split
  · rfl
  · split <;> rfl

/-- The name has fields outright, or is that of an alias that has. -/
theorem hasFields_referenceKind_iff (c : Classifier) (kind : TypeDecl → AliasKind) (named : Named) :
    (c.referenceKind kind named).hasFields = true ↔
      (c.referenceKind (fun _ => .transparent) named).hasFields = true ∨
        ∃ target b, named = .declared target ∧ c.isDeclaredScalar target = false ∧
          target.node = .alias b ∧ (kind target).hasFields = true := by
  cases named with
  | runtime name => simp [referenceKind]
  | external specifier name => simp [referenceKind]
  | unknown name => simp [referenceKind]
  | declared target =>
    simp only [referenceKind]
    cases hscalar : c.isDeclaredScalar target with
    | true =>
      simp only [if_true]
      refine iff_of_false (by decide) ?_
      rintro (h | ⟨_, _, heq, hno, _⟩)
      · cases h
      · cases heq
        rw [hscalar] at hno
        cases hno
    | false =>
      rcases hnode : target.node with i | b | enum
      · simp [AliasKind.hasFields]
      · simp only [Bool.false_eq_true, if_false]
        constructor
        · intro h
          refine Or.inr ⟨target, b, rfl, hscalar, hnode, ?_⟩
          by_cases hk : (kind target).hasFields = true
          · exact hk
          · rw [if_neg hk] at h
            cases h
        · rintro (h | ⟨_, _, heq, _, _, hk⟩)
          · cases h
          · cases heq
            rw [if_pos hk]
            rfl
      · simp [AliasKind.hasFields, hnode]

theorem alias_of_hasFields {e : Nat} (h : (c.aliasKind d e).hasFields = true) :
    e ≤ maxDepth ∧ c.isDeclaredScalar d = false ∧ ∃ a, d.node = .alias a := by
  rw [aliasKind] at h
  split at h
  next => cases h
  next => cases h
  next a hnode =>
    split at h
    next => cases h
    next hscalar =>
      split at h
      next => cases h
      next he =>
        exact ⟨Nat.not_lt.mp he, Bool.not_eq_true _ ▸ hscalar, a, hnode⟩

/-- One step towards a type with fields. -/
theorem hasFields_aliasKind_step {e : Nat} (hnode : d.node = .alias a)
    (hscalar : c.isDeclaredScalar d = false) (he : e ≤ maxDepth) :
    (c.aliasKind d e).hasFields = true ↔
      c.namesFields d.module a.body.stripParens = true ∨
        ∃ s name arguments target, a.body.stripParens = .reference s name arguments ∧
          c.resolveEntity d.module name = .declared target ∧
          (c.aliasKind target (e + 1)).hasFields = true := by
  rw [aliasKind_alias hnode hscalar he]
  cases a.body.stripParens with
  | object s members => simp [AliasKind.hasFields, namesFields]
  | intersection s types => simp [AliasKind.hasFields, namesFields]
  | union s types => simp [hasFields_unionKind, namesFields]
  | reference s name arguments =>
    simp only [namesFields, hasFields_referenceKind_iff c fun target => c.aliasKind target (e + 1)]
    apply or_congr_right
    constructor
    · rintro ⟨target, b, hname, -, -, hk⟩
      exact ⟨s, name, arguments, target, rfl, hname, hk⟩
    · rintro ⟨_, _, _, target, heq, hname, hk⟩
      cases heq
      obtain ⟨-, hno, b, hb⟩ := alias_of_hasFields hk
      exact ⟨target, b, hname, hno, hb, hk⟩
  | _ => simp [AliasKind.hasFields, namesFields]

/-- An alias is found to have fields when the depth that is left covers the distance to them. -/
theorem hasFields_aliasKind_iff (c : Classifier) (d : TypeDecl) (e : Nat) :
    (c.aliasKind d e).hasFields = true ↔ ∃ n, c.StandsFor d n ∧ e + n ≤ maxDepth := by
  constructor
  · intro h
    induction hleft : maxDepth + 1 - e generalizing d e with
    | zero =>
      have := (alias_of_hasFields h).1
      omega
    | succ left ih =>
      obtain ⟨he, hscalar, a, hnode⟩ := alias_of_hasFields h
      rcases (hasFields_aliasKind_step hnode hscalar he).mp h with
        hbody | ⟨s, name, arguments, target, hbody, hname, hk⟩
      · exact ⟨0, .fields hnode hscalar hbody, he⟩
      · obtain ⟨n, hn, hle⟩ := ih target (e + 1) hk (by omega)
        exact ⟨n + 1, .next hnode hscalar hbody hname hn, by omega⟩
  · rintro ⟨n, hn, hle⟩
    induction hn generalizing e with
    | fields hnode hscalar hbody =>
      exact (hasFields_aliasKind_step hnode hscalar hle).mpr (Or.inl hbody)
    | next hnode hscalar hbody hname hstands ih =>
      refine (hasFields_aliasKind_step hnode hscalar (by omega)).mpr (Or.inr ?_)
      exact ⟨_, _, _, _, hbody, hname, ih (e + 1) (by omega)⟩

/-- Less depth never finds more fields. -/
theorem hasFields_aliasKind_mono {e e' : Nat} (hle : e ≤ e')
    (h : (c.aliasKind d e').hasFields = true) : (c.aliasKind d e).hasFields = true := by
  obtain ⟨n, hn, hdepth⟩ := (hasFields_aliasKind_iff c d e').mp h
  exact (hasFields_aliasKind_iff c d e).mpr ⟨n, hn, by omega⟩

theorem StandsFor.unique {n n' : Nat} (h : c.StandsFor d n) (h' : c.StandsFor d n') : n = n' := by
  have apart : ∀ {s : Span} {name : EntityName} {arguments : List TypeExpr} {k : Nat}
      {d target : TypeDecl}, c.resolveEntity d.module name = .declared target →
        c.StandsFor target k →
        c.namesFields d.module (.reference s name arguments) = false := by
    intro s name arguments k d target hname hstands
    obtain ⟨b, hb, hscalar⟩ := hstands.alias
    simp [namesFields, hname, referenceKind, hscalar, hb, AliasKind.hasFields]
  induction h generalizing n' with
  | fields hnode hscalar hbody =>
    cases h' with
    | fields => rfl
    | next hnode' _ hbody' hname hstands =>
      cases hnode.symm.trans hnode'
      rw [hbody', apart hname hstands] at hbody
      cases hbody
  | next hnode hscalar hbody hname hstands ih =>
    cases h' with
    | fields hnode' _ hbody' =>
      cases hnode.symm.trans hnode'
      rw [hbody, apart hname hstands] at hbody'
      cases hbody'
    | next hnode' _ hbody' hname' hstands' =>
      cases hnode.symm.trans hnode'
      cases hbody.symm.trans hbody'
      cases hname.symm.trans hname'
      rw [ih hstands']

/-- Where too little depth is left, an alias of a type with fields is taken for transparent. -/
theorem StandsFor.aliasKind_eq {n e : Nat} (h : c.StandsFor d n) (hdeep : maxDepth < e + n) :
    c.aliasKind d e = .transparent := by
  have hno : ¬ (c.aliasKind d e).hasFields = true := by
    rw [hasFields_aliasKind_iff]
    rintro ⟨n', hn', hle⟩
    obtain rfl := h.unique hn'
    omega
  obtain ⟨a, hnode, hscalar⟩ := h.alias
  by_cases he : e ≤ maxDepth
  · rw [aliasKind_alias hnode hscalar he] at hno ⊢
    cases h with
    | fields => omega
    | next hnode' _ hbody hname hstands =>
      cases hnode.symm.trans hnode'
      obtain ⟨b, hb, hplain⟩ := hstands.alias
      simp only [hbody, hname, referenceKind, hplain, hb, Bool.false_eq_true, if_false] at hno ⊢
      split at hno
      · exact absurd rfl hno
      · rename_i hk
        rw [if_neg hk]
  · rw [aliasKind, hnode]
    simp only [hscalar, Nat.not_le.mp he, if_true, Bool.false_eq_true, if_false]

/-! ## Running out of depth -/

/-- A reading that was reported, or came to a scalar. -/
def Unsettled (r : Reported TypeRef) : Prop :=
  r.diagnostics ≠ [] ∨ ∃ use, r.value.shape = .scalar use

theorem unsettled_deep {e : Nat} (he : maxDepth < e) (m : SourceModule) (t : TypeExpr) :
    Unsettled (c.classifyAt m t e) :=
  Or.inl (classifyAt_deep he t)

theorem unsettled_reference {m : SourceModule} {name : EntityName} {target : TypeDecl}
    {b : Alias} {e : Nat} (hname : c.resolveEntity m name = .declared target)
    (hb : target.node = .alias b) (hk : c.aliasKind target (e + 1) = .transparent)
    (hbody : Unsettled (c.classifyAt target.module b.body (e + 1))) (s : Span)
    (arguments : List TypeExpr) : Unsettled (c.classifyAt m (.reference s name arguments) e) := by
  by_cases he : e ≤ maxDepth
  · rw [classifyAt_reference he]
    rcases meaning_cases c m name arguments e with ⟨use, h⟩ | ⟨message, h⟩ | h
    · rw [h]
      exact Or.inr ⟨use, rfl⟩
    · rw [h]
      exact Or.inl (List.cons_ne_nil _ _)
    · rw [h, hname, plainMeaning_alias hb arguments hk]
      exact hbody
  · exact unsettled_deep (Nat.not_le.mp he) _ _

/-- The classifier does not reach a type with fields for which too little depth is left. -/
theorem StandsFor.unsettled {n e : Nat} (h : c.StandsFor d n) (hnode : d.node = .alias a)
    (hdeep : maxDepth < e + n) : Unsettled (c.classifyAt d.module a.body e) := by
  induction h generalizing a e with
  | fields => exact unsettled_deep (by omega) _ _
  | next hnode' hscalar hbody hname hstands ih =>
    cases hnode.symm.trans hnode'
    by_cases he : e ≤ maxDepth
    · obtain ⟨b, hb, -⟩ := hstands.alias
      rw [classifyAt_stripParens he, hbody]
      exact unsettled_reference hname hb (hstands.aliasKind_eq (by omega))
        (ih hb (by omega)) _ _
    · exact unsettled_deep (Nat.not_le.mp he) _ _

/-- The only thing that a reading finds at one depth and misses behind it are fields, and then it
does not reach them. -/
theorem unsettled_of_hasFields {e e' : Nat} (hnode : d.node = .alias a)
    (h : (c.aliasKind d e).hasFields = true) (h' : ¬ (c.aliasKind d e').hasFields = true) :
    c.aliasKind d e' = .transparent ∧ Unsettled (c.classifyAt d.module a.body e') := by
  obtain ⟨n, hn, -⟩ := (hasFields_aliasKind_iff c d e).mp h
  have hdeep : maxDepth < e' + n := by
    apply Nat.lt_of_not_le
    intro hle
    exact h' ((hasFields_aliasKind_iff c d e').mpr ⟨n, hn, hle⟩)
  exact ⟨hn.aliasKind_eq hdeep, hn.unsettled hnode hdeep⟩

/-! ## One part at every depth -/

section Change

variable {kind kind' : TypeDecl → AliasKind}

/-- The type names an alias that has fields for one view of aliases and none for another. -/
def NamesChange (c : Classifier) (kind kind' : TypeDecl → AliasKind) (m : SourceModule)
    (t : TypeExpr) : Prop :=
  ∃ s name arguments target b, t.stripParens = .reference s name arguments ∧
    c.resolveEntity m name = .declared target ∧ target.node = .alias b ∧
      (kind target).hasFields = true ∧ ¬ (kind' target).hasFields = true

theorem namesChange_of_isObjectLikeBy {m : SourceModule} {t : TypeExpr}
    (h : c.isObjectLikeBy kind m t = true) (h' : ¬ c.isObjectLikeBy kind' m t = true) :
    c.NamesChange kind kind' m t := by
  unfold isObjectLikeBy at h h'
  cases ht : t.stripParens with
  | reference s name arguments =>
    simp only [ht] at h h'
    split at h
    · cases h
    · rename_i hmapped
      rw [if_neg hmapped] at h'
      cases hname : c.resolveEntity m name with
      | declared decl =>
        simp only [hname] at h h'
        rcases hnode : decl.node with i | b | enum <;> simp only [hnode] at h h'
        · exact absurd h h'
        · exact ⟨s, name, arguments, decl, b, ht, hname, hnode, h, h'⟩
        · exact absurd h h'
      | _ =>
        simp only [hname] at h h'
        exact absurd h h'
  | _ =>
    simp only [ht] at h h'
    exact absurd h h'

theorem namesChange_of_referenceKind {m : SourceModule} {t : TypeExpr} {s : Span}
    {name : EntityName} {arguments : List TypeExpr} (ht : t.stripParens = .reference s name arguments)
    (h : c.referenceKind kind (c.resolveEntity m name) ≠ .transparent)
    (h' : c.referenceKind kind' (c.resolveEntity m name) = .transparent) :
    c.NamesChange kind kind' m t := by
  cases hname : c.resolveEntity m name with
  | declared target =>
    simp only [hname, referenceKind] at h h'
    split at h
    · exact absurd rfl h
    · rename_i hscalar
      rw [if_neg hscalar] at h'
      rcases hnode : target.node with i | b | enum <;> rw [hnode] at h h'
      · exact absurd h' h
      · refine ⟨s, name, arguments, target, b, ht, hname, hnode, ?_, ?_⟩
        · exact Classical.byContradiction fun hk => h (if_neg hk)
        · intro hk
          exact absurd ((if_pos hk).symm.trans h') (by decide)
      · exact absurd h' h
  | _ =>
    rw [hname] at h h'
    exact absurd h' h

/-- A union is a type of its own for one view of its members only if the members differ. -/
theorem exists_of_unionKind {isObjectLike isObjectLike' : TypeExpr → Bool} {types : List TypeExpr}
    (h : unionKind isObjectLike types ≠ .transparent)
    (h' : unionKind isObjectLike' types = .transparent) :
    2 ≤ (TypeExpr.splitNullable types).1.length ∧
      ∃ t ∈ (TypeExpr.splitNullable types).1, isObjectLike t = true ∧ ¬ isObjectLike' t = true := by
  unfold unionKind at h h'
  simp only at h h'
  split at h
  · rename_i hliteral
    rw [if_pos hliteral] at h'
    cases h'
  · rename_i hliteral
    rw [if_neg hliteral] at h'
    split at h
    · rename_i hmembers
      split at h'
      · cases h'
      · rename_i hno
        simp only [Bool.and_eq_true, decide_eq_true_eq, List.all_eq_true] at hmembers hno
        refine ⟨hmembers.1, Classical.byContradiction fun hnone => hno ⟨hmembers.1, ?_⟩⟩
        intro t ht
        exact Classical.byContradiction fun hlike => hnone ⟨t, ht, hmembers.2 t ht, hlike⟩
    · exact absurd rfl h

end Change

/-- When an alias is a type of its own at one depth and transparent at another one, some name in it
changes between the two. -/
theorem namesChange_of_aliasKind {e e' : Nat} (hnode : d.node = .alias a)
    (he : e ≤ maxDepth) (he' : e' ≤ maxDepth) (h : c.aliasKind d e ≠ .transparent)
    (h' : c.aliasKind d e' = .transparent) :
    c.NamesChange (fun target => c.aliasKind target (e + 1))
        (fun target => c.aliasKind target (e' + 1)) d.module a.body ∨
      ∃ s types, a.body.stripParens = .union s types ∧
        2 ≤ (TypeExpr.splitNullable types).1.length ∧
          ∃ t ∈ (TypeExpr.splitNullable types).1,
            c.NamesChange (fun target => c.aliasKind target (e + 2))
              (fun target => c.aliasKind target (e' + 2)) d.module t := by
  cases hscalar : c.isDeclaredScalar d with
  | true =>
    rw [aliasKind, hnode] at h'
    simp [hscalar] at h'
  | false =>
    rw [aliasKind_alias hnode hscalar he] at h
    rw [aliasKind_alias hnode hscalar he'] at h'
    cases hbody : a.body.stripParens with
    | union s types =>
      simp only [hbody] at h h'
      obtain ⟨hseveral, t, ht, hlike, hlike'⟩ := exists_of_unionKind h h'
      exact Or.inr ⟨s, types, rfl, hseveral, t, ht, namesChange_of_isObjectLikeBy hlike hlike'⟩
    | reference s name arguments =>
      simp only [hbody] at h h'
      exact Or.inl (namesChange_of_referenceKind hbody h h')
    | _ =>
      rw [hbody] at h h'
      exact absurd h' h

/-- An alias that is a type of its own with less depth left is one with more. -/
theorem aliasKind_mono {e e' : Nat} (hle : e ≤ e') (h : c.aliasKind d e' ≠ .transparent) :
    c.aliasKind d e ≠ .transparent := by
  intro heq
  have no : ∀ {m t k}, ¬ c.NamesChange (fun target => c.aliasKind target (e' + k))
      (fun target => c.aliasKind target (e + k)) m t := by
    rintro m t k ⟨_, _, _, target, _, -, -, -, hk, hk'⟩
    exact hk' (hasFields_aliasKind_mono (by omega) hk)
  rcases hnode : d.node with i | a | enum
  · rw [aliasKind, hnode] at h
    exact absurd rfl h
  · by_cases he' : e' ≤ maxDepth
    · rcases namesChange_of_aliasKind hnode he' (Nat.le_trans hle he') h heq with
        hchange | ⟨_, _, -, -, _, -, hchange⟩
      · exact no hchange
      · exact no hchange
    · rw [aliasKind, hnode] at h heq
      cases hscalar : c.isDeclaredScalar d with
      | true => simp [hscalar] at heq
      | false => simp [hscalar, Nat.not_le.mp he'] at h
  · rw [aliasKind, hnode] at h
    exact absurd rfl h

theorem unsettled_of_namesChange {m : SourceModule} {t : TypeExpr} {e e' : Nat}
    (h : c.NamesChange (fun target => c.aliasKind target (e + 1))
      (fun target => c.aliasKind target (e' + 1)) m t) : Unsettled (c.classifyAt m t e') := by
  obtain ⟨s, name, arguments, target, b, ht, hname, hb, hk, hk'⟩ := h
  by_cases he' : e' ≤ maxDepth
  · obtain ⟨htransparent, hbody⟩ := unsettled_of_hasFields hb hk hk'
    rw [classifyAt_stripParens he', ht]
    exact unsettled_reference hname hb htransparent hbody s arguments
  · exact unsettled_deep (Nat.not_le.mp he') m t

/-- An alias that is transparent where its body can be read, and is no scalar there, is transparent
with less depth before it as well. -/
theorem aliasKind_eq_transparent {e e' : Nat} (hnode : d.node = .alias a) (hle : e ≤ e')
    (h : c.aliasKind d e' = .transparent)
    (hquiet : (c.classifyAt d.module a.body e').diagnostics = [])
    (hscalar : ¬ (c.classifyAt d.module a.body e').value.UsesScalar) :
    c.aliasKind d e = .transparent := by
  apply Classical.byContradiction
  intro hne
  by_cases he' : e' ≤ maxDepth
  · rcases namesChange_of_aliasKind hnode (Nat.le_trans hle he') he' hne h with
      hchange | ⟨s, types, hbody, hseveral, t, ht, hchange⟩
    · rcases unsettled_of_namesChange hchange with hreported | ⟨use, hshape⟩
      · exact hreported hquiet
      · apply hscalar
        rw [TypeRef.UsesScalar, hshape]
        trivial
    · rw [classifyAt_stripParens he', hbody, classifyAt_union_several he' s hseveral] at hquiet hscalar
      split at hquiet
      · rename_i hliterals
        obtain ⟨_, _, _, _, _, hname, -⟩ := hchange
        have hliteral := List.all_eq_true.mp (Bool.and_eq_true_iff.mp hliterals).2 t ht
        simp [TypeExpr.isBooleanLiteral, hname] at hliteral
      · rename_i hliterals
        rw [if_neg hliterals] at hscalar
        rcases unsettled_of_namesChange hchange with hreported | ⟨use, hshape⟩
        · simp only [Reported.diagnostics_bind, Reported.diagnostics_pure, List.append_nil,
            Reported.diagnostics_each, List.flatMap_eq_nil_iff] at hquiet
          exact hreported (hquiet t ht)
        · apply hscalar
          refine ⟨(c.classifyAt d.module t (e' + 1)).value, ?_, use, hshape⟩
          rw [Reported.value_each]
          exact List.mem_map_of_mem ht
  · exact classifyAt_deep (Nat.not_le.mp he') _ hquiet

end Classifier

end SchemaCompiler

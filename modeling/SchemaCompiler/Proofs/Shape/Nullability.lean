import Mathlib
import SchemaCompiler.Proofs.Sample
import SchemaCompiler.Proofs.Shape.AliasKind

/-!
# Nullability through aliases

A type takes `null` when it is a union with `null` in it, or the name of an alias whose body takes
it. The classifier reads `null` off a union and follows transparent aliases, but an alias that is a
type of its own keeps only its name, and a union keeps what its parts take in the parts. So it loses
`null` behind names of enums and unions, and in a union of several alternatives. Behind `readonly`,
which no union can follow, it reads on. Everywhere else it agrees with the definition.
-/

namespace SchemaCompiler

open TypeScript

/-! ## Members of unions -/

/-- The type is `null` or `undefined`, parentheses aside. -/
def TypeScript.TypeExpr.isNull (t : TypeExpr) : Bool :=
  match t.stripParens with
  | .keyword _ word => word = .null ∨ word = .undefined
  | _ => false

namespace Classifier

/-- The types that take `null`. -/
inductive Nullish (c : Classifier) : SourceModule → TypeExpr → Prop where
  | null {m : SourceModule} {s : Span} {types : List TypeExpr} {t : TypeExpr} (hmem : t ∈ types)
      (hnull : t.isNull = true) : Nullish c m (.union s types)
  | member {m : SourceModule} {s : Span} {types : List TypeExpr} {t : TypeExpr} (hmem : t ∈ types)
      (ht : Nullish c m t) : Nullish c m (.union s types)
  | paren {m : SourceModule} {s : Span} {t : TypeExpr} (ht : Nullish c m t) :
      Nullish c m (.paren s t)
  | name {m : SourceModule} {s : Span} {name : EntityName} {arguments : List TypeExpr}
      {d : TypeDecl} {a : Alias} (hname : c.resolveEntity m name = .declared d)
      (hnode : d.node = .alias a) (hbody : Nullish c d.module a.body) :
      Nullish c m (.reference s name arguments)

variable {c : Classifier} {m : SourceModule}

theorem mem_splitNullable {t : TypeExpr} {types : List TypeExpr} (h : t ∈ types) :
    ((TypeExpr.members t).2 = true → (TypeExpr.splitNullable types).2 = true) ∧
      ∀ p ∈ (TypeExpr.members t).1, p ∈ (TypeExpr.splitNullable types).1 := by
  induction types with
  | nil => cases h
  | cons first rest ih =>
    simp only [TypeExpr.splitNullable, Bool.or_eq_true, List.mem_append]
    rcases List.mem_cons.mp h with rfl | h
    · exact ⟨Or.inl, fun p hp => Or.inl hp⟩
    · exact ⟨fun hnull => Or.inr ((ih h).1 hnull), fun p hp => Or.inr ((ih h).2 p hp)⟩

theorem members_of_isNull {t : TypeExpr} (h : t.isNull = true) : (TypeExpr.members t).2 = true := by
  unfold TypeExpr.isNull at h
  fun_induction TypeExpr.stripParens t with
  | case1 s inner ih => exact ih h
  | case2 t =>
    cases t with
    | keyword s word =>
      rw [TypeExpr.members, if_pos (of_decide_eq_true h)]
    | _ => cases h

theorem Nullish.cons {s : Span} {types : List TypeExpr} (h : c.Nullish m (.union s types))
    (t : TypeExpr) : c.Nullish m (.union s (t :: types)) := by
  cases h with
  | null hmem hnull => exact .null (List.mem_cons_of_mem t hmem) hnull
  | member hmem ht => exact .member (List.mem_cons_of_mem t hmem) ht

mutual

/-- What is found among the flat members of a type is in the type. -/
theorem nullish_of_members (t : TypeExpr) :
    ((TypeExpr.members t).2 = true → t.isNull = true ∨ c.Nullish m t) ∧
      ∀ p ∈ (TypeExpr.members t).1, c.Nullish m p → c.Nullish m t := by
  match t with
  | .paren s inner =>
    obtain ⟨hnull, hpart⟩ := nullish_of_members inner
    refine ⟨fun h => ?_, fun p hp hp' => .paren (hpart p hp hp')⟩
    rcases hnull h with h | h
    · exact Or.inl h
    · exact Or.inr (.paren h)
  | .union s types =>
    obtain ⟨hnull, hpart⟩ := nullish_of_splitNullable types
    exact ⟨fun h => Or.inr (hnull h s), fun p hp hp' => hpart p hp hp' s⟩
  | .keyword s word =>
    by_cases hword : word = .null ∨ word = .undefined
    · refine ⟨fun _ => Or.inl (decide_eq_true hword), fun p hp => ?_⟩
      simp [TypeExpr.members, hword] at hp
    · refine ⟨fun h => ?_, fun p hp hp' => ?_⟩
      · simp [TypeExpr.members, hword] at h
      · simp only [TypeExpr.members, if_neg hword, List.mem_singleton] at hp
        rwa [hp] at hp'
  | .literal .. | .reference .. | .object .. | .array .. | .intersection .. | .readonly ..
  | .other .. =>
    refine ⟨fun h => ?_, fun p hp hp' => ?_⟩
    · simp [TypeExpr.members] at h
    · simp only [TypeExpr.members, List.mem_singleton] at hp
      rwa [hp] at hp'

theorem nullish_of_splitNullable (types : List TypeExpr) :
    ((TypeExpr.splitNullable types).2 = true → ∀ s, c.Nullish m (.union s types)) ∧
      ∀ p ∈ (TypeExpr.splitNullable types).1, c.Nullish m p → ∀ s, c.Nullish m (.union s types) := by
  match types with
  | [] => simp [TypeExpr.splitNullable]
  | t :: rest =>
    obtain ⟨hnull, hpart⟩ := nullish_of_members t
    obtain ⟨hnulls, hparts⟩ := nullish_of_splitNullable rest
    simp only [TypeExpr.splitNullable, Bool.or_eq_true, List.mem_append]
    constructor
    · rintro (h | h) s
      · rcases hnull h with h | h
        · exact .null List.mem_cons_self h
        · exact .member List.mem_cons_self h
      · exact (hnulls h s).cons t
    · rintro p (hp | hp) hp' s
      · exact .member List.mem_cons_self (hpart p hp hp')
      · exact (hparts p hp hp' s).cons t

end

/-- Induction over the flat members of unions. -/
theorem Nullish.members_induction {motive : SourceModule → TypeExpr → Prop}
    (paren : ∀ {m s t}, motive m t → motive m (.paren s t))
    (null : ∀ {m s types}, (TypeExpr.splitNullable types).2 = true → motive m (.union s types))
    (part : ∀ {m s types t}, t ∈ (TypeExpr.splitNullable types).1 → c.Nullish m t → motive m t →
      motive m (.union s types))
    (name : ∀ {m s name arguments d a}, c.resolveEntity m name = .declared d →
      d.node = .alias a → c.Nullish d.module a.body → motive d.module a.body →
        motive m (.reference s name arguments))
    {t : TypeExpr} (h : c.Nullish m t) : motive m t := by
  suffices hboth : motive m t ∧
      ((TypeExpr.members t).2 = true ∨ ∃ p ∈ (TypeExpr.members t).1, c.Nullish m p ∧ motive m p) from
    hboth.1
  -- The second half carries the induction from a member of a union to the flat members of the union.
  induction h with
  | null hmem hnull =>
    have hflag := (mem_splitNullable hmem).1 (members_of_isNull hnull)
    exact ⟨null hflag, Or.inl hflag⟩
  | member hmem ht ih =>
    rcases ih.2 with hflag | ⟨p, hp, hp', hmotive⟩
    · have hflag := (mem_splitNullable hmem).1 hflag
      exact ⟨null hflag, Or.inl hflag⟩
    · have hp := (mem_splitNullable hmem).2 p hp
      exact ⟨part hp hp' hmotive, Or.inr ⟨p, hp, hp', hmotive⟩⟩
  | paren ht ih => exact ⟨paren ih.1, ih.2⟩
  | name hname hnode hbody ih =>
    refine ⟨name hname hnode hbody ih.1, Or.inr ⟨_, List.mem_singleton_self _, ?_, ?_⟩⟩
    · exact .name hname hnode hbody
    · exact name hname hnode hbody ih.1

theorem nullish_union_iff {s : Span} {types : List TypeExpr} :
    c.Nullish m (.union s types) ↔
      (TypeExpr.splitNullable types).2 = true ∨
        ∃ t ∈ (TypeExpr.splitNullable types).1, c.Nullish m t := by
  constructor
  · intro h
    refine h.members_induction (motive := fun m t => ∀ s types, t = .union s types →
      (TypeExpr.splitNullable types).2 = true ∨
        ∃ t ∈ (TypeExpr.splitNullable types).1, c.Nullish m t) ?_ ?_ ?_ ?_ s types rfl
    · rintro _ _ _ - _ _ ⟨⟩
    · rintro _ _ _ hflag _ _ ⟨⟩
      exact Or.inl hflag
    · rintro _ _ _ t hmem ht - _ _ ⟨⟩
      exact Or.inr ⟨t, hmem, ht⟩
    · rintro _ _ _ _ _ _ - - - - _ _ ⟨⟩
  · rintro (hflag | ⟨t, hmem, ht⟩)
    · exact (nullish_of_splitNullable types).1 hflag s
    · exact (nullish_of_splitNullable types).2 t hmem ht s

theorem nullish_paren_iff {s : Span} {t : TypeExpr} :
    c.Nullish m (.paren s t) ↔ c.Nullish m t := by
  constructor
  · rintro ⟨⟩
    assumption
  · exact .paren

theorem nullish_reference_iff {s : Span} {name : EntityName} {arguments : List TypeExpr}
    {d : TypeDecl} {a : Alias} (hname : c.resolveEntity m name = .declared d)
    (hnode : d.node = .alias a) :
    c.Nullish m (.reference s name arguments) ↔ c.Nullish d.module a.body := by
  constructor
  · intro h
    cases h with
    | name hname' hnode' hbody =>
      cases hname.symm.trans hname'
      cases hnode.symm.trans hnode'
      exact hbody
  · exact .name hname hnode

/-! ## What the classifier reads -/

/-- The types that the classifier reads `null` off. -/
inductive ReadsNull (c : Classifier) : SourceModule → TypeExpr → Prop where
  | paren {m : SourceModule} {s : Span} {t : TypeExpr} (ht : ReadsNull c m t) :
      ReadsNull c m (.paren s t)
  | readonly {m : SourceModule} {s : Span} {t : TypeExpr} (ht : ReadsNull c m t) :
      ReadsNull c m (.readonly s t)
  | null {m : SourceModule} {s : Span} {types : List TypeExpr}
      (hflag : (TypeExpr.splitNullable types).2 = true) : ReadsNull c m (.union s types)
  | single {m : SourceModule} {s : Span} {types : List TypeExpr} {t : TypeExpr}
      (hsingle : (TypeExpr.splitNullable types).1 = [t]) (ht : ReadsNull c m t) :
      ReadsNull c m (.union s types)
  | name {m : SourceModule} {s : Span} {name : EntityName} {arguments : List TypeExpr}
      {d : TypeDecl} {a : Alias} (hname : c.resolveEntity m name = .declared d)
      (hnode : d.node = .alias a) (hkind : c.aliasKind d 0 = .transparent)
      (hbody : ReadsNull c d.module a.body) : ReadsNull c m (.reference s name arguments)

theorem readsNull_paren_iff {s : Span} {t : TypeExpr} :
    c.ReadsNull m (.paren s t) ↔ c.ReadsNull m t := by
  constructor
  · rintro ⟨⟩
    assumption
  · exact .paren

theorem readsNull_readonly_iff {s : Span} {t : TypeExpr} :
    c.ReadsNull m (.readonly s t) ↔ c.ReadsNull m t := by
  constructor
  · rintro ⟨⟩
    assumption
  · exact .readonly

theorem readsNull_union_iff {s : Span} {types : List TypeExpr} :
    c.ReadsNull m (.union s types) ↔
      (TypeExpr.splitNullable types).2 = true ∨
        ∃ t, (TypeExpr.splitNullable types).1 = [t] ∧ c.ReadsNull m t := by
  constructor
  · intro h
    cases h with
    | null hflag => exact Or.inl hflag
    | single hsingle ht => exact Or.inr ⟨_, hsingle, ht⟩
  · rintro (hflag | ⟨t, hsingle, ht⟩)
    · exact .null hflag
    · exact .single hsingle ht

theorem readsNull_reference_iff {s : Span} {name : EntityName} {arguments : List TypeExpr}
    {d : TypeDecl} {a : Alias} (hname : c.resolveEntity m name = .declared d)
    (hnode : d.node = .alias a) :
    c.ReadsNull m (.reference s name arguments) ↔
      c.aliasKind d 0 = .transparent ∧ c.ReadsNull d.module a.body := by
  constructor
  · intro h
    cases h with
    | name hname' hnode' hkind hbody =>
      cases hname.symm.trans hname'
      cases hnode.symm.trans hnode'
      exact ⟨hkind, hbody⟩
  · rintro ⟨hkind, hbody⟩
    exact .name hname hnode hkind hbody

/-- At this depth `null` is read off the type as `ReadsNull` says, unless the reading is reported or
comes to a scalar. -/
def ReadAt (c : Classifier) (m : SourceModule) (t : TypeExpr) (depth : Nat) : Prop :=
  (c.classifyAt m t depth).diagnostics = [] → ¬ (c.classifyAt m t depth).value.UsesScalar →
    ((c.classifyAt m t depth).value.nullable = true ↔ c.ReadsNull m t)

theorem readAt_reference {s : Span} {name : EntityName} {arguments : List TypeExpr} {depth : Nat}
    (hdepth : depth ≤ maxDepth) (ih : ∀ m t, c.ReadAt m t (depth + 1)) :
    c.ReadAt m (.reference s name arguments) depth := by
  intro hquiet hscalar
  rw [classifyAt_reference hdepth] at hquiet hscalar ⊢
  rcases meaning_cases c m name arguments depth with ⟨use, h⟩ | ⟨message, h⟩ | h
  · rw [h] at hscalar
    exact absurd trivial hscalar
  · rw [h] at hquiet
    exact absurd hquiet (List.cons_ne_nil _ _)
  · by_cases halias : ∃ target body,
        c.plainMeaning arguments depth (c.resolveEntity m name) = .alias target body
    · obtain ⟨target, body, heq⟩ := halias
      obtain ⟨d, a, hname, hnode, hkind, rfl, rfl⟩ := alias_of_plainMeaning heq
      rw [h, heq] at hquiet hscalar ⊢
      rw [readsNull_reference_iff hname hnode, ← ih d.module a.body hquiet hscalar]
      exact (and_iff_right (aliasKind_eq_transparent hnode (Nat.zero_le _) hkind hquiet hscalar)).symm
    · rw [h, nullable_follow_plainMeaning fun target body heq => halias ⟨target, body, heq⟩]
      refine iff_of_false Bool.false_ne_true fun hread => ?_
      cases hread with
      | name hname hnode hkind =>
        apply halias
        rw [hname]
        refine ⟨_, _, plainMeaning_alias hnode arguments (Classical.byContradiction fun hne => ?_)⟩
        exact aliasKind_mono (Nat.zero_le _) hne hkind

theorem readAt_union {s : Span} {types : List TypeExpr} {depth : Nat} (hdepth : depth ≤ maxDepth)
    (ih : ∀ t, c.ReadAt m t (depth + 1)) : c.ReadAt m (.union s types) depth := by
  intro hquiet hscalar
  rw [readsNull_union_iff]
  by_cases hseveral : 2 ≤ (TypeExpr.splitNullable types).1.length
  · rw [nullable_classifyAt_union_several hdepth s hseveral]
    constructor
    · exact Or.inl
    · rintro (hflag | ⟨t, hsingle, -⟩)
      · exact hflag
      · simp [hsingle] at hseveral
  · rcases hsplit : TypeExpr.splitNullable types with ⟨members, flag⟩
    rw [hsplit] at hseveral
    match members with
    | [] =>
      rw [classifyAt_union_nil hdepth s (by rw [hsplit])] at hquiet
      exact absurd hquiet (diagnostics_unsupported_ne_nil _ _)
    | [t] =>
      rw [classifyAt_union_single hdepth s hsplit] at hquiet hscalar ⊢
      have hiff := ih t (List.append_eq_nil_iff.mp hquiet).1 hscalar
      simp only [Reported.value_bind, Reported.value_pure, TypeRef.orNullable, Bool.or_eq_true,
        List.cons.injEq, and_true, exists_eq_left', hiff]
      exact or_comm
    | first :: second :: more => exact absurd (by simp) hseveral

theorem readAt (c : Classifier) (m : SourceModule) (t : TypeExpr) (depth : Nat) :
    c.ReadAt m t depth := by
  by_cases hdepth : depth ≤ maxDepth
  · match t with
    | .paren s inner =>
      have ih := readAt c m inner depth
      rwa [ReadAt, classifyAt_paren hdepth, readsNull_paren_iff]
    | .readonly s inner =>
      have ih := readAt c m inner depth
      rwa [ReadAt, classifyAt_readonly hdepth, readsNull_readonly_iff]
    | .union s types => exact readAt_union hdepth fun t => readAt c m t (depth + 1)
    | .reference s name arguments =>
      exact readAt_reference hdepth fun m t => readAt c m t (depth + 1)
    | .keyword .. | .literal .. | .object .. | .array .. | .intersection .. | .other .. =>
      intro hquiet hscalar
      rw [nullable_classifyAt_leaf hdepth]
      · exact iff_of_false Bool.false_ne_true (by rintro ⟨⟩)
      · trivial
  · exact fun hquiet => absurd hquiet (classifyAt_deep (Nat.not_le.mp hdepth) t)
termination_by (maxDepth + 1 - depth, sizeOf t)
decreasing_by
  · exact .right _ (by simp +arith)
  · exact .right _ (by simp +arith)
  · exact .left _ _ (by omega)
  · exact .left _ _ (by omega)

/-! ## Where `null` is misread -/

/-- The types whose `null` the classifier loses, or finds where none is. -/
inductive Misread (c : Classifier) : SourceModule → TypeExpr → Prop where
  /-- The name of an enum or a union that takes `null`. -/
  | named {m : SourceModule} {s : Span} {name : EntityName} {arguments : List TypeExpr}
      {d : TypeDecl} {a : Alias} (hname : c.resolveEntity m name = .declared d)
      (hnode : d.node = .alias a) (hkind : c.aliasKind d 0 ≠ .transparent)
      (hbody : Nullish c d.module a.body) : Misread c m (.reference s name arguments)
  /-- One of several alternatives that takes `null`. -/
  | alternative {m : SourceModule} {s : Span} {types : List TypeExpr} {t : TypeExpr}
      (hflag : (TypeExpr.splitNullable types).2 = false)
      (hseveral : 2 ≤ (TypeExpr.splitNullable types).1.length)
      (hmem : t ∈ (TypeExpr.splitNullable types).1) (ht : Nullish c m t) :
      Misread c m (.union s types)
  | readonly {m : SourceModule} {s : Span} {t : TypeExpr} (ht : ReadsNull c m t) :
      Misread c m (.readonly s t)
  | paren {m : SourceModule} {s : Span} {t : TypeExpr} (ht : Misread c m t) :
      Misread c m (.paren s t)
  | single {m : SourceModule} {s : Span} {types : List TypeExpr} {t : TypeExpr}
      (hflag : (TypeExpr.splitNullable types).2 = false)
      (hsingle : (TypeExpr.splitNullable types).1 = [t]) (ht : Misread c m t) :
      Misread c m (.union s types)
  | name {m : SourceModule} {s : Span} {name : EntityName} {arguments : List TypeExpr}
      {d : TypeDecl} {a : Alias} (hname : c.resolveEntity m name = .declared d)
      (hnode : d.node = .alias a) (hkind : c.aliasKind d 0 = .transparent)
      (hbody : Misread c d.module a.body) : Misread c m (.reference s name arguments)

theorem Misread.differs {t : TypeExpr} (h : c.Misread m t) :
    ¬ (c.ReadsNull m t ↔ c.Nullish m t) := by
  induction h with
  | named hname hnode hkind hbody =>
    rw [readsNull_reference_iff hname hnode, nullish_reference_iff hname hnode]
    exact fun hiff => hkind (hiff.mpr hbody).1
  | alternative hflag hseveral hmem ht =>
    rw [readsNull_union_iff, nullish_union_iff, hflag]
    intro hiff
    obtain hno | ⟨_, hsingle, -⟩ := hiff.mpr (Or.inr ⟨_, hmem, ht⟩)
    · cases hno
    · simp [hsingle] at hseveral
  | readonly ht =>
    intro hiff
    cases hiff.mp (.readonly ht)
  | paren ht ih => rwa [readsNull_paren_iff, nullish_paren_iff]
  | single hflag hsingle ht ih =>
    rw [readsNull_union_iff, nullish_union_iff, hflag, hsingle]
    simpa using ih
  | name hname hnode hkind hbody ih =>
    rw [readsNull_reference_iff hname hnode, nullish_reference_iff hname hnode]
    rwa [and_iff_right hkind]

theorem nullish_of_readsNull {t : TypeExpr} (h : c.ReadsNull m t) :
    c.Nullish m t ∨ c.Misread m t := by
  induction h with
  | paren ht ih => exact ih.imp .paren .paren
  | readonly ht => exact Or.inr (.readonly ht)
  | null hflag => exact Or.inl (nullish_union_iff.mpr (Or.inl hflag))
  | single hsingle ht ih =>
    rename_i types _
    rcases ih with ih | ih
    · exact Or.inl (nullish_union_iff.mpr (Or.inr ⟨_, by rw [hsingle]; exact List.mem_cons_self, ih⟩))
    · cases hflag : (TypeExpr.splitNullable types).2 with
      | true => exact Or.inl (nullish_union_iff.mpr (Or.inl hflag))
      | false => exact Or.inr (.single hflag hsingle ih)
  | name hname hnode hkind hbody ih => exact ih.imp (.name hname hnode) (.name hname hnode hkind)

theorem readsNull_of_nullish {t : TypeExpr} (h : c.Nullish m t) :
    c.ReadsNull m t ∨ c.Misread m t := by
  refine h.members_induction (motive := fun m t => c.ReadsNull m t ∨ c.Misread m t) ?_ ?_ ?_ ?_
  · exact fun ih => ih.imp .paren .paren
  · exact fun hflag => Or.inl (.null hflag)
  · intro m s types t hmem ht ih
    cases hflag : (TypeExpr.splitNullable types).2 with
    | true => exact Or.inl (.null hflag)
    | false =>
      by_cases hseveral : 2 ≤ (TypeExpr.splitNullable types).1.length
      · exact Or.inr (.alternative hflag hseveral hmem ht)
      · have hpos := List.length_pos_of_mem hmem
        obtain ⟨single, hsingle⟩ := List.length_eq_one_iff.mp (by omega :
          (TypeExpr.splitNullable types).1.length = 1)
        rw [hsingle, List.mem_singleton] at hmem
        rw [← hmem] at hsingle
        exact ih.imp (.single hsingle) (.single hflag hsingle)
  · intro m s name arguments d a hname hnode hbody ih
    by_cases hkind : c.aliasKind d 0 = .transparent
    · exact ih.imp (.name hname hnode hkind) (.name hname hnode hkind)
    · exact Or.inr (.named hname hnode hkind hbody)

theorem readsNull_iff_nullish_iff {t : TypeExpr} :
    (c.ReadsNull m t ↔ c.Nullish m t) ↔ ¬ c.Misread m t := by
  constructor
  · exact fun hiff hmis => hmis.differs hiff
  · intro hno
    exact ⟨fun h => (nullish_of_readsNull h).resolve_right hno,
      fun h => (readsNull_of_nullish h).resolve_right hno⟩

/-- A type that is read without a report and without a scalar has the nullability that it should
have, exactly when it is not misread. -/
theorem nullable_classify_iff_nullish (c : Classifier) (m : SourceModule) (t : TypeExpr)
    (hquiet : (c.classify m t).diagnostics = [])
    (hscalar : ¬ (c.classify m t).value.UsesScalar) :
    ((c.classify m t).value.nullable = true ↔ c.Nullish m t) ↔ ¬ c.Misread m t := by
  rw [classify] at hquiet hscalar ⊢
  rw [readAt c m t 0 hquiet hscalar]
  exact readsNull_iff_nullish_iff

end Classifier

/-! ## An enum with `null` in it -/

namespace Sample

attribute [local irreducible] String.decEq

def classifier (m : SourceModule) : Classifier :=
  ⟨⟨[m]⟩, (ScalarRegistry.build ⟨[m]⟩ []).value⟩

/-- An alias that is only another name for its union. -/
def nameModule : SourceModule :=
  sourceModule [typeAlias "Name" (union [keyword .string, keyword .null])] []

/-- An alias that is an enum. -/
def statusModule : SourceModule :=
  sourceModule [typeAlias "Status" (union [text "a", text "b", keyword .null])] []

set_option maxRecDepth 10000

theorem classify_name :
    (classifier nameModule).classify nameModule (named "Name") = ⟨⟨.primitive .string, true⟩, []⟩ := by
  cbv

theorem classify_status :
    (classifier statusModule).classify statusModule (named "Status") =
      ⟨.reference "Status", []⟩ := by
  cbv

/-- A name that stands for a union with `null` takes `null`. -/
theorem nullish_alias {c : Classifier} {m : SourceModule} {name : String} {d : TypeDecl}
    {a : Alias} {types : List TypeExpr} (hname : c.resolveEntity m (.ident name) = .declared d)
    (hnode : d.node = .alias a) (hbody : a.body = union types) (hmem : keyword .null ∈ types) :
    c.Nullish m (named name) := by
  refine .name hname hnode ?_
  rw [hbody]
  exact .null hmem rfl

theorem nullish_name : (classifier nameModule).Nullish nameModule (named "Name") := by
  refine nullish_alias (by cbv) rfl rfl ?_
  simp [keyword, span]

theorem nullish_status : (classifier statusModule).Nullish statusModule (named "Status") := by
  refine nullish_alias (by cbv) rfl rfl ?_
  simp [keyword, span]

end Sample

open Sample

theorem not_misread_name : ¬ (classifier nameModule).Misread nameModule (named "Name") := by
  have hread := Classifier.nullable_classify_iff_nullish (classifier nameModule) nameModule
    (named "Name") (by rw [classify_name]) (by rw [classify_name]; exact id)
  rw [classify_name] at hread
  exact hread.mp (iff_of_true rfl nullish_name)

/-- An alias of an enum with `null` is read without a report and without a scalar, and its `null` is
lost. -/
theorem classify_loses_null :
    ((classifier statusModule).classify statusModule (named "Status")).diagnostics = [] ∧
      ¬ ((classifier statusModule).classify statusModule (named "Status")).value.UsesScalar ∧
        ¬ (((classifier statusModule).classify statusModule (named "Status")).value.nullable = true ↔
          (classifier statusModule).Nullish statusModule (named "Status")) := by
  rw [classify_status]
  refine ⟨rfl, id, ?_⟩
  intro hiff
  cases hiff.mpr nullish_status

end SchemaCompiler

import SchemaCompiler.Proofs.Diagnostics
import SchemaCompiler.Shape.Classify

/-!
# What the classifier does with each form of type

One equation for each form of type, at any depth that is still followed. Behind that depth nothing
is read, and the classifier says so. What is proved elsewhere of the classifier cites these and does
not open it again.
-/

namespace SchemaCompiler

open TypeScript

namespace Classifier

variable {c : Classifier} {m : SourceModule} {depth : Nat}

theorem diagnostics_unsupported_ne_nil (t : TypeExpr) (reason : String) :
    (unsupported m t reason).diagnostics ≠ [] := by
  simp [unsupported, refuse]

theorem classifyAt_too_deep (h : maxDepth < depth) (t : TypeExpr) :
    c.classifyAt m t depth =
      unsupported m t "type is nested too deeply or refers to itself" := by
  rw [classifyAt.eq_def, dif_pos h]

theorem classifyAt_deep (h : maxDepth < depth) (t : TypeExpr) :
    (c.classifyAt m t depth).diagnostics ≠ [] := by
  rw [classifyAt_too_deep h]
  exact diagnostics_unsupported_ne_nil _ _

/-! ## Parentheses -/

theorem classifyAt_paren (h : depth ≤ maxDepth) (s : Span) (inner : TypeExpr) :
    c.classifyAt m (.paren s inner) depth = c.classifyAt m inner depth := by
  rw [classifyAt, dif_neg (Nat.not_lt.mpr h)]

theorem classifyAt_stripParens (h : depth ≤ maxDepth) (t : TypeExpr) :
    c.classifyAt m t depth = c.classifyAt m t.stripParens depth := by
  fun_induction TypeExpr.stripParens t with
  | case1 s inner ih => rw [classifyAt_paren h, ih]
  | case2 t => rfl

theorem classifyAt_readonly (h : depth ≤ maxDepth) (s : Span) (inner : TypeExpr) :
    c.classifyAt m (.readonly s inner) depth = c.classifyAt m inner depth := by
  rw [classifyAt, dif_neg (Nat.not_lt.mpr h)]

/-! ## Types that are no union -/

theorem classifyAt_keyword (h : depth ≤ maxDepth) (s : Span) (word : Keyword) :
    c.classifyAt m (.keyword s word) depth =
      match word with
      | .string => pure (.primitive .string)
      | .number => pure (.primitive .number)
      | .boolean => pure (.primitive .boolean)
      | _ => unsupported m (.keyword s word) "this keyword type has no GraphQL equivalent" := by
  refine (classifyAt.eq_def c m _ depth).trans ((dif_neg (Nat.not_lt.mpr h)).trans ?_)
  cases word <;> rfl

theorem classifyAt_literal (h : depth ≤ maxDepth) (s : Span) (value : TypeLiteral) :
    c.classifyAt m (.literal s value) depth =
      match value with
      | .string v => pure (.plain (.literal (.string v)))
      | .number v => pure (.plain (.literal (.number v)))
      | .boolean v => pure (.plain (.literal (.boolean v)))
      | .other =>
        unsupported m (.literal s value) "template and bigint literals are not supported" := by
  refine (classifyAt.eq_def c m _ depth).trans ((dif_neg (Nat.not_lt.mpr h)).trans ?_)
  cases value <;> rfl

theorem classifyAt_other (h : depth ≤ maxDepth) (s : Span) :
    c.classifyAt m (.other s) depth =
      unsupported m (.other s)
        "mapped, conditional, function and tuple types are not supported" := by
  rw [classifyAt, dif_neg (Nat.not_lt.mpr h)]

theorem classifyAt_array (h : depth ≤ maxDepth) (s : Span) (element : TypeExpr) :
    c.classifyAt m (.array s element) depth =
      (do
        let inner ← c.classifyAt m element (depth + 1)
        pure (.plain (.array inner))) := by
  rw [classifyAt, dif_neg (Nat.not_lt.mpr h)]

theorem classifyAt_object (h : depth ≤ maxDepth) (s : Span) (members : List Member) :
    c.classifyAt m (.object s members) depth =
      (do
        let set ← c.typeProperties m (.object s members) (depth + 1)
        pure (.plain (.inlineObject set.fields))) := by
  rw [classifyAt, dif_neg (Nat.not_lt.mpr h)]

theorem classifyAt_intersection (h : depth ≤ maxDepth) (s : Span) (types : List TypeExpr) :
    c.classifyAt m (.intersection s types) depth =
      (do
        let set ← c.typeProperties m (.intersection s types) (depth + 1)
        pure (.plain (.inlineObject set.fields))) := by
  rw [classifyAt, dif_neg (Nat.not_lt.mpr h)]

/-- The type is not read off another one. -/
def IsLeaf : TypeExpr → Prop
  | .paren .. => False
  | .readonly .. => False
  | .union .. => False
  | .reference .. => False
  | _ => True

theorem nullable_classifyAt_leaf (h : depth ≤ maxDepth) {t : TypeExpr} (hleaf : IsLeaf t) :
    (c.classifyAt m t depth).value.nullable = false := by
  cases t with
  | keyword s word =>
    rw [classifyAt_keyword h]
    cases word <;> rfl
  | literal s value =>
    rw [classifyAt_literal h]
    cases value <;> rfl
  | array s element => rw [classifyAt_array h]; rfl
  | object s members => rw [classifyAt_object h]; rfl
  | intersection s types => rw [classifyAt_intersection h]; rfl
  | other s => rw [classifyAt_other h]; rfl
  | paren | readonly | union | reference => cases hleaf

/-! ## Unions -/

theorem classifyAll_eq_each (types : List TypeExpr) :
    c.classifyAll m types depth = Reported.each (fun t => c.classifyAt m t depth) types := by
  induction types with
  | nil => rw [classifyAll]; rfl
  | cons t types ih =>
    rw [classifyAll, ih]
    rfl

theorem classifyAt_union_single (h : depth ≤ maxDepth) (s : Span) {types : List TypeExpr}
    {single : TypeExpr} {nullable : Bool}
    (hsplit : TypeExpr.splitNullable types = ([single], nullable)) :
    c.classifyAt m (.union s types) depth =
      (do
        let inner ← c.classifyAt m single (depth + 1)
        pure (inner.orNullable nullable)) := by
  rw [classifyAt, dif_neg (Nat.not_lt.mpr h), hsplit]

theorem classifyAt_union_nil (h : depth ≤ maxDepth) (s : Span) {types : List TypeExpr}
    (hnone : (TypeExpr.splitNullable types).1 = []) :
    c.classifyAt m (.union s types) depth =
      unsupported m (.union s types) "a type made only of null/undefined" := by
  rw [classifyAt, dif_neg (Nat.not_lt.mpr h)]
  rcases hsplit : TypeExpr.splitNullable types with ⟨members, nullable⟩
  obtain rfl : members = [] := by rwa [hsplit] at hnone
  rfl

/-- A union of several members has a part for each of them, but that `true | false` is a type of its
own. -/
theorem classifyAt_union_several (h : depth ≤ maxDepth) (s : Span) {types : List TypeExpr}
    (hseveral : 2 ≤ (TypeExpr.splitNullable types).1.length) :
    c.classifyAt m (.union s types) depth =
      if (TypeExpr.splitNullable types).1.length == 2 &&
          (TypeExpr.splitNullable types).1.all (·.isBooleanLiteral) then
        pure ((TypeRef.primitive .boolean).orNullable (TypeExpr.splitNullable types).2)
      else
        (do
          let parts ← Reported.each (fun t => c.classifyAt m t (depth + 1))
            (TypeExpr.splitNullable types).1
          pure ((TypeRef.plain (.union parts)).orNullable (TypeExpr.splitNullable types).2)) := by
  rw [classifyAt, dif_neg (Nat.not_lt.mpr h)]
  rcases hsplit : TypeExpr.splitNullable types with ⟨members, nullable⟩
  rw [hsplit] at hseveral
  cases members with
  | nil => simp at hseveral
  | cons first rest =>
    cases rest with
    | nil => simp at hseveral
    | cons second more =>
      simp only [← classifyAll_eq_each]

theorem nullable_classifyAt_union_several (h : depth ≤ maxDepth) (s : Span) {types : List TypeExpr}
    (hseveral : 2 ≤ (TypeExpr.splitNullable types).1.length) :
    (c.classifyAt m (.union s types) depth).value.nullable = (TypeExpr.splitNullable types).2 := by
  rw [classifyAt_union_several h s hseveral]
  split
  · exact Bool.false_or _
  · exact Bool.false_or _

/-! ## References -/

theorem runtimeMeaning?_cases {m : SourceModule} {arguments : List TypeExpr} {name : String}
    {found : Meaning} (h : runtimeMeaning? m arguments name = some found) :
    (∃ use, found = .type (scalarType use)) ∨ ∃ message, found = .refused message := by
  unfold runtimeMeaning? at h
  split at h
  · exact Or.inl ⟨_, (Option.some.inj h).symm⟩
  · split at h
    · split at h
      · exact Or.inl ⟨_, (Option.some.inj h).symm⟩
      · exact Or.inr ⟨_, (Option.some.inj h).symm⟩
    · split at h
      · exact Or.inr ⟨_, (Option.some.inj h).symm⟩
      · cases h

theorem scalarMeaning?_cases {entity : EntityName} {named : Named} {found : Meaning}
    (h : c.scalarMeaning? m entity named = some found) :
    ∃ use, found = .type (scalarType use) := by
  obtain ⟨b, -, rfl⟩ := Option.map_eq_some_iff.mp h
  exact ⟨b.use, rfl⟩

/-- A name is a scalar, or refused, or what it is outside of the runtime package. -/
theorem meaning_cases (c : Classifier) (m : SourceModule) (entity : EntityName)
    (arguments : List TypeExpr) (depth : Nat) :
    (∃ use, c.meaning m entity arguments depth = .type (scalarType use)) ∨
      (∃ message, c.meaning m entity arguments depth = .refused message) ∨
        c.meaning m entity arguments depth =
          c.plainMeaning arguments depth (c.resolveEntity m entity) := by
  unfold meaning
  simp only
  split
  next found hruntime =>
    split at hruntime
    · rcases runtimeMeaning?_cases hruntime with hscalar | hrefused
      · exact Or.inl hscalar
      · exact Or.inr (Or.inl hrefused)
    · cases hruntime
  next =>
    split
    next found hscalar => exact Or.inl (scalarMeaning?_cases hscalar)
    next => exact Or.inr (Or.inr rfl)

/-- What is made of the meaning of a name. -/
def follow (c : Classifier) (m : SourceModule) (s : Span) (arguments : List TypeExpr)
    (depth : Nat) : Meaning → Reported TypeRef
  | .type found => pure found
  | .refused message => refuse m s message
  | .list element => do
    let inner ← c.classifyAt m element (depth + 1)
    pure (.plain (.array inner))
  | .utility u => do
    let set ← c.utilityProperties m s arguments u (depth + 1)
    pure (.plain (.inlineObject set.fields))
  | .alias target body => c.classifyAt target body (depth + 1)

theorem classifyAt_reference (h : depth ≤ maxDepth) (s : Span) (name : EntityName)
    (arguments : List TypeExpr) :
    c.classifyAt m (.reference s name arguments) depth =
      c.follow m s arguments depth (c.meaning m name arguments depth) := by
  rw [classifyAt, dif_neg (Nat.not_lt.mpr h)]
  cases c.meaning m name arguments depth <;> rfl

/-- A name outside of the runtime package that is a type is a reference to it. -/
theorem reference_of_plainMeaning {arguments : List TypeExpr} {named : Named} {found : TypeRef}
    (h : c.plainMeaning arguments depth named = .type found) :
    ∃ name, found = .reference name := by
  have byName : ∀ {name : String}, plainMeaning.byName name = .type found →
      ∃ name, found = .reference name := by
    intro name h
    unfold plainMeaning.byName at h
    split at h
    · cases h
    · cases h
      exact ⟨name, rfl⟩
  unfold plainMeaning at h
  cases named with
  | declared d =>
    simp only at h
    split at h
    · cases h
      exact ⟨_, rfl⟩
    · cases h
      exact ⟨_, rfl⟩
    · split at h
      · cases h
      · cases h
        exact ⟨_, rfl⟩
  | runtime name => cases h
  | external specifier name =>
    cases h
    exact ⟨_, rfl⟩
  | unknown name =>
    simp only at h
    split at h
    · split at h
      · cases h
      · exact byName h
    · exact byName h

theorem plainMeaning_alias {d : TypeDecl} {a : Alias} (hnode : d.node = .alias a)
    (arguments : List TypeExpr) (hkind : c.aliasKind d (depth + 1) = .transparent) :
    c.plainMeaning arguments depth (.declared d) = .alias d.module a.body := by
  simp only [plainMeaning, hnode, if_pos hkind]

theorem alias_of_plainMeaning {arguments : List TypeExpr} {named : Named} {target : SourceModule}
    {body : TypeExpr} (h : c.plainMeaning arguments depth named = .alias target body) :
    ∃ d a, named = .declared d ∧ d.node = .alias a ∧
      c.aliasKind d (depth + 1) = .transparent ∧ target = d.module ∧ body = a.body := by
  have byName : ∀ {name : String}, plainMeaning.byName name ≠ .alias target body := by
    intro name h
    unfold plainMeaning.byName at h
    split at h <;> cases h
  unfold plainMeaning at h
  cases named with
  | declared d =>
    simp only at h
    split at h
    · cases h
    · cases h
    · rename_i a hnode
      split at h
      · rename_i hkind
        cases h
        exact ⟨d, a, rfl, hnode, hkind, rfl, rfl⟩
      · cases h
  | unknown name =>
    simp only at h
    split at h
    · split at h
      · cases h
      · exact absurd h byName
    · exact absurd h byName
  | _ => cases h

/-- Only an alias takes `null` along with its name. -/
theorem nullable_follow_plainMeaning {s : Span} {arguments : List TypeExpr} {named : Named}
    (h : ∀ target body, c.plainMeaning arguments depth named ≠ .alias target body) :
    (c.follow m s arguments depth (c.plainMeaning arguments depth named)).value.nullable = false := by
  rcases hmeaning : c.plainMeaning arguments depth named with found | _ | _ | _ | ⟨target, body⟩
  · obtain ⟨name, rfl⟩ := reference_of_plainMeaning hmeaning
    rfl
  · rfl
  · rfl
  · rfl
  · exact absurd hmeaning (h target body)

end Classifier

end SchemaCompiler

import Mathlib
import SchemaCompiler.Proofs.Declarations
import SchemaCompiler.Proofs.ResolverFields
import SchemaCompiler.Proofs.Sample
import SchemaCompiler.Resolver.Collect

/-!
# Scalars that are bound to one side

A scalar may be bound to the input side or to the output side alone. Lowering looks at every scalar
that it comes to, at any depth, and where it leaves something out it says so. Without errors no
scalar stands on a side that it is not bound to, neither in the fields of an exported type nor in a
resolver. Field resolvers that name no type are left out silently; no program has such a resolver.
-/

namespace SchemaCompiler.GraphQL

open Lowering (Yields)

/-- The scalars of a resolver may be used on the sides that they are on. -/
structure ResolverAdmitted (r : Resolver) : Prop where
  arguments : Admitted .input (scalarsInFields (r.args.getD []))
  result : Admitted .output (scalarsInElement r.returnType)

namespace ResolverFields

theorem scalarsInField_eq (p : SchemaCompiler.Field) :
    scalarsInField p = scalarsInElement p.type := by
  cases p
  rfl

theorem arguments_yields (hint : String) (r : Resolver) (args : List SchemaCompiler.Field) :
    Yields (arguments hint r args) fun _ => Admitted .input (scalarsInFields args) := by
  induction args with
  | nil => exact .pure (List.forall_mem_nil _)
  | cons a rest ih =>
    have hfirst : Yields (argument hint r a) fun _ => Admitted .input (scalarsInField a) :=
      (Lowering.fieldType_yields .input _ _ a.optional a.type).bind fun _ => .pure fun h =>
        scalarsInField_eq a ▸ h
    exact hfirst.bind fun _ => ih.bind fun _ => .pure fun hrest hfirst => hfirst.append hrest

theorem fieldOf_yields (owner : Owner) (r : Resolver) :
    Yields (fieldOf owner r) fun _ => ResolverAdmitted r :=
  (arguments_yields _ r _).bind fun _ =>
    (Lowering.fieldType_yields .output _ _ false r.returnType).bind fun _ =>
      .pure fun hresult harguments => ⟨harguments, hresult⟩

theorem addAll_yields (resolvers : List Resolver) (fields : ResolverFields) :
    Yields (fields.addAll resolvers) fun _ =>
      ∀ r ∈ resolvers, (owner? r).isSome = true → ResolverAdmitted r := by
  induction resolvers generalizing fields with
  | nil => exact .pure fun _ hr => absurd hr List.not_mem_nil
  | cons first rest ih =>
    rw [addAll]
    split
    · rename_i hnone
      refine (ih fields).mono fun _ h r hr howner => ?_
      rcases List.mem_cons.mp hr with rfl | hr
      · rw [hnone] at howner
        cases howner
      · exact h r hr howner
    · rename_i owner _
      refine (fieldOf_yields owner first).bind fun f => (ih (fields.add owner f)).mono ?_
      intro _ h hfirst r hr howner
      rcases List.mem_cons.mp hr with rfl | hr
      · exact hfirst
      · exact h r hr howner

/-! ## Resolvers of programs -/

open ResolverCandidate

variable {c : Classifier} {candidate : ResolverCandidate} {r : Resolver}

theorem owner_of_finish (kind : ResolverKind) {parent : Option String}
    {args result : TypeScript.TypeExpr} (hparent : kind = .field → parent.isSome = true)
    (h : (candidate.finish c kind parent args result).value = some r) :
    (owner? r).isSome = true := by
  cases h
  cases kind with
  | query => rfl
  | mutation => rfl
  | field => simpa [owner?] using hparent rfl

theorem owner_of_ofArguments {kind : ResolverKind} {arguments : List TypeScript.TypeExpr}
    (h : (candidate.ofArguments c kind arguments).value = some r) : (owner? r).isSome = true := by
  unfold ofArguments at h
  split at h
  · rw [Reported.value_bind] at h
    split at h
    · exact owner_of_finish .field (fun _ => rfl) h
    · cases h
  · exact owner_of_finish .query (fun hkind => by cases hkind) h
  · exact owner_of_finish .mutation (fun hkind => by cases hkind) h
  · cases h

theorem owner_of_ofInit {init : TypeScript.Expr}
    (h : (candidate.ofInit c init).value = some r) : (owner? r).isSome = true := by
  unfold ofInit at h
  split at h
  · split at h
    · cases h
    · split at h
      · cases h
      · exact owner_of_ofArguments h
  · split at h <;> cases h

/-- Every resolver of a program belongs to a type. -/
theorem owner_of_mem_collectResolvers (h : r ∈ (collectResolvers c).value) :
    (owner? r).isSome = true := by
  rw [collectResolvers, Reported.value_eachSome] at h
  obtain ⟨candidate, -, hr⟩ := List.mem_filterMap.mp h
  unfold resolver? at hr
  split at hr
  · exact owner_of_ofArguments hr
  · split at hr
    · exact owner_of_ofInit hr
    · cases hr

end ResolverFields

/-! ## Exported types and resolvers -/

theorem admitted_of_lowerTypes {types : List ExportedType}
    (h : (lowerTypes types).diagnostics = []) {t : ExportedType} (ht : t ∈ types) :
    Admitted (sideOf t) (scalarsInFields (fieldProperties t)) := by
  obtain ⟨declared, hbecomes, -⟩ := lowerTypes_ok (hasErrors_of_eq_nil h)
  obtain ⟨d, -, hd⟩ := exists_of_forall₂ hbecomes ht
  exact hd.scalars

theorem admitted_of_lowerResolvers {resolvers : List Resolver}
    (h : (lowerResolvers resolvers).diagnostics = []) {r : Resolver} (hr : r ∈ resolvers)
    (howner : (ResolverFields.owner? r).isSome = true) : ResolverAdmitted r :=
  (ResolverFields.addAll_yields resolvers {} {} (hasErrors_of_eq_nil h)).2 r hr howner

/-- Without errors, every scalar in the fields of an exported type, and in the arguments and the
result of a resolver that belongs to a type, may be used on the side that it is on. -/
theorem scalars_admitted (types : List ExportedType) (resolvers : List Resolver)
    (htypes : (lowerTypes types).diagnostics = [])
    (hresolvers : (lowerResolvers resolvers).diagnostics = []) :
    (∀ t ∈ types, Admitted (sideOf t) (scalarsInFields (fieldProperties t))) ∧
      ∀ r ∈ resolvers, (ResolverFields.owner? r).isSome = true → ResolverAdmitted r :=
  ⟨fun _ => admitted_of_lowerTypes htypes, fun _ => admitted_of_lowerResolvers hresolvers⟩

/-- Every resolver of a program belongs to a type, so all its scalars are on their sides. -/
theorem admitted_of_collectResolvers {c : Classifier}
    (h : (lowerResolvers (collectResolvers c).value).diagnostics = []) {r : Resolver}
    (hr : r ∈ (collectResolvers c).value) : ResolverAdmitted r :=
  admitted_of_lowerResolvers h hr (ResolverFields.owner_of_mem_collectResolvers hr)

/-! ## Days of one side -/

open Sample (exportedInterface resolver)

/-- A scalar that is bound to one side. -/
def dayOf (side : Side) : ScalarUse := ⟨"Day", "Day", none, true, some side⟩

/-- A list of objects with a scalar that is bound to one side. -/
def dayObjects (name : String) (side : Side) : SchemaCompiler.Field :=
  ⟨name, TypeRef.plain (.array (TypeRef.plain (.inlineObject [day]))), false, none, none, none⟩
where
  day : SchemaCompiler.Field :=
    ⟨"day", TypeRef.plain (.scalar (dayOf side)), false, none, none, none⟩

/-- Days that are taken stand in an input object and in an argument, days that are given in an
object and in what a query returns. -/
theorem scalars_admitted_days :
    let types := [exportedInterface "User" [dayObjects "days" .output],
      exportedInterface "UserInput" [dayObjects "days" .input]]
    let resolvers := [resolver .query "users" (dayObjects "on" .input) (dayObjects "" .output).type]
    (lowerTypes types).diagnostics = [] ∧ (lowerResolvers resolvers).diagnostics = [] ∧
      (∀ t ∈ types, Admitted (sideOf t) (scalarsInFields (fieldProperties t))) ∧
        ∀ r ∈ resolvers, ResolverAdmitted r := by
  intro types resolvers
  have htypes : (lowerTypes types).diagnostics = [] := by decide +kernel
  have hresolvers : (lowerResolvers resolvers).diagnostics = [] := by decide +kernel
  obtain ⟨hfirst, hsecond⟩ := scalars_admitted types resolvers htypes hresolvers
  refine ⟨htypes, hresolvers, hfirst, fun r hr => hsecond r hr ?_⟩
  rw [List.mem_singleton.mp hr]
  rfl

/-- A field resolver that names no type is left out without a report, with an argument of days that
are only given. -/
theorem days_taken_without_report :
    let r := resolver .field "posts" (dayObjects "on" .output) (TypeRef.primitive .string)
    (lowerTypes []).diagnostics = [] ∧ (lowerResolvers [r]).diagnostics = [] ∧
      ¬ ResolverAdmitted r := by
  refine ⟨rfl, rfl, fun h => ?_⟩
  cases h.arguments (dayOf .output) (by decide)

end SchemaCompiler.GraphQL

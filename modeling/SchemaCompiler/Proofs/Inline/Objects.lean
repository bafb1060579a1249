import Mathlib
import SchemaCompiler.Proofs.Inline.Runs
import SchemaCompiler.Proofs.Sample

/-!
# Objects that are written out

Lowering makes types for the objects that are written out in exported types and in resolvers.
Objects of one name share a type, and all that is compared is their fields: one type may then have
to be an object and an input object. Without errors this is all that can go wrong. Every name stands
for what is written out in its place exactly when no name is given to objects of both sides.
-/

namespace SchemaCompiler.GraphQL

/-! ## All exported types -/

theorem typesStand_iff {types : List ExportedType} (h : (lowerTypes types).diagnostics = []) :
    TypesStand types (lowerTypes types).value ↔ OneKind (types.flatMap objectsInType) := by
  have hsplit : ((Lowering.typeDefs [] types).run {}).2.diagnostics ++
      (addInline ((Lowering.typeDefs [] types).run {}).1 (inlineTypes types)).diagnostics = [] := h
  obtain ⟨hlower, hadd⟩ := List.append_eq_nil_iff.mp hsplit
  have hvalue : (lowerTypes types).value =
      ((Lowering.typeDefs [] types).run {}).1 ++ inlineTypes types :=
    addInline_eq_append (hasErrors_of_eq_nil hadd)
  have hts := lowerTypes_nodup types
  have hsub : inlineTypes types ⊆ (lowerTypes types).value :=
    hvalue ▸ List.subset_append_right _ _
  obtain ⟨-, hgrows, declared, hdeclared, hstands⟩ :=
    Lowering.typeDefs_settles hts types [] {} (hasErrors_of_eq_nil hlower) hsub
  rw [List.nil_append] at hdeclared
  rw [← hgrows.realized_iff hsub hts, realized_flatMap]
  refine forall₂_congr fun t ht => ?_
  obtain ⟨d, hd, hname, hiff⟩ := exists_of_forall₂ hstands ht
  have hmem : d ∈ (lowerTypes types).value := by
    rw [hvalue, hdeclared]
    exact List.mem_append_left _ hd
  rw [← hiff]
  constructor
  · rintro ⟨e, he, hsame, hfields⟩
    obtain rfl : e = d := List.inj_on_of_nodup_map hts he hmem (hsame.trans hname.symm)
    exact hfields
  · exact fun hfields => ⟨d, hmem, hname, hfields⟩

/-! ## All resolvers -/

namespace ResolverFields

theorem resolversStand_iff {resolvers : List Resolver}
    (h : (lowerResolvers resolvers).diagnostics = []) :
    Matches (ResolverStands (lowerResolvers resolvers).value.types)
        (lowerResolvers resolvers).value resolvers ↔
      OneKind (resolvers.flatMap objectsInResolver) := by
  have hts := lowerResolvers_nodup resolvers
  obtain ⟨-, hgrows, hmatches⟩ := addAll_settles hts resolvers {} {} (hasErrors_of_eq_nil h)
    (List.Subset.refl _)
  rw [← hgrows.realized_iff (List.Subset.refl _) hts, realized_flatMap]
  have howner (owner : Owner) := forall₂_iff_forall (hmatches [] matches_empty owner)
  constructor
  · intro hstand r hr
    cases howns : owner? r with
    | none =>
      rw [objectsInResolver, howns]
      exact realized_nil
    | some owner => exact (howner owner).mp (hstand owner) r (mem_group_iff.mpr ⟨hr, howns⟩)
  · intro hrealized owner
    exact (howner owner).mpr fun r hr => hrealized r (mem_group_iff.mp hr).1

end ResolverFields

/-! ## Faithful names -/

open ResolverFields in
/-- Without errors, every name that is put in the place of a written-out object stands for it
exactly when no name is given to objects of both sides. -/
theorem inlineObjects_stand_iff (types : List ExportedType) (resolvers : List Resolver) :
    ((lowerTypes types).diagnostics = [] →
      (TypesStand types (lowerTypes types).value ↔ OneKind (types.flatMap objectsInType))) ∧
    ((lowerResolvers resolvers).diagnostics = [] →
      (Matches (ResolverStands (lowerResolvers resolvers).value.types)
          (lowerResolvers resolvers).value resolvers ↔
        OneKind (resolvers.flatMap objectsInResolver))) :=
  ⟨typesStand_iff, resolversStand_iff⟩

/-! ## Addresses that are written out -/

open Sample (exportedInterface resolver)

/-- A property of an object with one text. -/
def textObject (name : String) : SchemaCompiler.Field :=
  ⟨name, TypeRef.plain (.inlineObject [text]), false, none, none, none⟩
where
  text : SchemaCompiler.Field := ⟨"text", TypeRef.primitive .string, false, none, none, none⟩

/-- The addresses of a user and of an input for it get names of their own, and so do an argument and
what a query returns. -/
theorem inlineObjects_stand_users :
    let types :=
      [exportedInterface "User" [textObject "address"],
        exportedInterface "UserInput" [textObject "address"]]
    let resolvers := [resolver .query "users" (textObject "filter") (textObject "page").type]
    (lowerTypes types).diagnostics = [] ∧ TypesStand types (lowerTypes types).value ∧
      (lowerResolvers resolvers).diagnostics = [] ∧
        ResolverFields.Matches (ResolverStands (lowerResolvers resolvers).value.types)
          (lowerResolvers resolvers).value resolvers := by
  intro types resolvers
  have htypes : types.flatMap objectsInType =
      [("UserAddress", .object), ("UserAddressInput", .inputObject)] := by decide +kernel
  have hresolvers : resolvers.flatMap objectsInResolver =
      [("UsersFilterInput", .inputObject), ("QueryUsersPayload", .object)] := by decide +kernel
  have hclean : (lowerTypes types).diagnostics = [] := by decide +kernel
  have hclean' : (lowerResolvers resolvers).diagnostics = [] := by decide +kernel
  refine ⟨hclean, ?_, hclean', ?_⟩
  · exact ((inlineObjects_stand_iff types resolvers).1 hclean).mpr (htypes ▸ by decide)
  · exact ((inlineObjects_stand_iff types resolvers).2 hclean').mpr (hresolvers ▸ by decide)

/-- The type for the address input of a user is an object. The address of a user input is named
alike, and its place has the object too. -/
theorem addressInput_is_object :
    let types :=
      [exportedInterface "User" [textObject "addressInput"],
        exportedInterface "UserInput" [textObject "address"]]
    (lowerTypes types).diagnostics = [] ∧ ¬ TypesStand types (lowerTypes types).value := by
  intro types
  have htypes : types.flatMap objectsInType =
      [("UserAddressInput", .object), ("UserAddressInput", .inputObject)] := by decide +kernel
  have hclean : (lowerTypes types).diagnostics = [] := by decide +kernel
  refine ⟨hclean, ?_⟩
  rw [typesStand_iff hclean, htypes]
  decide

end SchemaCompiler.GraphQL

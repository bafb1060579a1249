import Mathlib
import SchemaCompiler.Proofs.Sample
import SchemaCompiler.Proofs.Shape.Origins
import SchemaCompiler.Resolver.Collect

/-!
# What documents an argument

An argument may be a property of several parts of the type that it is read from. Of all these
properties the first gives the type. Its description is what the first property among the objects
that are written out says, or else the first one among the types that are named; whether it is
deprecated is found in the same way, apart from the description. So the two kinds of parts can be
interleaved in any way, as long as each kind keeps its order.
-/

namespace SchemaCompiler

open TypeScript

namespace TypeScript.TypeExpr

def isObject : TypeExpr → Bool
  | .object _ _ => true
  | _ => false

def isReference : TypeExpr → Bool
  | .reference _ _ _ => true
  | _ => false

/-- Two types of arguments whose parts are objects that are written out and types that are named, the
same ones of each kind in the same order. -/
structure Interleaved (t t' : TypeExpr) : Prop where
  parts : ∀ part ∈ t.argumentOrder ++ t'.argumentOrder, part.isObject || part.isReference
  objects : t.argumentOrder.filter isObject = t'.argumentOrder.filter isObject
  references : t.argumentOrder.filter isReference = t'.argumentOrder.filter isReference

theorem isReference_eq_not {t : TypeExpr} (h : t.isObject || t.isReference) :
    t.isReference = !t.isObject := by
  cases t with
  | object s members => rfl
  | reference s name arguments => rfl
  | _ => cases h

/-- A type that is no intersection is its only part. -/
theorem argumentOrder_of_stripParens {t part : TypeExpr} (h : t.stripParens = part)
    (hpart : ∀ s types, part ≠ .intersection s types) : t.argumentOrder = [part] := by
  rw [argumentOrder, argumentQueue]
  split
  · rename_i s types heq
    exact absurd (h.symm.trans heq) (hpart s types)
  · rename_i heq
    rw [argumentQueue, h]

theorem Interleaved.mem_iff {t t' : TypeExpr} (h : Interleaved t t') (part : TypeExpr) :
    part ∈ t.argumentOrder ↔ part ∈ t'.argumentOrder := by
  have hsplit : ∀ parts : List TypeExpr, (∀ p ∈ parts, p.isObject || p.isReference) →
      (part ∈ parts ↔ part ∈ parts.filter isObject ∨ part ∈ parts.filter isReference) := by
    intro parts hparts
    rw [List.mem_filter, List.mem_filter, ← and_or_left, and_iff_left_of_imp]
    exact fun hmem => by simpa using hparts part hmem
  rw [hsplit _ fun p hp => h.parts p (List.mem_append_left _ hp),
    hsplit _ fun p hp => h.parts p (List.mem_append_right _ hp), h.objects, h.references]

end TypeScript.TypeExpr

/-! ## The first property of a name -/

namespace PropertySet

variable {fields more : List Field}

/-- Of two properties of one name the first is found. -/
theorem find?_addFields (name : String) :
    (addFields fields more).find? (·.name == name) = (fields ++ more).find? (·.name == name) := by
  induction more generalizing fields with
  | nil => rw [addFields, List.append_nil]
  | cons f more ih =>
    rw [addFields, ih]
    split
    · rename_i hany
      obtain ⟨g, hg, hsame⟩ := List.any_eq_true.mp hany
      have hfirst : ∀ h : (f.name == name) = true, (fields.find? (·.name == name)).isSome := by
        intro h
        rw [List.find?_isSome]
        exact ⟨g, hg, by rw [beq_iff_eq.mp hsame]; exact h⟩
      rw [List.find?_append, List.find?_append, List.find?_cons]
      split
      · rename_i hf
        obtain ⟨found, hfound⟩ := Option.isSome_iff_exists.mp (hfirst hf)
        rw [hfound]
        rfl
      · rfl
    · rw [List.append_assoc]
      rfl

theorem nodup_addFields (h : (fields.map (·.name)).Nodup) :
    ((addFields fields more).map (·.name)).Nodup := by
  induction more generalizing fields with
  | nil => exact h
  | cons f more ih =>
    rw [addFields]
    split
    · exact ih h
    · rename_i hnew
      refine ih ?_
      rw [List.map_append, List.map_singleton, List.nodup_append]
      refine ⟨h, List.nodup_singleton _, ?_⟩
      intro name hname other hother heq
      obtain ⟨g, hg, rfl⟩ := List.mem_map.mp hname
      rw [List.mem_singleton.mp hother] at heq
      exact hnew (List.any_eq_true.mpr ⟨g, hg, beq_iff_eq.mpr heq⟩)

theorem find?_foldl_addFields (lists : List (List Field)) (name : String) :
    (lists.foldl addFields fields).find? (·.name == name) =
      (fields ++ lists.flatten).find? (·.name == name) := by
  induction lists generalizing fields with
  | nil => rw [List.flatten_nil, List.append_nil, List.foldl_nil]
  | cons list lists ih =>
    rw [List.foldl_cons, ih, List.find?_append, find?_addFields, ← List.find?_append,
      List.flatten_cons, List.append_assoc]

theorem nodup_foldl_addFields (lists : List (List Field)) (h : (fields.map (·.name)).Nodup) :
    ((lists.foldl addFields fields).map (·.name)).Nodup := by
  induction lists generalizing fields with
  | nil => exact h
  | cons list lists ih => exact ih (nodup_addFields h)

theorem mem_foldl_addFields (lists : List (List Field)) (name : String) :
    name ∈ (lists.foldl addFields fields).map (·.name) ↔
      name ∈ fields.map (·.name) ∨ ∃ list ∈ lists, name ∈ list.map (·.name) := by
  induction lists generalizing fields with
  | nil => simp
  | cons list lists ih =>
    rw [List.foldl_cons, ih, mem_addFields, or_assoc]
    simp only [List.mem_cons, exists_eq_or_imp]

/-- A property is the one that is found by its name when names do not repeat. -/
theorem find?_of_mem (h : (fields.map (·.name)).Nodup) {f : Field} (hf : f ∈ fields) :
    fields.find? (·.name == f.name) = some f := by
  induction fields with
  | nil => cases hf
  | cons g rest ih =>
    rw [List.map_cons, List.nodup_cons] at h
    rcases List.mem_cons.mp hf with rfl | hf
    · exact List.find?_cons_of_pos (beq_self_eq_true _)
    · have hne : (g.name == f.name) = false := by
        refine beq_eq_false_iff_ne.mpr fun heq => h.1 ?_
        exact heq ▸ List.mem_map_of_mem hf
      rw [List.find?_cons, hne]
      exact ih h.2 hf

end PropertySet

/-! ## Arguments of parts -/

/-- What the first property of a name in one list says, or else the first one in another list. -/
def firstSaid {α : Type} (said : Field → Option α) (inline behind : List Field) (name : String) :
    Option α :=
  ((ArgumentPart.named? inline name).bind said).or ((ArgumentPart.named? behind name).bind said)

namespace ArgumentPart

def inlineFields (parts : List ArgumentPart) : List Field :=
  (parts.filter (·.inline)).flatMap (·.fields)

def behindFields (parts : List ArgumentPart) : List Field :=
  (parts.filter fun p => !p.inline).flatMap (·.fields)

theorem merge_eq (parts : List ArgumentPart) :
    merge parts = ((parts.map (·.fields)).foldl PropertySet.addFields []).map
      (document (inlineFields parts) (behindFields parts)) := rfl

theorem name_document (inline behind : List Field) (f : Field) :
    (document inline behind f).name = f.name := by
  unfold document
  split <;> rfl

theorem names_merge (parts : List ArgumentPart) :
    (merge parts).map (·.name) =
      ((parts.map (·.fields)).foldl PropertySet.addFields []).map (·.name) := by
  rw [merge_eq, List.map_map]
  exact List.map_congr_left fun f _ => name_document _ _ f

theorem nodup_names_merge (parts : List ArgumentPart) : ((merge parts).map (·.name)).Nodup := by
  rw [names_merge]
  exact @PropertySet.nodup_foldl_addFields [] _ List.nodup_nil

theorem mem_names_merge (parts : List ArgumentPart) (name : String) :
    name ∈ (merge parts).map (·.name) ↔ ∃ p ∈ parts, name ∈ p.fields.map (·.name) := by
  rw [names_merge, PropertySet.mem_foldl_addFields]
  simp

theorem named?_append (a b : List Field) (name : String) :
    named? (a ++ b) name = (named? a name).or (named? b name) :=
  List.find?_append

theorem inlineFields_cons (p : ArgumentPart) (parts : List ArgumentPart) :
    inlineFields (p :: parts) = (if p.inline then p.fields else []) ++ inlineFields parts := by
  rw [inlineFields, List.filter_cons]
  cases p.inline <;> rfl

theorem behindFields_cons (p : ArgumentPart) (parts : List ArgumentPart) :
    behindFields (p :: parts) = (if p.inline then [] else p.fields) ++ behindFields parts := by
  rw [behindFields, List.filter_cons]
  cases p.inline <;> rfl

/-- A name that no object has is looked for in the named types alone. -/
theorem named?_flatMap {parts : List ArgumentPart} {name : String}
    (h : named? (inlineFields parts) name = none) :
    named? (parts.flatMap (·.fields)) name = named? (behindFields parts) name := by
  induction parts with
  | nil => rfl
  | cons p parts ih =>
    rw [inlineFields_cons, named?_append, Option.or_eq_none_iff] at h
    rw [List.flatMap_cons, named?_append, ih h.2, behindFields_cons, named?_append]
    cases hinline : p.inline with
    | true =>
      rw [hinline, if_pos rfl] at h
      rw [h.1]
      rfl
    | false => rfl

/-- An argument is documented by the objects first and by the named types behind them. -/
theorem document_of_mem_merge {parts : List ArgumentPart} {f : Field} (h : f ∈ merge parts) :
    f.description = firstSaid (·.description) (inlineFields parts) (behindFields parts) f.name ∧
      f.deprecated = firstSaid (·.deprecated) (inlineFields parts) (behindFields parts) f.name := by
  rw [merge_eq] at h
  obtain ⟨g, hg, rfl⟩ := List.mem_map.mp h
  rw [name_document, firstSaid, firstSaid, document]
  cases hown : named? (inlineFields parts) g.name with
  | some own => exact ⟨rfl, rfl⟩
  | none =>
    have hapart := @PropertySet.nodup_foldl_addFields [] (parts.map (·.fields)) List.nodup_nil
    have hfound := PropertySet.find?_of_mem hapart hg
    rw [PropertySet.find?_foldl_addFields, List.nil_append, ← List.flatMap_def] at hfound
    have hfirst : named? (behindFields parts) g.name = some g :=
      (named?_flatMap hown).symm.trans hfound
    rw [hfirst]
    exact ⟨rfl, rfl⟩

/-! ## Parts of a type -/

/-- What is read of one part of the type of arguments. -/
def ofPart (c : Classifier) (m : SourceModule) : TypeExpr → ArgumentPart
  | .object _ members => ⟨(c.memberFields m members 0).value, true, none⟩
  | .reference s name arguments =>
    ⟨(c.typeProperties m (.reference s name arguments) 0).value.fields, false, source? c m name⟩
  | _ => ⟨[], false, none⟩

variable {c : Classifier} {m : SourceModule} {exportName : String}

theorem inline_ofPart (t : TypeExpr) : (ofPart c m t).inline = t.isObject := by
  cases t <;> rfl

/-- Reading does not give up at objects and named types. -/
theorem value_readAll {parts : List TypeExpr}
    (h : ∀ part ∈ parts, part.isObject || part.isReference) :
    (readAll c m exportName parts).value = some (parts.map (ofPart c m)) := by
  induction parts with
  | nil => rfl
  | cons part rest ih =>
    have hrest := ih fun p hp => h p (List.mem_cons_of_mem _ hp)
    have hpart := h part List.mem_cons_self
    cases part with
    | object s members =>
      simp only [readAll, Reported.value_bind, Reported.value_pure, hrest, List.map_cons]
      rfl
    | reference s name arguments =>
      simp only [readAll, Reported.value_bind, Reported.value_pure, hrest, List.map_cons]
      rfl
    | _ => cases hpart

/-- The arguments of a resolver as it is listed; there are none also where it takes none. -/
def argumentsOf (c : Classifier) (m : SourceModule) (exportName : String) (t : TypeExpr) :
    List Field :=
  ((read c m exportName t).value.map merge).getD []

/-- The properties of the objects that are written out in the type of arguments. -/
def literalFields (c : Classifier) (m : SourceModule) (t : TypeExpr) : List Field :=
  (t.argumentOrder.filter TypeExpr.isObject).flatMap fun part => (ofPart c m part).fields

/-- The properties of the types that are named in the type of arguments. -/
def referencedFields (c : Classifier) (m : SourceModule) (t : TypeExpr) : List Field :=
  (t.argumentOrder.filter TypeExpr.isReference).flatMap fun part => (ofPart c m part).fields

/-- The type that stands for no arguments has no properties. -/
theorem fields_of_isRuntimeRef {t : TypeExpr} (h : c.isRuntimeRef m t "NoArgs" = true) :
    ∃ part, t.argumentOrder = [part] ∧ (ofPart c m part).fields = [] := by
  unfold Classifier.isRuntimeRef at h
  split at h
  · rename_i s name arguments hstrip
    refine ⟨_, TypeExpr.argumentOrder_of_stripParens hstrip (by simp), ?_⟩
    have hrefused : c.source m name = .refused := by
      unfold Classifier.source
      split at h
      · rename_i n hresolve
        rw [hresolve, beq_iff_eq.mp h]
        rfl
      · cases h
    rw [ofPart, Classifier.typeProperties, TypeExpr.mergeOrder_self (by simp) (by simp),
      Classifier.partProperties_cons, Classifier.contribution,
      Classifier.referenceProperties.eq_def, hrefused]
    simp only [Reported.value_bind, Reported.value_pure, Classifier.partProperties]
    rfl
  · cases h

theorem argumentsOf_eq {t : TypeExpr}
    (h : ∀ part ∈ t.argumentOrder, part.isObject || part.isReference) :
    argumentsOf c m exportName t = merge (t.argumentOrder.map (ofPart c m)) := by
  rw [argumentsOf, read]
  split
  · rename_i hnone
    obtain ⟨part, horder, hfields⟩ := fields_of_isRuntimeRef hnone
    rw [horder, merge_eq, List.map_singleton, List.map_singleton, hfields]
    rfl
  · rw [value_readAll h]
    rfl

theorem inlineFields_map (parts : List TypeExpr) :
    inlineFields (parts.map (ofPart c m)) =
      (parts.filter TypeExpr.isObject).flatMap fun part => (ofPart c m part).fields := by
  rw [inlineFields, List.filter_map, List.flatMap_map]
  refine congrArg (List.flatMap _) (List.filter_congr fun part _ => ?_)
  exact inline_ofPart part

theorem behindFields_map {parts : List TypeExpr}
    (h : ∀ part ∈ parts, part.isObject || part.isReference) :
    behindFields (parts.map (ofPart c m)) =
      (parts.filter TypeExpr.isReference).flatMap fun part => (ofPart c m part).fields := by
  rw [behindFields, List.filter_map, List.flatMap_map]
  refine congrArg (List.flatMap _) (List.filter_congr fun part hpart => ?_)
  rw [TypeExpr.isReference_eq_not (h part hpart), Function.comp_apply, inline_ofPart]

/-- Two lists of arguments with the same names, each argument documented by one list of properties
first and by the other behind it. -/
structure DocumentedAlike (inline behind args args' : List Field) : Prop where
  apart : (args.map (·.name)).Nodup ∧ (args'.map (·.name)).Nodup
  names : ∀ name, name ∈ args.map (·.name) ↔ name ∈ args'.map (·.name)
  description : ∀ f ∈ args ++ args', f.description = firstSaid (·.description) inline behind f.name
  deprecated : ∀ f ∈ args ++ args', f.deprecated = firstSaid (·.deprecated) inline behind f.name

/-- However objects and named types are interleaved in the type of its arguments, a resolver is read,
and has the same arguments with the same documentation. -/
theorem documentedAlike_of_interleaved (c : Classifier) (m : SourceModule) (exportName : String)
    {t t' : TypeExpr} (h : TypeExpr.Interleaved t t') :
    (read c m exportName t).value.isSome = !c.isRuntimeRef m t "NoArgs" ∧
      DocumentedAlike (literalFields c m t) (referencedFields c m t)
        (argumentsOf c m exportName t) (argumentsOf c m exportName t') := by
  have hparts : ∀ part ∈ t.argumentOrder, part.isObject || part.isReference :=
    fun part hpart => h.parts part (List.mem_append_left _ hpart)
  have hparts' : ∀ part ∈ t'.argumentOrder, part.isObject || part.isReference :=
    fun part hpart => h.parts part (List.mem_append_right _ hpart)
  have hdocument : ∀ f ∈ argumentsOf c m exportName t ++ argumentsOf c m exportName t',
      f.description = firstSaid (·.description) (literalFields c m t) (referencedFields c m t) f.name ∧
        f.deprecated =
          firstSaid (·.deprecated) (literalFields c m t) (referencedFields c m t) f.name := by
    intro f hf
    rw [argumentsOf_eq hparts, argumentsOf_eq hparts'] at hf
    rcases List.mem_append.mp hf with hf | hf
    · have hread := document_of_mem_merge hf
      rwa [inlineFields_map, behindFields_map hparts] at hread
    · have hread := document_of_mem_merge hf
      rwa [inlineFields_map, behindFields_map hparts', ← h.objects, ← h.references] at hread
  refine ⟨?_, ?_, fun name => ?_, fun f hf => (hdocument f hf).1, fun f hf => (hdocument f hf).2⟩
  · rw [read]
    cases hnone : c.isRuntimeRef m t "NoArgs" with
    | true => rfl
    | false =>
      rw [if_neg (by simp), value_readAll hparts]
      rfl
  · rw [argumentsOf_eq hparts, argumentsOf_eq hparts']
    exact ⟨nodup_names_merge _, nodup_names_merge _⟩
  · rw [argumentsOf_eq hparts, argumentsOf_eq hparts', mem_names_merge, mem_names_merge]
    simp only [List.mem_map, exists_exists_and_eq_and, h.mem_iff]

end ArgumentPart

/-! ## A search by name -/

namespace Sample

attribute [local irreducible] String.decEq

def propertyAt (place : Nat) (name : String) (type : TypeExpr) : Member :=
  .property ⟨place, place⟩ (.fixed name) false (some type)

/-- An interface whose properties are described. A further property of one of the names, which stands
elsewhere, is deprecated and not described. -/
def filterModule : SourceModule :=
  { sourceModule
      [interface "Filter" [propertyAt 1 "name" (keyword .string),
        propertyAt 2 "limit" (keyword .number)]] [] with
    text := ⟨⟨[], [0]⟩, [], ⟨[(1, ⟨"* From the type. ", 0⟩), (2, ⟨"* Limit. ", 0⟩),
      (3, ⟨"* @deprecated use id ", 0⟩)], []⟩⟩ }

def filterClassifier : Classifier := ⟨⟨[filterModule]⟩, ⟨[], []⟩⟩

def allOf (types : List TypeExpr) : TypeExpr := .intersection span types

def byName : TypeExpr := object [propertyAt 3 "name" (keyword .string)]

def byId : TypeExpr := object [propertyAt 4 "id" (keyword .string)]

def searchArguments : TypeExpr := allOf [named "Filter", byName, byId]

def reorderedArguments : TypeExpr := allOf [byName, allOf [byId], named "Filter"]

theorem interleaved_search : TypeExpr.Interleaved searchArguments reorderedArguments := by
  have horder : searchArguments.argumentOrder = [named "Filter", byName, byId] := by
    simp [searchArguments, allOf, named, byName, byId, object, TypeExpr.argumentOrder,
      TypeExpr.argumentQueue, TypeExpr.stripParens]
  have horder' : reorderedArguments.argumentOrder = [byName, named "Filter", byId] := by
    simp [reorderedArguments, allOf, named, byName, byId, object, TypeExpr.argumentOrder,
      TypeExpr.argumentQueue, TypeExpr.stripParens]
  refine ⟨?_, ?_, ?_⟩
  · rw [horder, horder']
    simp [named, byName, byId, object, TypeExpr.isObject, TypeExpr.isReference]
  · rw [horder, horder']
    rfl
  · rw [horder, horder']
    rfl

end Sample

open Sample

theorem documentedAlike_search :
    TypeExpr.Interleaved searchArguments reorderedArguments ∧
      (ArgumentPart.read filterClassifier filterModule "search" searchArguments).value.isSome =
          !filterClassifier.isRuntimeRef filterModule searchArguments "NoArgs" ∧
        ArgumentPart.DocumentedAlike
          (ArgumentPart.literalFields filterClassifier filterModule searchArguments)
          (ArgumentPart.referencedFields filterClassifier filterModule searchArguments)
          (ArgumentPart.argumentsOf filterClassifier filterModule "search" searchArguments)
          (ArgumentPart.argumentsOf filterClassifier filterModule "search" reorderedArguments) :=
  ⟨interleaved_search, ArgumentPart.documentedAlike_of_interleaved filterClassifier filterModule
    "search" interleaved_search⟩

/-- The description of `name` is that of the interface, the deprecation that of the object. -/
example :
    (ArgumentPart.argumentsOf filterClassifier filterModule "search" searchArguments).map
        (fun f => (f.name, f.description, f.deprecated)) =
      [("name", some "From the type.", some ⟨some "use id"⟩), ("limit", some "Limit.", none),
        ("id", none, none)] := by
  cbv

end SchemaCompiler

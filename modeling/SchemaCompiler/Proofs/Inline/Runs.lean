import SchemaCompiler.Proofs.Inline.Stands

/-!
# Runs that make types for written-out objects

Two objects may get one name. Then a type is made for the first, and the second is compared with it
by its fields alone. `Settles` says what a run without errors does, given the types that lowering
ends with: it makes types for a list of objects and for nothing else, and its result stands for what
it was made from exactly when all these objects are realized.
-/

namespace SchemaCompiler.GraphQL

/-- Types are made for the given objects and for nothing else. -/
structure Grows (objects : List (String × Kind)) (before after : List TypeDef) : Prop where
  kept : before ⊆ after
  origin : ∀ t ∈ after, t ∈ before ∨ (t.name, t.kind) ∈ objects
  present : ∀ x ∈ objects, ∃ t ∈ after, t.name = x.1

theorem Grows.refl (types : List TypeDef) : Grows [] types types :=
  ⟨List.Subset.refl types, fun _ ht => Or.inl ht, nofun⟩

theorem Grows.trans {objects more : List (String × Kind)} {a b c : List TypeDef}
    (h : Grows objects a b) (h' : Grows more b c) : Grows (objects ++ more) a c where
  kept := List.Subset.trans h.kept h'.kept
  origin t ht := by
    rcases h'.origin t ht with ht | ht
    · exact (h.origin t ht).imp_right (List.mem_append_left more)
    · exact Or.inr (List.mem_append_right objects ht)
  present x hx := by
    rcases List.mem_append.mp hx with hx | hx
    · obtain ⟨t, ht, hname⟩ := h.present x hx
      exact ⟨t, h'.kept ht, hname⟩
    · exact h'.present x hx

/-- Types of different names that are made for objects realize these exactly when objects of one
name are of one kind. -/
theorem Grows.realized_iff {objects : List (String × Kind)} {made ts : List TypeDef}
    (h : Grows objects [] made) (hsub : made ⊆ ts) (hts : (ts.map (·.name)).Nodup) :
    Realized ts objects ↔ OneKind objects := by
  constructor
  · intro hrealized x hx y hy hname
    obtain ⟨t, ht, htname, htkind⟩ := hrealized x hx
    obtain ⟨u, hu, huname, hukind⟩ := hrealized y hy
    have htu : t = u :=
      List.inj_on_of_nodup_map hts ht hu (htname.trans (hname.trans huname.symm))
    rw [← htkind, ← hukind, htu]
  · intro hone x hx
    obtain ⟨t, ht, hname⟩ := h.present x hx
    have hobject := (h.origin t ht).resolve_left List.not_mem_nil
    exact ⟨t, hsub ht, hname, hone _ hobject x hx hname⟩

namespace Lowering

variable {α β : Type} {ts : List TypeDef} {objects more : List (String × Kind)}

/-- A run of `m` that ends without errors, with all its types among `ts`, started without errors. It
makes types for the given objects, and its result has `Q`. -/
def Settles (ts : List TypeDef) (objects : List (String × Kind)) (m : Lowering α)
    (Q : α → Prop) : Prop :=
  ∀ s : Synthesis, hasErrors (m.run s).2.diagnostics = false → (m.run s).2.types ⊆ ts →
    hasErrors s.diagnostics = false ∧ Grows objects s.types (m.run s).2.types ∧ Q (m.run s).1

theorem Settles.pure {Q : α → Prop} {a : α} (h : Q a) : Settles ts [] (pure a) Q :=
  fun s hs _ => ⟨hs, Grows.refl s.types, h⟩

theorem Settles.bind {Q : α → Prop} {R : β → Prop} {m : Lowering α} {f : α → Lowering β}
    (hm : Settles ts objects m Q) (hf : ∀ a, Settles ts more (f a) fun b => Q a → R b) :
    Settles ts (objects ++ more) (m >>= f) R := by
  intro s h hsub
  obtain ⟨hmiddle, hmore, hresult⟩ := hf (m.run s).1 (m.run s).2 h hsub
  obtain ⟨hstart, hfirst, ha⟩ := hm s hmiddle (List.Subset.trans hmore.kept hsub)
  exact ⟨hstart, hfirst.trans hmore, hresult ha⟩

theorem Settles.map {Q : α → Prop} {R : β → Prop} {m : Lowering α} {g : α → β}
    (hm : Settles ts objects m Q) (hg : ∀ a, Q a → R (g a)) :
    Settles ts objects (m >>= fun a => Pure.pure (g a)) R := by
  intro s h hsub
  obtain ⟨hstart, hgrows, ha⟩ := hm s h hsub
  exact ⟨hstart, hgrows, hg _ ha⟩

theorem Settles.mono {Q R : α → Prop} {m : Lowering α} (h : Settles ts objects m Q)
    (himp : ∀ a, Q a → R a) : Settles ts objects m R := by
  intro s hs hsub
  obtain ⟨hstart, hgrows, hresult⟩ := h s hs hsub
  exact ⟨hstart, hgrows, himp _ hresult⟩

/-- Of runs that never end without errors nothing has to be shown. -/
theorem Settles.of_refused {Q : α → Prop} {m : Lowering α} (h : Yields m fun _ => False) :
    Settles ts objects m Q :=
  fun s hs _ => (h s hs).2.elim

theorem settles_checkSide (side : Side) (location : Option SourceLocation) (use : ScalarUse) :
    Settles ts [] (checkSide side location use) fun _ => True := by
  unfold checkSide
  split
  · exact .of_refused (yields_report rfl)
  · exact .of_refused (yields_report rfl)
  · exact .pure trivial

/-- A type that is kept without errors is among the types in the end, by its name and its fields. -/
theorem settles_keep (t : TypeDef) :
    Settles ts [(t.name, t.kind)] (keep t) fun _ =>
      ∃ u ∈ ts, u.name = t.name ∧ (u.fields == t.fields) = true := by
  intro s h hsub
  rw [keep, StateT.run_bind] at h hsub ⊢
  cases hfind : s.types.find? (·.name == t.name) with
  | none =>
    simp only [StateT.run_get, pure_bind, hfind] at h hsub ⊢
    have ht : t ∈ s.types ++ [t] := List.mem_append_right _ List.mem_cons_self
    refine ⟨h, ⟨List.subset_append_left _ _, fun u hu => ?_, ?_⟩, t, hsub ht, rfl, BEq.rfl⟩
    · rcases List.mem_append.mp hu with hu | hu
      · exact Or.inl hu
      · exact Or.inr (List.mem_singleton.mp hu ▸ List.mem_cons_self)
    · rintro x hx
      exact ⟨t, ht, by rw [List.mem_singleton.mp hx]⟩
  | some existing =>
    simp only [StateT.run_get, pure_bind, hfind] at h hsub ⊢
    have hexisting := List.mem_of_find?_eq_some hfind
    have hname : existing.name = t.name := by simpa using List.find?_some hfind
    split at h
    · exact absurd (yields_report rfl s h).2 id
    · rename_i hsame
      rw [if_neg hsame] at hsub ⊢
      refine ⟨h, ⟨List.Subset.refl _, fun u hu => Or.inl hu, ?_⟩, existing, hsub hexisting, hname,
        ?_⟩
      · rintro x hx
        exact ⟨existing, hexisting, by rw [List.mem_singleton.mp hx]; exact hname⟩
      · simpa [bne] using hsame

/-! ## Shapes and fields -/

mutual

theorem typeName_settles (hts : (ts.map (·.name)).Nodup) (side : Side) (hint : String)
    (location : Option SourceLocation) :
    ∀ shape, Settles ts (objectsIn side hint shape) (typeName side hint location shape) fun name =>
      StandsFor ts side shape name ↔ Realized ts (objectsIn side hint shape)
  | .primitive _ => .pure (iff_of_true rfl realized_nil)
  | .literal _ => .pure (iff_of_true rfl realized_nil)
  | .reference _ => .pure (iff_of_true rfl realized_nil)
  | .scalar use => (settles_checkSide side location use).map fun _ _ => iff_of_true rfl realized_nil
  | .array element => elementName_settles hts side hint location element
  | .union members =>
    -- a union is refused, whatever it is named after
    .of_refused ((firstName_yields side hint location members).behind_report rfl)
  | .inlineObject properties =>
    (fieldsOf_settles hts side (inlineName side hint).1 properties).bind fun fields =>
      (settles_keep (inlineType side hint location fields)).map fun _ hkept hfields =>
        standsFor_inlineObject_iff hts hkept hfields

theorem elementName_settles (hts : (ts.map (·.name)).Nodup) (side : Side) (hint : String)
    (location : Option SourceLocation) :
    ∀ t, Settles ts (objectsInElement side hint t) (elementName side hint location t) fun name =>
      ElementStands ts side t name ↔ Realized ts (objectsInElement side hint t)
  | ⟨shape, _⟩ => typeName_settles hts side hint location shape

theorem fieldType_settles (hts : (ts.map (·.name)).Nodup) (side : Side) (hint : String)
    (location : Option SourceLocation) (optional : Bool) :
    ∀ t, Settles ts (objectsInElement side hint t) (fieldType side hint location optional t)
      fun type => TypeStands ts side optional t type ↔ Realized ts (objectsInElement side hint t)
  | ⟨shape, nullable⟩ => by
    have hname := typeName_settles hts side hint location shape
    cases harray : isArray shape with
    | false =>
      rw [fieldType_of_not_isArray harray]
      exact hname.map fun name h => (typeStands_named_iff harray).trans h
    | true =>
      cases shape <;> cases harray
      rename_i element
      rw [fieldType]
      split
      · have hitem := elementName_yields side hint location element
        refine .of_refused <| (yields_report rfl).bind fun _ => ?_
        exact hitem.bind fun _ => .pure fun _ h => h
      · rename_i hflat
        exact hname.map fun name h =>
          (typeStands_listOf_iff (Bool.eq_false_iff.mpr hflat)).trans h

theorem fieldOf_settles (hts : (ts.map (·.name)).Nodup) (side : Side) (owner : String) :
    ∀ p, Settles ts (objectsInField side owner p) (fieldOf side owner p) fun f =>
      FieldStands ts side p f ↔ Realized ts (objectsInField side owner p)
  | ⟨name, type, optional, _, _, location⟩ => by
    refine (fieldType_settles hts side (fieldHint owner name) location optional type).map
      fun type h => ?_
    rw [objectsInField, ← h]
    simp [FieldStands]

theorem fieldsOf_settles (hts : (ts.map (·.name)).Nodup) (side : Side) (owner : String) :
    ∀ properties, Settles ts (objectsInFields side owner properties)
      (fieldsOf side owner properties) fun fields =>
        FieldsStand ts side properties fields ↔ Realized ts (objectsInFields side owner properties)
  | [] => .pure (iff_of_true trivial realized_nil)
  | p :: rest =>
    (fieldOf_settles hts side owner p).bind fun _ =>
      (fieldsOf_settles hts side owner rest).map fun _ hrest hfirst =>
        fieldsStand_cons_iff hfirst hrest

end

/-! ## Exported types -/

/-- A schema type has the name of an exported type, and its fields stand for the properties exactly
when all that is written out in them is realized. -/
structure TypeSettled (ts : List TypeDef) (t : ExportedType) (d : TypeDef) : Prop where
  name : d.name = t.name
  fields : FieldsStand ts (sideOf t) (fieldProperties t) d.fields ↔ Realized ts (objectsInType t)

/-- What an exported type becomes without errors. -/
def SettlesType (ts : List TypeDef) (t : ExportedType) (m : Lowering (Option TypeDef)) : Prop :=
  Settles ts (objectsInType t) m fun result => ∃ d, result = some d ∧ TypeSettled ts t d

theorem settlesType_of_fields {t : ExportedType} {m : Lowering (Option TypeDef)} {side : Side}
    {properties : List SchemaCompiler.Field} (hside : sideOf t = side)
    (hproperties : fieldProperties t = properties)
    (h : Settles ts (objectsInFields side t.name properties) m fun result =>
      ∃ d, result = some d ∧ d.name = t.name ∧ (FieldsStand ts side properties d.fields ↔
        Realized ts (objectsInFields side t.name properties))) : SettlesType ts t m := by
  subst hside hproperties
  exact h.mono fun _ ⟨d, hd, hname, hfields⟩ => ⟨d, hd, hname, hfields⟩

theorem inputObject_settles (hts : (ts.map (·.name)).Nodup) {t : ExportedType}
    (hside : sideOf t = .input) (hfields : fieldProperties t = t.fields) :
    SettlesType ts t (inputObject t) :=
  settlesType_of_fields hside hfields <|
    (fieldsOf_settles hts .input t.name t.fields).map fun _ h => ⟨_, rfl, rfl, h⟩

theorem outputObject_settles (hts : (ts.map (·.name)).Nodup) {t : ExportedType} (kind : Kind)
    (hside : sideOf t = .output) (hfields : fieldProperties t = t.fields) :
    SettlesType ts t (outputObject t kind) :=
  settlesType_of_fields hside hfields <|
    (fieldsOf_settles hts .output t.name t.fields).map fun _ h => ⟨_, rfl, rfl, h⟩

theorem enumValues_settles (t : ExportedType) (members : List EnumLiteral) :
    Settles ts [] (enumValues t members) fun _ => True := by
  induction members with
  | nil => exact .pure trivial
  | cons m rest ih =>
    rw [enumValues]
    split
    · exact ih.map fun _ _ => trivial
    · exact .of_refused ((enumValues_yields t rest).behind_report rfl)

theorem enumType_settles {t : ExportedType} (hfields : fieldProperties t = []) :
    SettlesType ts t (enumType t) :=
  settlesType_of_fields rfl hfields <| (enumValues_settles t t.enumMembers).map fun _ _ =>
    ⟨_, rfl, rfl, iff_of_true trivial realized_nil⟩

theorem oneOfFields_settles (hts : (ts.map (·.name)).Nodup) (t : ExportedType)
    (members : List (List SchemaCompiler.Field)) :
    Settles ts (objectsInFields .input t.name (members.flatten.map asOptional))
      (oneOfFields t members) fun fields =>
        FieldsStand ts .input (members.flatten.map asOptional) fields ↔
          Realized ts (objectsInFields .input t.name (members.flatten.map asOptional)) := by
  induction members with
  | nil => exact .pure (iff_of_true trivial realized_nil)
  | cons member rest ih =>
    have hrest := oneOfFields_yields t rest
    match member with
    | [] => exact .of_refused (hrest.behind_report rfl)
    | [p] =>
      rw [oneOfFields_cons]
      exact (fieldOf_settles hts .input t.name (asOptional p)).bind fun _ =>
        ih.map fun _ hrest hfirst => fieldsStand_cons_iff hfirst hrest
    | _ :: _ :: _ => exact .of_refused (hrest.behind_report rfl)

theorem oneOfInput_settles (hts : (ts.map (·.name)).Nodup) {t : ExportedType}
    (hside : sideOf t = .input) (hkind : t.kind = .union) : SettlesType ts t (oneOfInput t) := by
  have hfields : fieldProperties t = t.inlineMembers.flatten.map asOptional := by
    rw [fieldProperties, hkind]
  exact settlesType_of_fields hside hfields <|
    (oneOfFields_settles hts t t.inlineMembers).map fun _ h => ⟨_, rfl, rfl, h⟩

theorem Route.settles (hts : (ts.map (·.name)).Nodup) {t : ExportedType}
    {m : Lowering (Option TypeDef)} (h : Route t m) : SettlesType ts t m := by
  cases h with
  | inputObject hname hkind =>
    have hfields : fieldProperties t = t.fields := by
      rcases hkind with hkind | hkind <;> rw [fieldProperties, hkind]
    exact inputObject_settles hts (sideOf_input hname) hfields
  | object hname hkind =>
    have hfields : fieldProperties t = t.fields := by
      rcases hkind with hkind | hkind <;> rw [fieldProperties, hkind]
    exact outputObject_settles hts .object (sideOf_output hname) hfields
  | graphqlInterface hname hkind =>
    exact outputObject_settles hts .interface (sideOf_output hname) (by rw [fieldProperties, hkind])
  | enum hname hkind => exact enumType_settles (by rw [fieldProperties, hkind])
  | oneOf hname hkind => exact oneOfInput_settles hts (sideOf_input hname) hkind
  | union hname hkind hmembers =>
    have hfields : fieldProperties t = [] := by
      rw [fieldProperties, hkind, hmembers]
      rfl
    exact settlesType_of_fields rfl hfields <|
      .pure ⟨_, rfl, rfl, iff_of_true trivial realized_nil⟩
  | invalidInput => exact .of_refused (invalidInput_refused t)
  | inlineUnion => exact .of_refused (inlineUnionOutput_refused t)

/-- Without errors every exported type becomes one type, in order. -/
theorem typeDefs_settles (hts : (ts.map (·.name)).Nodup) (types : List ExportedType)
    (done : List TypeDef) :
    Settles ts (types.flatMap objectsInType) (typeDefs done types) fun result =>
      ∃ declared, result = done ++ declared ∧
        List.Forall₂ (TypeSettled ts) types declared := by
  induction types generalizing done with
  | nil => exact .pure ⟨[], (List.append_nil done).symm, .nil⟩
  | cons t rest ih =>
    have hrest := typeDefs_yields rest done
    rw [typeDefs]
    split
    · exact .of_refused (hrest.behind_report rfl)
    · split
      · exact .of_refused (hrest.behind_report rfl)
      · refine ((typeDef_route t).settles hts).bind fun result => ?_
        cases result with
        | none =>
          refine (ih done).mono fun _ _ h => ?_
          obtain ⟨d, hd, -⟩ := h
          cases hd
        | some d =>
          refine (ih (done ++ [d])).mono fun result h hfirst => ?_
          obtain ⟨declared, rfl, hdeclared⟩ := h
          obtain ⟨d', hd', hstands⟩ := hfirst
          cases hd'
          exact ⟨d :: declared, List.append_assoc done [d] declared, .cons hstands hdeclared⟩

end Lowering

/-! ## Resolvers -/

namespace ResolverFields

open Lowering (Settles)

variable {ts : List TypeDef}

/-- A field stands for a resolver exactly when all that is written out in the resolver is
realized. -/
def ResolverSettled (ts : List TypeDef) (r : Resolver) (f : ResolvedField) : Prop :=
  ResolverStands ts r f ↔ Realized ts (objectsInResolver r)

theorem arguments_settles (hts : (ts.map (·.name)).Nodup) (hint : String) (r : Resolver)
    (args : List SchemaCompiler.Field) :
    Settles ts (objectsInArguments hint args) (arguments hint r args) fun values =>
      List.Forall₂ (ArgumentStands ts) args values ↔
        Realized ts (objectsInArguments hint args) := by
  induction args with
  | nil => exact .pure (iff_of_true .nil realized_nil)
  | cons a rest ih =>
    have hfirst : Settles ts (objectsInElement .input (hint ++ Text.pascal a.name) a.type)
        (argument hint r a) fun v => ArgumentStands ts a v ↔
          Realized ts (objectsInElement .input (hint ++ Text.pascal a.name) a.type) :=
      (Lowering.fieldType_settles hts .input _ _ a.optional a.type).map fun type h =>
        (and_iff_right rfl).trans h
    refine hfirst.bind fun value => ih.map fun values hrest hvalue => ?_
    rw [List.forall₂_cons, hvalue, hrest, ← realized_append]
    rfl

theorem fieldOf_settles (hts : (ts.map (·.name)).Nodup) {owner : Owner} {r : Resolver}
    (howner : owner? r = some owner) :
    Settles ts (objectsInResolver r) (fieldOf owner r) (ResolverSettled ts r) := by
  have hobjects : objectsInResolver r =
      objectsInArguments (argumentHint owner r) (r.args.getD []) ++
        objectsInElement .output (returnHint owner r) r.returnType := by
    rw [objectsInResolver, howner]
  rw [hobjects]
  refine (arguments_settles hts _ r _).bind fun args => ?_
  refine (Lowering.fieldType_settles hts .output _ _ false r.returnType).map
    fun type htype hargs => ?_
  rw [ResolverSettled, ResolverStands, htype, hargs, hobjects, realized_append]

theorem addAll_settles (hts : (ts.map (·.name)).Nodup) (resolvers : List Resolver)
    (fields : ResolverFields) :
    Settles ts (resolvers.flatMap objectsInResolver) (fields.addAll resolvers) fun result =>
      ∀ before, Matches (ResolverSettled ts) fields before →
        Matches (ResolverSettled ts) result (before ++ resolvers) := by
  induction resolvers generalizing fields with
  | nil => exact .pure fun before h => (List.append_nil before).symm ▸ h
  | cons r rest ih =>
    rw [addAll, List.flatMap_cons]
    split
    · rename_i hnone
      have hwritten : objectsInResolver r = [] := by rw [objectsInResolver, hnone]
      rw [hwritten, List.nil_append]
      refine (ih fields).mono fun result h before hbefore => ?_
      rw [List.append_cons]
      exact h _ (hbefore.skip hnone)
    · rename_i owner howner
      refine (fieldOf_settles hts howner).bind fun f => ?_
      refine (ih (fields.add owner f)).mono fun result h hf before hbefore => ?_
      rw [List.append_cons]
      exact h _ (hbefore.add howner hf)

end ResolverFields

end SchemaCompiler.GraphQL

import SchemaCompiler.Proofs.Shape.Origins

/-!
# Parentheses

Parentheses say how a type is read, and mean nothing else. The classifier looks through them
wherever it meets them, with one exception: where the parts of an intersection are merged, a part in
parentheses waits behind the others, and of two properties of one name the first stays. Types that
are the same without their parentheses are read alike when no such part comes to stand in another
place.

What is compared of two readings leaves the text of a base type out, which is kept as it was
written. With `places` it has everything else; without it also leaves out where a property stands
and what is said of it there.
-/

namespace SchemaCompiler

open TypeScript

/-! ## Types without parentheses -/

namespace TypeScript

variable {places : Bool}

def Span.seen (places : Bool) (s : Span) : Span := if places then s else ⟨0, 0⟩

mutual

/-- The type without its parentheses. -/
def TypeExpr.bare (places : Bool) : TypeExpr → TypeExpr
  | .keyword s word => .keyword (s.seen places) word
  | .literal s value => .literal (s.seen places) value
  | .reference s name arguments =>
    .reference (s.seen places) name (TypeExpr.bareAll places arguments)
  | .object s members => .object (s.seen places) (Member.bareAll places members)
  | .array s element => .array (s.seen places) (element.bare places)
  | .union s types => .union (s.seen places) (TypeExpr.bareAll places types)
  | .intersection s types => .intersection (s.seen places) (TypeExpr.bareAll places types)
  | .paren _ inner => inner.bare places
  | .readonly s inner => .readonly (s.seen places) (inner.bare places)
  | .other s => .other (s.seen places)

def TypeExpr.bareAll (places : Bool) : List TypeExpr → List TypeExpr
  | [] => []
  | t :: rest => t.bare places :: TypeExpr.bareAll places rest

def Member.bare (places : Bool) : Member → Member
  | .property s key optional declaredType =>
    .property (s.seen places) key optional (TypeExpr.bare? places declaredType)
  | .index s => .index (s.seen places)
  | .method s => .method (s.seen places)
  | .other => .other

def Member.bareAll (places : Bool) : List Member → List Member
  | [] => []
  | member :: rest => member.bare places :: Member.bareAll places rest

def TypeExpr.bare? (places : Bool) : Option TypeExpr → Option TypeExpr
  | none => none
  | some t => some (t.bare places)

end

mutual

/-- The parts of each intersection in the type are merged in the order that they have without
parentheses. -/
def TypeExpr.InOrder (places : Bool) : TypeExpr → Prop
  | .keyword _ _ => True
  | .literal _ _ => True
  | .reference _ _ arguments => TypeExpr.AllInOrder places arguments
  | .object _ members => Member.AllInOrder places members
  | .array _ element => element.InOrder places
  | .union _ types => TypeExpr.AllInOrder places types
  | .intersection _ types =>
    (TypeExpr.mergeQueue types).map (TypeExpr.bare places) =
      TypeExpr.mergeQueue (TypeExpr.bareAll places types) ∧ TypeExpr.AllInOrder places types
  | .paren _ inner => inner.InOrder places
  | .readonly _ inner => inner.InOrder places
  | .other _ => True

def TypeExpr.AllInOrder (places : Bool) : List TypeExpr → Prop
  | [] => True
  | t :: rest => t.InOrder places ∧ TypeExpr.AllInOrder places rest

def Member.InOrder (places : Bool) : Member → Prop
  | .property _ _ _ declaredType => TypeExpr.InOrder? places declaredType
  | .index _ => True
  | .method _ => True
  | .other => True

def Member.AllInOrder (places : Bool) : List Member → Prop
  | [] => True
  | member :: rest => member.InOrder places ∧ Member.AllInOrder places rest

def TypeExpr.InOrder? (places : Bool) : Option TypeExpr → Prop
  | none => True
  | some t => t.InOrder places

end

theorem Member.bareAll_eq_map (members : List Member) :
    Member.bareAll places members = members.map (Member.bare places) := by
  induction members with
  | nil => rfl
  | cons member rest ih => rw [bareAll, ih, List.map_cons]

namespace TypeExpr

theorem bareAll_eq_map (types : List TypeExpr) :
    bareAll places types = types.map (bare places) := by
  induction types with
  | nil => rfl
  | cons t rest ih => rw [bareAll, ih, List.map_cons]

theorem allInOrder_iff {types : List TypeExpr} :
    AllInOrder places types ↔ ∀ t ∈ types, t.InOrder places := by
  induction types with
  | nil => simp [AllInOrder]
  | cons t rest ih => simp [AllInOrder, ih]

theorem stripParens_ne_paren (t : TypeExpr) (s : Span) (inner : TypeExpr) :
    t.stripParens ≠ .paren s inner := by
  fun_induction stripParens t with
  | case1 _ _ ih => exact ih
  | case2 t hparen => exact hparen s inner

theorem bare_stripParens (t : TypeExpr) : t.stripParens.bare places = t.bare places := by
  fun_induction stripParens t with
  | case1 s inner ih => rw [ih, bare]
  | case2 t hparen => rfl

/-- Without parentheses there is nothing to strip. -/
theorem stripParens_bare (t : TypeExpr) :
    (t.bare places).stripParens = t.stripParens.bare places := by
  rw [← bare_stripParens]
  have hparen := stripParens_ne_paren t
  generalize t.stripParens = u at hparen
  cases u with
  | paren s inner => exact absurd rfl (hparen s inner)
  | _ => simp only [bare, stripParens]

theorem stringLiteral?_bare (t : TypeExpr) : (t.bare places).stringLiteral? = t.stringLiteral? := by
  rw [stringLiteral?, stripParens_bare, stringLiteral?]
  have hparen := stripParens_ne_paren t
  generalize t.stripParens = u at hparen
  cases u with
  | paren s inner => exact absurd rfl (hparen s inner)
  | literal s value => cases value <;> simp only [bare]
  | _ => simp only [bare]

theorem isBooleanLiteral_bare (t : TypeExpr) :
    (t.bare places).isBooleanLiteral = t.isBooleanLiteral := by
  rw [isBooleanLiteral, stripParens_bare, isBooleanLiteral]
  have hparen := stripParens_ne_paren t
  generalize t.stripParens = u at hparen
  cases u with
  | paren s inner => exact absurd rfl (hparen s inner)
  | literal s value => cases value <;> simp only [bare]
  | _ => simp only [bare]

theorem literalKeys?_bare (t : TypeExpr) : (t.bare places).literalKeys? = t.literalKeys? := by
  rw [literalKeys?, stripParens_bare, literalKeys?]
  have hparen := stripParens_ne_paren t
  generalize t.stripParens = u at hparen
  cases u with
  | paren s inner => exact absurd rfl (hparen s inner)
  | union s types =>
    simp only [bare, bareAll_eq_map, List.mapM_map]
    exact congrArg (types.mapM ·) (funext stringLiteral?_bare)
  | literal s value => cases value <;> simp only [bare, stringLiteral?, stripParens]
  | _ => simp only [bare, stringLiteral?, stripParens]

/-! ## Members and parts -/

mutual

theorem members_bare (t : TypeExpr) :
    members (t.bare places) = ((members t).1.map (bare places), (members t).2) := by
  cases t with
  | paren s inner =>
    rw [bare, members]
    exact members_bare inner
  | union s types =>
    rw [bare, members, members]
    exact splitNullable_bare types
  | keyword s word =>
    rw [bare, members, members]
    split <;> simp [bare]
  | _ => simp only [bare, members, List.map_cons, List.map_nil]

theorem splitNullable_bare (types : List TypeExpr) :
    splitNullable (bareAll places types) =
      ((splitNullable types).1.map (bare places), (splitNullable types).2) := by
  cases types with
  | nil => rfl
  | cons t rest =>
    rw [bareAll, splitNullable, splitNullable, members_bare t, splitNullable_bare rest]
    simp only [List.map_append]

end

/-- A type that stands in another one, or is this one: it is no larger, and in order as that is. -/
structure Inside (places : Bool) (inner outer : TypeExpr) : Prop where
  size : sizeOf inner ≤ sizeOf outer
  order : outer.InOrder places → inner.InOrder places

theorem Inside.refl (t : TypeExpr) : Inside places t t := ⟨Nat.le_refl _, id⟩

mutual

theorem inside_of_mem_members {t part : TypeExpr} (h : part ∈ (members t).1) :
    Inside places part t := by
  cases t with
  | paren s inner =>
    rw [members] at h
    have hinner := inside_of_mem_members h
    exact ⟨Nat.le_trans hinner.size (by simp), hinner.order⟩
  | union s types =>
    rw [members] at h
    obtain ⟨t, ht, hinside⟩ := inside_of_mem_splitNullable h
    have := List.sizeOf_lt_of_mem ht
    refine ⟨Nat.le_trans hinside.size ?_,
      fun horder => hinside.order (allInOrder_iff.mp horder t ht)⟩
    simp only [union.sizeOf_spec]
    omega
  | keyword s word =>
    rw [members] at h
    split at h
    · cases h
    · obtain rfl := List.mem_singleton.mp h
      exact .refl _
  | _ =>
    rw [members] at h
    obtain rfl := List.mem_singleton.mp h
    exact .refl _

theorem inside_of_mem_splitNullable {types : List TypeExpr} {part : TypeExpr}
    (h : part ∈ (splitNullable types).1) : ∃ t ∈ types, Inside places part t := by
  cases types with
  | nil => cases h
  | cons t rest =>
    rw [splitNullable] at h
    rcases List.mem_append.mp h with h | h
    · exact ⟨t, List.mem_cons_self, inside_of_mem_members h⟩
    · obtain ⟨u, hu, hinside⟩ := inside_of_mem_splitNullable h
      exact ⟨u, List.mem_cons_of_mem t hu, hinside⟩

end

theorem inside_of_mem_mergeQueue {queue : List TypeExpr} {part : TypeExpr}
    (h : part ∈ mergeQueue queue) : ∃ t ∈ queue, Inside places part t := by
  fun_induction mergeQueue queue with
  | case1 => cases h
  | case2 s inner queue ih =>
    obtain ⟨t, ht, hinside⟩ := ih h
    rcases List.mem_append.mp ht with ht | ht
    · exact ⟨t, List.mem_cons_of_mem _ ht, hinside⟩
    · obtain rfl := List.mem_singleton.mp ht
      exact ⟨_, List.mem_cons_self, Nat.le_trans hinside.size (by simp), hinside.order⟩
  | case3 s types queue ih =>
    obtain ⟨t, ht, hinside⟩ := ih h
    rcases List.mem_append.mp ht with ht | ht
    · exact ⟨t, List.mem_cons_of_mem _ ht, hinside⟩
    · have := List.sizeOf_lt_of_mem ht
      refine ⟨_, List.mem_cons_self, Nat.le_trans hinside.size ?_,
        fun horder => hinside.order (allInOrder_iff.mp horder.2 t ht)⟩
      simp only [intersection.sizeOf_spec]
      omega
  | case4 t queue _ _ ih =>
    rcases List.mem_cons.mp h with rfl | h
    · exact ⟨_, List.mem_cons_self, .refl _⟩
    · obtain ⟨u, hu, hinside⟩ := ih h
      exact ⟨u, List.mem_cons_of_mem t hu, hinside⟩

theorem inside_of_mem_mergeOrder {t part : TypeExpr} (h : part ∈ t.mergeOrder) :
    Inside places part t := by
  obtain ⟨u, hu, hinside⟩ := inside_of_mem_mergeQueue h
  obtain rfl := List.mem_singleton.mp hu
  exact hinside

/-- No part is put off any more. -/
theorem ne_paren_of_mem_mergeQueue {queue : List TypeExpr} {part : TypeExpr}
    (h : part ∈ mergeQueue queue) (s : Span) (inner : TypeExpr) : part ≠ .paren s inner := by
  fun_induction mergeQueue queue with
  | case1 => cases h
  | case2 s inner queue ih => exact ih h
  | case3 s types queue ih => exact ih h
  | case4 t queue hparen _ ih =>
    rcases List.mem_cons.mp h with rfl | h
    · exact hparen s inner
    · exact ih h

theorem mergeOrder_bare {t : TypeExpr} (h : t.InOrder places) :
    (t.bare places).mergeOrder = t.mergeOrder.map (bare places) := by
  fun_induction stripParens t with
  | case1 s inner ih => rw [bare, mergeOrder_paren, ih h]
  | case2 t hparen =>
    cases t with
    | paren s inner => exact absurd rfl (hparen s inner)
    | intersection s types => rw [bare, mergeOrder_intersection, mergeOrder_intersection, h.1]
    | _ =>
      simp only [bare]
      rw [mergeOrder_self (by simp) (by simp), mergeOrder_self (by simp) (by simp),
        List.map_singleton, bare]

end TypeExpr

end TypeScript

/-! ## Readings compared -/

variable {places : Bool}

def seenPart {α : Type} (places : Bool) (o : Option α) : Option α := if places then o else none

mutual

/-- A shape without the text of base types, and without `places` also without places and
comments. -/
def TypeShape.seen (places : Bool) : TypeShape → TypeShape
  | .primitive kind => .primitive kind
  | .reference name => .reference name
  | .scalar use => .scalar { use with base := none }
  | .array element => .array (TypeRef.seen places element)
  | .union members => .union (TypeRef.seenAll places members)
  | .literal value => .literal value
  | .inlineObject properties => .inlineObject (Field.seenAll places properties)

def TypeRef.seen (places : Bool) : Nullable TypeShape → Nullable TypeShape
  | ⟨shape, nullable⟩ => ⟨shape.seen places, nullable⟩

def TypeRef.seenAll (places : Bool) : List (Nullable TypeShape) → List (Nullable TypeShape)
  | [] => []
  | t :: rest => TypeRef.seen places t :: TypeRef.seenAll places rest

def Field.seen (places : Bool) : Property (Nullable TypeShape) → Property (Nullable TypeShape)
  | ⟨name, type, optional, description, deprecated, location⟩ =>
    ⟨name, TypeRef.seen places type, optional, seenPart places description,
      seenPart places deprecated, seenPart places location⟩

def Field.seenAll (places : Bool) :
    List (Property (Nullable TypeShape)) → List (Property (Nullable TypeShape))
  | [] => []
  | p :: rest => Field.seen places p :: Field.seenAll places rest

end

theorem TypeRef.seenAll_eq_map (types : List TypeRef) :
    TypeRef.seenAll places types = types.map (TypeRef.seen places) := by
  induction types with
  | nil => rfl
  | cons t rest ih => rw [seenAll, ih, List.map_cons]

theorem Field.seenAll_eq_map (fields : List Field) :
    Field.seenAll places fields = fields.map (Field.seen places) := by
  induction fields with
  | nil => rfl
  | cons f rest ih => rw [seenAll, ih, List.map_cons]

theorem TypeRef.seen_orNullable (t : TypeRef) (nullable : Bool) :
    TypeRef.seen places (t.orNullable nullable) =
      TypeRef.orNullable (TypeRef.seen places t) nullable := by
  cases t
  rfl

theorem Field.seen_eq (f : Field) :
    Field.seen places f =
      ⟨f.name, TypeRef.seen places f.type, f.optional, seenPart places f.description,
        seenPart places f.deprecated, seenPart places f.location⟩ := by
  cases f
  rfl

theorem Field.name_seen (f : Field) : (Field.seen places f).name = f.name := by
  rw [seen_eq]

namespace PropertySet

/-- The properties as they are compared. -/
def seen (places : Bool) (set : PropertySet) : PropertySet :=
  ⟨set.fields.map (Field.seen places), set.interfaces⟩

theorem seen_merge (a b : PropertySet) :
    (a.merge b).seen places = (a.seen places).merge (b.seen places) :=
  mapFields_merge Field.name_seen a b

end PropertySet

namespace Classifier

theorem seen_applyUtility (u : Utility) (keys : List String) (set : PropertySet) :
    (applyUtility u keys set).seen places = applyUtility u keys (set.seen places) :=
  PropertySet.mapFields_applyUtility Field.name_seen
    (fun optional p => by rw [setOptional, setOptional, Field.seen_eq, Field.seen_eq]) u keys set

theorem seen_describeField (m : SourceModule) (s : Span) (name : String) (optional : Bool)
    {t t' : TypeRef} (h : TypeRef.seen places t = TypeRef.seen places t') :
    Field.seen places (describeField m s name optional t) =
      Field.seen places (describeField m (s.seen places) name optional t') := by
  simp only [describeField, Field.seen, h]
  cases places with
  | true => rfl
  | false => rfl

/-! ## Names -/

variable {c : Classifier} {m : SourceModule} {depth : Nat}

/-- The arguments of a scalar are read alike, but for the text of the base type. -/
theorem read_bareAll (m : SourceModule) (arguments : List TypeExpr) :
    (ScalarArguments.read m (TypeExpr.bareAll places arguments)).map (fun a => (a.scalar, a.only)) =
      (ScalarArguments.read m arguments).map fun a => (a.scalar, a.only) := by
  have hside : ∀ t : TypeExpr,
      ScalarArguments.onlyOf? (t.bare places) = ScalarArguments.onlyOf? t :=
    fun t => congrArg (·.bind Side.ofText?) (TypeExpr.stringLiteral?_bare t)
  rcases arguments with _ | ⟨name, _ | ⟨base, _ | ⟨only, _ | ⟨more, rest⟩⟩⟩⟩
  · rfl
  · rfl
  · simp only [TypeExpr.bareAll, ScalarArguments.read, TypeExpr.stringLiteral?_bare]
    cases name.stringLiteral? <;> rfl
  · simp only [TypeExpr.bareAll, ScalarArguments.read, TypeExpr.stringLiteral?_bare, hside]
    cases name.stringLiteral? with
    | none => rfl
    | some scalar => cases ScalarArguments.onlyOf? only <;> rfl
  · rfl

/-- Two meanings of a name that is applied to arguments, with and without parentheses in these. -/
inductive Meaning.Alike (places : Bool) : List TypeExpr → Meaning → Meaning → Prop where
  | type {arguments : List TypeExpr} {t t' : TypeRef}
      (h : TypeRef.seen places t = TypeRef.seen places t') :
      Alike places arguments (.type t) (.type t')
  | refused {arguments : List TypeExpr} {message : String} :
      Alike places arguments (.refused message) (.refused message)
  | list {element : TypeExpr} :
      Alike places [element] (.list element) (.list (element.bare places))
  | utility {arguments : List TypeExpr} {u : Utility} :
      Alike places arguments (.utility u) (.utility u)
  | followed {arguments : List TypeExpr} {target : SourceModule} {body : TypeExpr} :
      Alike places arguments (.alias target body) (.alias target body)

theorem alike_runtimeMeaning? (m : SourceModule) (arguments : List TypeExpr) (name : String) :
    Option.Rel (Meaning.Alike places arguments) (runtimeMeaning? m arguments name)
      (runtimeMeaning? m (TypeExpr.bareAll places arguments) name) := by
  unfold runtimeMeaning?
  split
  · exact .some (.type rfl)
  · split
    · have hread := @read_bareAll places m arguments
      rcases h : ScalarArguments.read m arguments with message | a <;>
        rcases h' : ScalarArguments.read m (TypeExpr.bareAll places arguments) with
          message' | a' <;>
        rw [h, h'] at hread
      · cases hread
        exact .some .refused
      · cases hread
      · cases hread
      · obtain ⟨hscalar, honly⟩ := Prod.mk.inj (Except.ok.inj hread)
        refine .some (.type ?_)
        simp only [scalarType, TypeRef.plain, TypeRef.seen, TypeShape.seen, hscalar, honly]
    · split
      · exact .some .refused
      · exact .none

theorem alike_plainMeaning (arguments : List TypeExpr) (named : Named) :
    Meaning.Alike places arguments (c.plainMeaning arguments depth named)
      (c.plainMeaning (TypeExpr.bareAll places arguments) depth named) := by
  have byName : ∀ name, Meaning.Alike places arguments (plainMeaning.byName name)
      (plainMeaning.byName name) := by
    intro name
    unfold plainMeaning.byName
    split
    · exact .utility
    · exact .type rfl
  cases named with
  | unknown name =>
    rcases arguments with _ | ⟨element, _ | ⟨second, rest⟩⟩
    · exact byName name
    · simp only [plainMeaning, TypeExpr.bareAll]
      split
      · exact .list
      · exact byName name
    · exact byName name
  | declared d =>
    simp only [plainMeaning]
    split
    · exact .type rfl
    · exact .type rfl
    · split
      · exact .followed
      · exact .type rfl
  | runtime name => exact .refused
  | external specifier name => exact .type rfl

/-- A name means the same whether or not its arguments have parentheses. -/
theorem alike_meaning (name : EntityName) (arguments : List TypeExpr) :
    Meaning.Alike places arguments (c.meaning m name arguments depth)
      (c.meaning m name (TypeExpr.bareAll places arguments) depth) := by
  have hscalar : ∀ {named : Named} {found : Meaning},
      c.scalarMeaning? m name named = some found → Meaning.Alike places arguments found found := by
    intro named found hfound
    obtain ⟨use, rfl⟩ := scalarMeaning?_cases hfound
    exact .type rfl
  unfold meaning
  cases c.resolveEntity m name with
  | runtime exported =>
    have hruntime := @alike_runtimeMeaning? places m arguments exported
    simp only
    -- the two lookups fail together or succeed together
    generalize runtimeMeaning? m arguments exported = r at hruntime
    generalize runtimeMeaning? m (TypeExpr.bareAll places arguments) exported = r' at hruntime
    cases hruntime with
    | some h => exact h
    | none =>
      simp only
      split
      next hfound => exact hscalar hfound
      next => exact alike_plainMeaning _ _
  | _ =>
    simp only
    split
    next hfound => exact hscalar hfound
    next => exact alike_plainMeaning _ _

/-! ## Readings -/

/-- A type is read alike with and without its parentheses, as a type and as an object. -/
structure Faithful (c : Classifier) (m : SourceModule) (places : Bool) (t : TypeExpr) : Prop where
  type : ∀ depth, TypeRef.seen places (c.classifyAt m t depth).value =
    TypeRef.seen places (c.classifyAt m (t.bare places) depth).value
  properties : ∀ depth, (c.typeProperties m t depth).value.seen places =
    (c.typeProperties m (t.bare places) depth).value.seen places

/-- The types that stand in a member. -/
def typeOf? : Member → Option TypeExpr
  | .property _ _ _ declaredType => declaredType
  | _ => none

theorem seen_memberField? (member : Member)
    (h : ∀ t, typeOf? member = some t → Faithful c m places t) :
    (c.memberField? m depth member).value.map (Field.seen places) =
      (c.memberField? m depth (member.bare places)).value.map (Field.seen places) := by
  cases member with
  | property s key optional declaredType =>
    cases key with
    | fixed name =>
      cases declaredType with
      | some t =>
        exact congrArg some (seen_describeField m s name optional ((h t rfl).type (depth + 1)))
      | none => exact congrArg some (seen_describeField m s name optional rfl)
    | computed => rfl
  | _ => rfl

theorem seen_memberFields (members : List Member)
    (h : ∀ member ∈ members, ∀ t, typeOf? member = some t → Faithful c m places t) :
    (c.memberFields m members depth).value.map (Field.seen places) =
      (c.memberFields m (Member.bareAll places members) depth).value.map (Field.seen places) := by
  rw [Member.bareAll_eq_map, value_memberFields, value_memberFields, List.map_filterMap,
    List.map_filterMap, List.filterMap_map]
  exact List.filterMap_congr fun member hmember => seen_memberField? member (h member hmember)

theorem seen_finishUtility (u : Utility) (rest : List TypeExpr) {set set' : PropertySet}
    (h : set.seen places = set'.seen places) :
    (finishUtility m u rest.head? set).value.seen places =
      (finishUtility m u (TypeExpr.bareAll places rest).head? set').value.seen places := by
  cases rest with
  | nil =>
    simp only [TypeExpr.bareAll, List.head?_nil, finishUtility, Reported.value_pure,
      seen_applyUtility, h]
  | cons k more =>
    simp only [TypeExpr.bareAll, List.head?_cons, finishUtility, TypeExpr.literalKeys?_bare]
    cases k.literalKeys? with
    | some keys => simp only [Reported.value_pure, seen_applyUtility, h]
    | none => exact h

theorem seen_utilityProperties (s : Span) (arguments : List TypeExpr) (u : Utility)
    (h : ∀ t ∈ arguments, Faithful c m places t) :
    (c.utilityProperties m s arguments u depth).value.seen places =
      (c.utilityProperties m (s.seen places) (TypeExpr.bareAll places arguments) u depth).value.seen
        places := by
  cases arguments with
  | nil =>
    rw [TypeExpr.bareAll, utilityProperties, utilityProperties]
    rfl
  | cons t rest =>
    have hlength : (t.bare places :: TypeExpr.bareAll places rest).length = (t :: rest).length := by
      rw [TypeExpr.bareAll_eq_map, List.length_cons, List.length_cons, List.length_map]
    rw [TypeExpr.bareAll, utilityProperties, utilityProperties, hlength]
    split
    · rfl
    · exact seen_finishUtility u rest ((h t List.mem_cons_self).properties (depth + 1))

theorem seen_referenceProperties (s : Span) (name : EntityName) (arguments : List TypeExpr)
    (h : ∀ t ∈ arguments, Faithful c m places t) :
    (c.referenceProperties m s name arguments depth).value.seen places =
      (c.referenceProperties m (s.seen places) name (TypeExpr.bareAll places arguments)
        depth).value.seen places := by
  rw [referenceProperties.eq_def, referenceProperties.eq_def]
  cases c.source m name with
  | declaration d => simp only
  | interfaceBody =>
    cases arguments with
    | nil => simp only [TypeExpr.bareAll]
    | cons t rest =>
      simp only [TypeExpr.bareAll]
      exact (h t List.mem_cons_self).properties depth
  | utility u =>
    simp only
    exact seen_utilityProperties s arguments u h
  | refused => simp only [Reported.value_bind, Reported.value_pure]

/-- The types that stand right inside a type. -/
def Inner (places : Bool) (c : Classifier) (m : SourceModule) : TypeExpr → Prop
  | .object _ members => ∀ member ∈ members, ∀ t, typeOf? member = some t → Faithful c m places t
  | .reference _ _ arguments => ∀ t ∈ arguments, Faithful c m places t
  | _ => True

theorem seen_contribution {part : TypeExpr} (hparen : ∀ s inner, part ≠ .paren s inner)
    (h : Inner places c m part) :
    (c.contribution m part depth).value.seen places =
      (c.contribution m (part.bare places) depth).value.seen places := by
  cases part with
  | paren s inner => exact absurd rfl (hparen s inner)
  | object s members =>
    rw [TypeExpr.bare, contribution, contribution]
    exact congrArg (PropertySet.mk · []) (seen_memberFields members h)
  | reference s name arguments =>
    rw [TypeExpr.bare, contribution, contribution]
    exact seen_referenceProperties s name arguments h
  | _ =>
    simp only [TypeExpr.bare, contribution, Reported.value_bind, Reported.value_pure]

theorem seen_partProperties (parts : List TypeExpr) {set set' : PropertySet}
    (hset : set.seen places = set'.seen places)
    (h : ∀ part ∈ parts, (c.contribution m part depth).value.seen places =
      (c.contribution m (part.bare places) depth).value.seen places) :
    (c.partProperties m parts set depth).value.seen places =
      (c.partProperties m (parts.map (TypeExpr.bare places)) set' depth).value.seen places := by
  induction parts generalizing set set' with
  | nil =>
    rw [List.map_nil, partProperties, partProperties]
    exact hset
  | cons part rest ih =>
    rw [List.map_cons, partProperties_cons, partProperties_cons, Reported.value_bind,
      Reported.value_bind]
    refine ih ?_ fun part hpart => h part (List.mem_cons_of_mem _ hpart)
    rw [PropertySet.seen_merge, PropertySet.seen_merge, hset, h part List.mem_cons_self]

/-- Every smaller type in order is read alike with and without its parentheses. -/
def FaithfulBelow (c : Classifier) (m : SourceModule) (places : Bool) (t : TypeExpr) : Prop :=
  ∀ u : TypeExpr, sizeOf u < sizeOf t → u.InOrder places → Faithful c m places u

theorem inOrder_of_typeOf? {members : List Member} (h : Member.AllInOrder places members)
    {member : Member} (hmember : member ∈ members) {t : TypeExpr} (ht : typeOf? member = some t) :
    t.InOrder places := by
  induction members with
  | nil => cases hmember
  | cons first rest ih =>
    rcases List.mem_cons.mp hmember with rfl | hmember
    · cases member with
      | property s key optional declaredType =>
        obtain rfl : declaredType = some t := ht
        exact h.1
      | _ => cases ht
    · exact ih h.2 hmember

theorem sizeOf_typeOf?_lt {member : Member} {t : TypeExpr} (ht : typeOf? member = some t) :
    sizeOf t < sizeOf member := by
  cases member with
  | property s key optional declaredType =>
    obtain rfl : declaredType = some t := ht
    simp +arith
  | _ => cases ht

theorem inner_of_inside {part t : TypeExpr} (hbelow : FaithfulBelow c m places t)
    (horder : t.InOrder places) (h : TypeExpr.Inside places part t) : Inner places c m part := by
  have hpart := h.order horder
  cases part with
  | object s members =>
    intro member hmember u hu
    refine hbelow u (Nat.lt_of_lt_of_le ?_ h.size) (inOrder_of_typeOf? hpart hmember hu)
    have := sizeOf_typeOf?_lt hu
    have := List.sizeOf_lt_of_mem hmember
    simp only [TypeExpr.object.sizeOf_spec]
    omega
  | reference s name arguments =>
    intro u hu
    refine hbelow u (Nat.lt_of_lt_of_le ?_ h.size) (TypeExpr.allInOrder_iff.mp hpart u hu)
    have := List.sizeOf_lt_of_mem hu
    simp only [TypeExpr.reference.sizeOf_spec]
    omega
  | _ => trivial

theorem seen_typeProperties {t : TypeExpr} (hbelow : FaithfulBelow c m places t)
    (h : t.InOrder places) (depth : Nat) :
    (c.typeProperties m t depth).value.seen places =
      (c.typeProperties m (t.bare places) depth).value.seen places := by
  rw [typeProperties, typeProperties, TypeExpr.mergeOrder_bare h]
  refine seen_partProperties _ rfl fun part hpart => ?_
  exact seen_contribution (TypeExpr.ne_paren_of_mem_mergeQueue hpart)
    (inner_of_inside hbelow h (TypeExpr.inside_of_mem_mergeOrder hpart))

theorem seen_inlineObject {set set' : PropertySet} (h : set.seen places = set'.seen places) :
    TypeRef.seen places (TypeRef.plain (.inlineObject set.fields)) =
      TypeRef.seen places (TypeRef.plain (.inlineObject set'.fields)) := by
  have hfields := congrArg PropertySet.fields h
  simp only [PropertySet.seen] at hfields
  simp only [TypeRef.plain, TypeRef.seen, TypeShape.seen, Field.seenAll_eq_map, hfields]

theorem seen_array {t t' : TypeRef} (h : TypeRef.seen places t = TypeRef.seen places t') :
    TypeRef.seen places (TypeRef.plain (.array t)) =
      TypeRef.seen places (TypeRef.plain (.array t')) :=
  congrArg (fun t => TypeRef.plain (.array t)) h

theorem seen_union (s : Span) (types : List TypeExpr) (hdepth : depth ≤ maxDepth)
    (h : ∀ t ∈ (TypeExpr.splitNullable types).1, Faithful c m places t) :
    TypeRef.seen places (c.classifyAt m (.union s types) depth).value =
      TypeRef.seen places
        (c.classifyAt m (.union (s.seen places) (TypeExpr.bareAll places types)) depth).value := by
  have hsplit := @TypeExpr.splitNullable_bare places types
  rcases hmembers : TypeExpr.splitNullable types with ⟨members, nullable⟩
  rw [hmembers] at hsplit h
  have hcount : ∀ {n : Nat}, n ≤ members.length →
      n ≤ (TypeExpr.splitNullable types).1.length ∧
        n ≤ (TypeExpr.splitNullable (TypeExpr.bareAll places types)).1.length := by
    intro n hn
    rw [hmembers, hsplit, List.length_map]
    exact ⟨hn, hn⟩
  rcases members with _ | ⟨single, _ | ⟨second, more⟩⟩
  · rw [classifyAt_union_nil hdepth s (by rw [hmembers]),
      classifyAt_union_nil hdepth _ (by rw [hsplit, List.map_nil])]
    rfl
  · rw [classifyAt_union_single hdepth s hmembers, classifyAt_union_single hdepth _ hsplit]
    simp only [Reported.value_bind, Reported.value_pure, TypeRef.seen_orNullable]
    rw [(h single List.mem_cons_self).type]
  · obtain ⟨hseveral, hseveral'⟩ := hcount (n := 2) (by simp)
    have hliterals : ∀ ts : List TypeExpr,
        (ts.map (TypeExpr.bare places)).all (·.isBooleanLiteral) =
          ts.all (·.isBooleanLiteral) := by
      intro ts
      simp only [List.all_map, Function.comp_def, TypeExpr.isBooleanLiteral_bare]
    rw [classifyAt_union_several hdepth s hseveral, classifyAt_union_several hdepth _ hseveral',
      hmembers, hsplit, hliterals, List.length_map]
    split
    · rfl
    · simp only [Reported.value_bind, Reported.value_pure, TypeRef.seen_orNullable,
        Reported.value_each, List.map_map]
      refine congrArg (fun parts => TypeRef.orNullable (TypeRef.plain (.union parts)) nullable) ?_
      rw [TypeRef.seenAll_eq_map, TypeRef.seenAll_eq_map, List.map_map, List.map_map]
      exact List.map_congr_left fun t ht => (h t ht).type (depth + 1)

theorem seen_reference (s : Span) (name : EntityName) (arguments : List TypeExpr)
    (hdepth : depth ≤ maxDepth) (h : ∀ t ∈ arguments, Faithful c m places t) :
    TypeRef.seen places (c.classifyAt m (.reference s name arguments) depth).value =
      TypeRef.seen places (c.classifyAt m
        (.reference (s.seen places) name (TypeExpr.bareAll places arguments)) depth).value := by
  rw [classifyAt_reference hdepth, classifyAt_reference hdepth]
  have halike := @alike_meaning places c m depth name arguments
  generalize c.meaning m name arguments depth = found at halike
  generalize c.meaning m name (TypeExpr.bareAll places arguments) depth = found' at halike
  cases halike with
  | type heq => exact heq
  | refused => rfl
  | @list element => exact seen_array ((h element List.mem_cons_self).type (depth + 1))
  | @utility _ u => exact seen_inlineObject (seen_utilityProperties s arguments u h)
  | followed => rfl

theorem seen_classifyAt {t : TypeExpr} (hbelow : FaithfulBelow c m places t)
    (h : t.InOrder places) (depth : Nat) :
    TypeRef.seen places (c.classifyAt m t depth).value =
      TypeRef.seen places (c.classifyAt m (t.bare places) depth).value := by
  by_cases hdepth : depth ≤ maxDepth
  · cases t with
    | paren s inner =>
      rw [classifyAt_paren hdepth, TypeExpr.bare]
      exact (hbelow inner (by simp) h).type depth
    | readonly s inner =>
      rw [TypeExpr.bare, classifyAt_readonly hdepth, classifyAt_readonly hdepth]
      exact (hbelow inner (by simp) h).type depth
    | union s types =>
      rw [TypeExpr.bare]
      refine seen_union s types hdepth fun u hu => ?_
      obtain ⟨v, hv, hinside⟩ := @TypeExpr.inside_of_mem_splitNullable places types u hu
      have := List.sizeOf_lt_of_mem hv
      have := hinside.size
      refine hbelow u ?_ (hinside.order (TypeExpr.allInOrder_iff.mp h v hv))
      simp only [TypeExpr.union.sizeOf_spec]
      omega
    | reference s name arguments =>
      rw [TypeExpr.bare]
      exact seen_reference s name arguments hdepth (inner_of_inside hbelow h (.refl _))
    | intersection s types =>
      have hset := seen_typeProperties hbelow h (depth + 1)
      rw [TypeExpr.bare] at hset ⊢
      rw [classifyAt_intersection hdepth, classifyAt_intersection hdepth]
      exact seen_inlineObject hset
    | object s members =>
      have hset := seen_typeProperties hbelow h (depth + 1)
      rw [TypeExpr.bare] at hset ⊢
      rw [classifyAt_object hdepth, classifyAt_object hdepth]
      exact seen_inlineObject hset
    | array s element =>
      rw [TypeExpr.bare, classifyAt_array hdepth, classifyAt_array hdepth]
      exact seen_array ((hbelow element (by simp) h).type (depth + 1))
    | keyword s word =>
      rw [TypeExpr.bare, classifyAt_keyword hdepth, classifyAt_keyword hdepth]
      cases word <;> rfl
    | literal s value =>
      rw [TypeExpr.bare, classifyAt_literal hdepth, classifyAt_literal hdepth]
      cases value <;> rfl
    | other s =>
      rw [TypeExpr.bare, classifyAt_other hdepth, classifyAt_other hdepth]
      rfl
  · rw [classifyAt_too_deep (Nat.not_le.mp hdepth), classifyAt_too_deep (Nat.not_le.mp hdepth)]
    rfl

theorem faithful (c : Classifier) (m : SourceModule) {t : TypeExpr} (h : t.InOrder places) :
    Faithful c m places t := by
  -- on the size: what an intersection merges may stand anywhere inside it
  induction hsize : sizeOf t using Nat.strongRecOn generalizing t with
  | _ size ih =>
    subst hsize
    have hbelow : FaithfulBelow c m places t := fun u hlt hu => ih _ hlt hu rfl
    exact ⟨seen_classifyAt hbelow h, seen_typeProperties hbelow h⟩

/-- Types that are the same without their parentheses are read alike, when these change the order of
merging in neither of them. -/
theorem classify_eq_of_bare_eq (c : Classifier) (m : SourceModule) {t t' : TypeExpr}
    (hbare : t.bare places = t'.bare places) (h : t.InOrder places) (h' : t'.InOrder places) :
    TypeRef.seen places (c.classify m t).value = TypeRef.seen places (c.classify m t').value := by
  rw [classify, classify, (faithful c m h).type 0, (faithful c m h').type 0, hbare]

end Classifier

/-! ## A part in parentheses -/

namespace Sample

attribute [local irreducible] String.decEq

set_option maxRecDepth 10000

def recordModule : SourceModule :=
  sourceModule [interface "Record" [property "id" (keyword .string)]] []

def recordClassifier : Classifier := configured [] recordModule

def paren (t : TypeExpr) : TypeExpr := .paren span t

def both (t t' : TypeExpr) : TypeExpr := .intersection span [t, t']

def numbered : TypeExpr := object [property "id" (keyword .number)]

/-- A record that is numbered as well; the parentheses stand where they change nothing. -/
def maybeRecord : TypeExpr :=
  paren (union [paren (both (named "Record") (paren numbered)), paren (keyword .null)])

def maybeRecordBare : TypeExpr := union [both (named "Record") numbered, keyword .null]

/-- What is read of a record that is numbered: a property `id` of some type. -/
def identified (kind : Primitive) : TypeRef :=
  .plain (.inlineObject [⟨"id", TypeRef.primitive kind, false, none, none, none⟩])

theorem seen_both :
    TypeRef.seen false
        (recordClassifier.classify recordModule (both (named "Record") numbered)).value =
      identified .string := by
  cbv

theorem seen_both_paren :
    TypeRef.seen false
        (recordClassifier.classify recordModule (both (paren (named "Record")) numbered)).value =
      identified .number := by
  cbv

end Sample

open Sample

theorem classify_maybeRecord :
    maybeRecord.bare true = maybeRecordBare.bare true ∧ maybeRecord.InOrder true ∧
      maybeRecordBare.InOrder true ∧
      TypeRef.seen true (recordClassifier.classify recordModule maybeRecord).value =
        TypeRef.seen true (recordClassifier.classify recordModule maybeRecordBare).value := by
  have hbare : maybeRecord.bare true = maybeRecordBare.bare true := rfl
  have h : maybeRecord.InOrder true := by
    simp [maybeRecord, paren, union, both, named, numbered, object, property, keyword,
      TypeExpr.InOrder, TypeExpr.AllInOrder, Member.AllInOrder, Member.InOrder, TypeExpr.InOrder?,
      TypeExpr.mergeQueue, TypeExpr.bareAll, TypeExpr.bare]
  have h' : maybeRecordBare.InOrder true := by
    simp [maybeRecordBare, union, both, named, numbered, object, property, keyword,
      TypeExpr.InOrder, TypeExpr.AllInOrder, Member.AllInOrder, Member.InOrder, TypeExpr.InOrder?,
      TypeExpr.mergeQueue, TypeExpr.bareAll, TypeExpr.bare]
  exact ⟨hbare, h, h', Classifier.classify_eq_of_bare_eq recordClassifier recordModule hbare h h'⟩

/-- Parentheses around the first of two parts decide which of two properties stays. -/
theorem parentheses_change_type :
    (both (paren (named "Record")) numbered).bare true =
        (both (named "Record") numbered).bare true ∧
      TypeRef.seen false
          (recordClassifier.classify recordModule (both (paren (named "Record")) numbered)).value ≠
        TypeRef.seen false
          (recordClassifier.classify recordModule (both (named "Record") numbered)).value := by
  refine ⟨rfl, ?_⟩
  rw [seen_both, seen_both_paren]
  intro heq
  cases heq

end SchemaCompiler

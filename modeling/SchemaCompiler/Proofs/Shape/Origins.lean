import SchemaCompiler.Proofs.Shape.Agreement

/-!
# Where the properties of a type come from

Properties stand in interfaces and in literals. A declaration takes them from the interfaces that
it extends or from its body, and a type from its parts and from what it names. Each of these is one
step from a place to another one; it costs as much depth as the classifier spends on it. A utility
type is a step as well, which some properties pass and some do not.

The classifier finds at a place what stands there and what it finds one step further on. So what it
finds is what some way of steps leads to, as far as the depth allows.
-/

namespace SchemaCompiler

open TypeScript

/-! ## Entries of property sets -/

/-- What a property set lists. -/
inductive Entry where
  | field (name : String)
  | interface (name : String)

namespace PropertySet

def Has (set : PropertySet) : Entry → Prop
  | .field name => name ∈ set.fields.map (·.name)
  | .interface name => name ∈ set.interfaces

theorem mem_addFields (fields more : List Field) (name : String) :
    name ∈ (addFields fields more).map (·.name) ↔
      name ∈ fields.map (·.name) ∨ name ∈ more.map (·.name) := by
  induction more generalizing fields with
  | nil => simp [addFields]
  | cons f more ih =>
    rw [addFields, ih]
    split
    · rename_i hany
      obtain ⟨g, hg, hname⟩ := List.any_eq_true.mp hany
      have hmem : f.name ∈ fields.map (·.name) := by
        rw [← beq_iff_eq.mp hname]
        exact List.mem_map_of_mem hg
      grind
    · grind

theorem mem_addNames (names more : List String) (name : String) :
    name ∈ addNames names more ↔ name ∈ names ∨ name ∈ more := by
  induction more generalizing names with
  | nil => simp [addNames]
  | cons n more ih =>
    rw [addNames, ih]
    grind

theorem has_merge (a b : PropertySet) (x : Entry) : (a.merge b).Has x ↔ a.Has x ∨ b.Has x := by
  cases x with
  | field name => exact mem_addFields a.fields b.fields name
  | interface name => exact mem_addNames a.interfaces b.interfaces name

theorem not_has_empty (x : Entry) : ¬ ({} : PropertySet).Has x := by
  cases x <;> exact List.not_mem_nil

theorem has_foldl_merge {α : Type} (f : α → PropertySet) (as : List α) (set : PropertySet)
    (x : Entry) :
    (as.foldl (fun set a => set.merge (f a)) set).Has x ↔ set.Has x ∨ ∃ a ∈ as, (f a).Has x := by
  induction as generalizing set with
  | nil => simp
  | cons a as ih =>
    rw [List.foldl_cons, ih, has_merge]
    simp [or_assoc]

/-- The properties with something changed in each. -/
def mapFields (f : Field → Field) (set : PropertySet) : PropertySet :=
  ⟨set.fields.map f, set.interfaces⟩

theorem map_addFields {f : Field → Field} (hname : ∀ p, (f p).name = p.name)
    (fields more : List Field) :
    (addFields fields more).map f = addFields (fields.map f) (more.map f) := by
  induction more generalizing fields with
  | nil => rfl
  | cons p more ih =>
    have hany : (fields.map f).any (·.name == (f p).name) = fields.any (·.name == p.name) := by
      simp only [List.any_map, Function.comp_def, hname]
    rw [addFields, ih, List.map_cons, addFields, hany]
    split
    · rfl
    · rw [List.map_append, List.map_singleton]

theorem mapFields_merge {f : Field → Field} (hname : ∀ p, (f p).name = p.name)
    (a b : PropertySet) : (a.merge b).mapFields f = (a.mapFields f).merge (b.mapFields f) := by
  simp only [merge, mapFields, map_addFields hname]

/-- A utility type looks at names alone, and changes nothing but what may be left out. -/
theorem mapFields_applyUtility {f : Field → Field} (hname : ∀ p, (f p).name = p.name)
    (hoptional : ∀ optional p,
      f (Classifier.setOptional optional p) = Classifier.setOptional optional (f p))
    (u : Utility) (keys : List String) (set : PropertySet) :
    (Classifier.applyUtility u keys set).mapFields f =
      Classifier.applyUtility u keys (set.mapFields f) := by
  cases u with
  | unchanged => rfl
  | keep =>
    simp [Classifier.applyUtility, mapFields, List.filter_map, Function.comp_def, hname]
  | drop =>
    simp [Classifier.applyUtility, mapFields, List.filter_map, Function.comp_def, hname]
  | _ => simp [Classifier.applyUtility, mapFields, hoptional]

end PropertySet

/-- The utility type lets an entry pass; only properties are ever taken away. -/
def Utility.Passes (u : Utility) (keys : List String) : Entry → Prop
  | .field name => (u = .keep → name ∈ keys) ∧ (u = .drop → name ∉ keys)
  | .interface _ => True

namespace TypeScript

/-- The name of a property that has one. -/
def Member.fixedName? : Member → Option String
  | .property _ (.fixed name) _ _ => some name
  | .property _ .computed _ _ => none
  | .index _ => none
  | .method _ => none
  | .other => none

namespace TypeExpr

theorem mergeOrder_paren (s : Span) (inner : TypeExpr) :
    mergeOrder (.paren s inner) = mergeOrder inner := by
  rw [mergeOrder, mergeQueue, List.nil_append, mergeOrder]

theorem mergeOrder_intersection (s : Span) (types : List TypeExpr) :
    mergeOrder (.intersection s types) = mergeQueue types := by
  rw [mergeOrder, mergeQueue, List.nil_append]

/-- The parts of a queue are those of the types in it. -/
theorem mem_mergeQueue (queue : List TypeExpr) (part : TypeExpr) :
    part ∈ mergeQueue queue ↔ ∃ t ∈ queue, part ∈ t.mergeOrder := by
  induction hsize : totalSize queue using Nat.strongRecOn generalizing queue with
  | _ size ih =>
    subst hsize
    -- a type that is put off comes behind the queue, where its parts are the same
    have later : ∀ types rest : List TypeExpr, totalSize (rest ++ types) < totalSize queue →
        (part ∈ mergeQueue (rest ++ types) ↔
          part ∈ mergeQueue types ∨ ∃ t ∈ rest, part ∈ t.mergeOrder) := by
      intro types rest hlt
      have hle : totalSize types ≤ totalSize (rest ++ types) := by
        rw [totalSize_append]
        omega
      rw [ih _ hlt _ rfl, ih _ (Nat.lt_of_le_of_lt hle hlt) _ rfl]
      simp only [List.mem_append, or_and_right, exists_or, or_comm]
    fun_cases mergeQueue queue with
    | case1 => simp
    | case2 s inner rest =>
      rw [later]
      · simp only [List.mem_cons, exists_eq_or_imp, mergeOrder_paren]
        exact Iff.rfl
      · simp only [totalSize_append, totalSize, paren.sizeOf_spec]
        omega
    | case3 s types rest =>
      rw [later]
      · simp only [List.mem_cons, exists_eq_or_imp, mergeOrder_intersection]
      · have := totalSize_le_sizeOf types
        simp only [totalSize_append, totalSize, intersection.sizeOf_spec]
        omega
    | case4 t rest hparen hintersection =>
      have hself : t.mergeOrder = [t] := by
        rw [mergeOrder, mergeQueue, mergeQueue]
        · exact hparen
        · exact hintersection
      simp only [ih _ (totalSize_lt_cons t rest) _ rfl, List.mem_cons, exists_eq_or_imp, hself,
        List.not_mem_nil, or_false]

/-- Any type but these two is its only part. -/
theorem mergeOrder_self {t : TypeExpr} (hparen : ∀ s inner, t ≠ .paren s inner)
    (hintersection : ∀ s types, t ≠ .intersection s types) : t.mergeOrder = [t] := by
  rw [mergeOrder, mergeQueue, mergeQueue]
  · exact hparen
  · exact hintersection

end TypeExpr

end TypeScript

theorem Reported.ext_iff {α : Type} {r r' : Reported α} :
    r = r' ↔ r.value = r'.value ∧ r.diagnostics = r'.diagnostics := by
  cases r
  cases r'
  simp

theorem Reported.bind_assoc {α β γ : Type} (r : Reported α) (f : α → Reported β)
    (g : β → Reported γ) : r >>= f >>= g = r >>= fun a => f a >>= g :=
  congrArg (Reported.mk _) (List.append_assoc _ _ _)

namespace Classifier

variable {c : Classifier} {m : SourceModule} {depth : Nat} {x : Entry}

/-! ## Parts -/

/-- What one part of a type contributes. -/
def contribution (c : Classifier) (m : SourceModule) (t : TypeExpr) (depth : Nat) :
    Reported PropertySet :=
  match t with
  | .object _ members => do
    let fields ← c.memberFields m members (depth + 1)
    pure ⟨fields, []⟩
  | .reference s name arguments => c.referenceProperties m s name arguments (depth + 1)
  | t => do
    let _ ← unsupported m t "only object types can be merged into an object"
    pure {}

theorem partProperties_cons (t : TypeExpr) (rest : List TypeExpr) (set : PropertySet) :
    c.partProperties m (t :: rest) set depth =
      (do
        let found ← c.contribution m t depth
        c.partProperties m rest (set.merge found) depth) := by
  cases t with
  | object s members =>
    rw [partProperties, contribution, Reported.bind_assoc]
    rfl
  | reference s name arguments => rw [partProperties, contribution]
  | _ =>
    rw [partProperties, contribution, Reported.bind_assoc]
    · rfl
    all_goals simp

theorem has_partProperties (parts : List TypeExpr) (set : PropertySet) :
    (c.partProperties m parts set depth).value.Has x ↔
      set.Has x ∨ ∃ t ∈ parts, (c.contribution m t depth).value.Has x := by
  induction parts generalizing set with
  | nil => simp [partProperties]
  | cons t rest ih =>
    rw [partProperties_cons, Reported.value_bind, ih, PropertySet.has_merge]
    simp [or_assoc]

theorem diagnostics_partProperties (parts : List TypeExpr) (set : PropertySet) :
    (c.partProperties m parts set depth).diagnostics =
      parts.flatMap fun t => (c.contribution m t depth).diagnostics := by
  induction parts generalizing set with
  | nil => simp [partProperties]
  | cons t rest ih =>
    rw [partProperties_cons, Reported.diagnostics_bind, ih, List.flatMap_cons]

theorem has_typeProperties {t : TypeExpr} :
    (c.typeProperties m t depth).value.Has x ↔
      ∃ part ∈ t.mergeOrder, (c.contribution m part depth).value.Has x := by
  rw [typeProperties, has_partProperties, or_iff_right (PropertySet.not_has_empty x)]

theorem quiet_typeProperties {t : TypeExpr} :
    (c.typeProperties m t depth).diagnostics = [] ↔
      ∀ part ∈ t.mergeOrder, (c.contribution m part depth).diagnostics = [] := by
  rw [typeProperties, diagnostics_partProperties, List.flatMap_eq_nil_iff]

/-! ## Members -/

/-- What one member contributes: a property, or a report that it is none. -/
def memberField? (c : Classifier) (m : SourceModule) (depth : Nat) :
    Member → Reported (Option Field)
  | .property s (.fixed name) optional (some t) => do
    let type ← c.classifyAt m t (depth + 1)
    pure (some (describeField m s name optional type))
  | .property s (.fixed name) optional none => do
    let type ← refuse m s ("property `" ++ name ++ "` needs a type annotation")
    pure (some (describeField m s name optional type))
  | .property s .computed _ _ => do
    let _ ← refuse m s "computed property keys are not supported"
    pure none
  | .index s => do
    ignoredMember m s "index signatures are ignored"
    pure none
  | .method s => do
    ignoredMember m s "method signatures are ignored; use defineField for computed fields"
    pure none
  | .other => pure none

theorem memberFields_cons (member : Member) (rest : List Member) :
    c.memberFields m (member :: rest) depth =
      (do
        let found ← c.memberField? m depth member
        let fields ← c.memberFields m rest depth
        pure (found.toList ++ fields)) := by
  -- where there is no property the reports are the same, but stand in another nest of binds
  cases member with
  | property s key optional declaredType =>
    cases key with
    | fixed name =>
      cases declaredType <;> simp [memberFields, memberField?, Reported.ext_iff]
    | computed => simp [memberFields, memberField?, Reported.ext_iff]
  | _ => simp [memberFields, memberField?, Reported.ext_iff]

theorem value_memberFields (members : List Member) :
    (c.memberFields m members depth).value =
      members.filterMap fun member => (c.memberField? m depth member).value := by
  induction members with
  | nil => simp [memberFields]
  | cons member rest ih =>
    rw [memberFields_cons, List.filterMap_cons]
    simp only [Reported.value_bind, Reported.value_pure, ih]
    cases (c.memberField? m depth member).value <;> rfl

theorem quiet_memberFields {members : List Member} :
    (c.memberFields m members depth).diagnostics = [] ↔
      ∀ member ∈ members, (c.memberField? m depth member).diagnostics = [] := by
  induction members with
  | nil => simp [memberFields]
  | cons member rest ih =>
    rw [memberFields_cons]
    simp only [Reported.diagnostics_bind, Reported.diagnostics_pure, List.append_nil,
      List.append_eq_nil_iff, ih, List.forall_mem_cons]

theorem name_memberField? (member : Member) :
    (c.memberField? m depth member).value.map (·.name) = member.fixedName? := by
  cases member with
  | property s key optional declaredType =>
    cases key with
    | fixed name => cases declaredType <;> rfl
    | computed => rfl
  | _ => rfl

theorem names_memberFields (members : List Member) :
    (c.memberFields m members depth).value.map (·.name) = members.filterMap Member.fixedName? := by
  rw [value_memberFields, List.map_filterMap]
  exact congrArg (members.filterMap ·) (funext name_memberField?)

/-- A property whose type lies too deep is reported. -/
theorem le_maxDepth_of_quiet_memberFields {members : List Member} {name : String}
    (hquiet : (c.memberFields m members depth).diagnostics = [])
    (hname : name ∈ members.filterMap Member.fixedName?) : depth + 1 ≤ maxDepth := by
  obtain ⟨member, hmember, hfixed⟩ := List.mem_filterMap.mp hname
  have hread := quiet_memberFields.mp hquiet member hmember
  cases member with
  | property s key optional declaredType =>
    cases key with
    | fixed name =>
      cases declaredType with
      | some t => exact le_maxDepth_of_quiet (List.append_eq_nil_iff.mp hread).1
      | none => cases hread
    | computed => cases hfixed
  | _ => cases hfixed

end Classifier

/-! ## Places -/

/-- Where properties are looked for. -/
inductive Origin where
  | declaration (d : TypeDecl)
  | type (m : SourceModule) (t : TypeExpr)

namespace Origin

/-- The names of the properties that stand in an interface or in a literal. -/
def ownNames : Origin → List String
  | declaration d =>
    match d.node with
    | .interface i => i.members.filterMap Member.fixedName?
    | _ => []
  | type _ (.object _ members) => members.filterMap Member.fixedName?
  | type _ _ => []

end Origin

namespace Classifier

/-- The properties that are found at a place at some depth. -/
def originProperties (c : Classifier) (depth : Nat) : Origin → Reported PropertySet
  | .declaration d => c.declProperties d depth
  | .type m t => c.typeProperties m t depth

/-- The interface that a place stands for, when it is one. -/
def originInterface (c : Classifier) (depth : Nat) : Origin → PropertySet
  | .declaration d => c.ownInterface d depth
  | .type _ _ => {}

/-- The keys of a utility type. -/
def keysOf? : List TypeExpr → Option (List String)
  | [] => some []
  | t :: _ => t.literalKeys?

/-- A step from a place to one that it takes properties from, and how much deeper that one lies.
Utility types are stepped through as far as `passes` allows. -/
inductive Step (c : Classifier) (passes : Utility → List String → Prop) :
    Origin → Nat → Origin → Prop where
  | parent {d target : TypeDecl} {i : Interface} {parent : Heritage} (hnode : d.node = .interface i)
      (hparent : parent ∈ i.parents) (htarget : c.parentDecl? d.module parent = some target) :
      Step c passes (.declaration d) 1 (.declaration target)
  | body {d : TypeDecl} {a : Alias} (hnode : d.node = .alias a) :
      Step c passes (.declaration d) 1 (.type d.module a.body)
  | paren {m : SourceModule} {s : Span} {inner : TypeExpr} :
      Step c passes (.type m (.paren s inner)) 0 (.type m inner)
  | part {m : SourceModule} {s : Span} {types : List TypeExpr} {t : TypeExpr} (ht : t ∈ types) :
      Step c passes (.type m (.intersection s types)) 0 (.type m t)
  | named {m : SourceModule} {s : Span} {name : EntityName} {arguments : List TypeExpr}
      {d : TypeDecl} (hsource : c.source m name = .declaration d) :
      Step c passes (.type m (.reference s name arguments)) 1 (.declaration d)
  | interfaceBody {m : SourceModule} {s : Span} {name : EntityName} {t : TypeExpr}
      {rest : List TypeExpr} (hsource : c.source m name = .interfaceBody) :
      Step c passes (.type m (.reference s name (t :: rest))) 1 (.type m t)
  | utility {m : SourceModule} {s : Span} {name : EntityName} {t : TypeExpr}
      {rest : List TypeExpr} {u : Utility} {keys : List String}
      (hsource : c.source m name = .utility u) (harity : (t :: rest).length = u.arity)
      (hkeys : keysOf? rest = some keys) (hpasses : passes u keys) :
      Step c passes (.type m (.reference s name (t :: rest))) 2 (.type m t)

/-- A way of steps, and how much deeper its end lies than its start. -/
inductive Way (c : Classifier) (passes : Utility → List String → Prop) :
    Origin → Nat → Origin → Prop where
  | here {p : Origin} : Way c passes p 0 p
  | step {p q r : Origin} {k n : Nat} (hstep : Step c passes p k q) (hway : Way c passes q n r) :
      Way c passes p (k + n) r

variable {c : Classifier} {m : SourceModule} {depth : Nat} {x : Entry} {d : TypeDecl}

/-! ## Declarations -/

/-- What an entry of an `extends` list contributes. -/
def inheritance (c : Classifier) (d : TypeDecl) (depth : Nat) (parent : Heritage) :
    Reported PropertySet :=
  match c.parentDecl? d.module parent with
  | some target => do
    let found ← c.declProperties target (depth + 1)
    pure ((c.ownInterface target (depth + 1)).merge found)
  | none => do
    Reported.report (unresolvedParent d parent)
    pure {}

theorem declProperties_too_deep (h : maxDepth < depth) (d : TypeDecl) :
    c.declProperties d depth = pure {} := by
  rw [declProperties, dif_pos h]

theorem declProperties_interface {i : Interface} (hdepth : depth ≤ maxDepth)
    (hnode : d.node = .interface i) :
    c.declProperties d depth =
      (do
        let own ← c.memberFields d.module i.members (depth + 1)
        let inherited ← Reported.each (c.inheritance d depth) i.parents
        pure (inherited.foldl PropertySet.merge ⟨own, []⟩)) := by
  rw [declProperties, dif_neg (Nat.not_lt.mpr hdepth), hnode]
  rfl

theorem declProperties_alias {a : Alias} (hdepth : depth ≤ maxDepth) (hnode : d.node = .alias a) :
    c.declProperties d depth = c.typeProperties d.module a.body (depth + 1) := by
  rw [declProperties, dif_neg (Nat.not_lt.mpr hdepth), hnode]

theorem declProperties_enum {e : Enum} (hdepth : depth ≤ maxDepth) (hnode : d.node = .enum e) :
    c.declProperties d depth = pure {} := by
  rw [declProperties, dif_neg (Nat.not_lt.mpr hdepth), hnode]

theorem has_properties_of_fields (fields : List Field) :
    (⟨fields, []⟩ : PropertySet).Has x ↔ ∃ name ∈ fields.map (·.name), x = .field name := by
  cases x with
  | field name => simp [PropertySet.Has]
  | interface name => simp [PropertySet.Has]

theorem has_declProperties_interface {i : Interface} (hdepth : depth ≤ maxDepth)
    (hnode : d.node = .interface i) :
    (c.declProperties d depth).value.Has x ↔
      (∃ name ∈ i.members.filterMap Member.fixedName?, x = .field name) ∨
        ∃ parent ∈ i.parents, (c.inheritance d depth parent).value.Has x := by
  rw [declProperties_interface hdepth hnode]
  simp only [Reported.value_bind, Reported.value_pure, Reported.value_each]
  rw [PropertySet.has_foldl_merge (fun set => set), has_properties_of_fields, names_memberFields]
  simp only [List.mem_map, exists_exists_and_eq_and]

theorem quiet_declProperties_interface {i : Interface} (hdepth : depth ≤ maxDepth)
    (hnode : d.node = .interface i) :
    (c.declProperties d depth).diagnostics = [] ↔
      (c.memberFields d.module i.members (depth + 1)).diagnostics = [] ∧
        ∀ parent ∈ i.parents, (c.inheritance d depth parent).diagnostics = [] := by
  rw [declProperties_interface hdepth hnode]
  simp only [Reported.diagnostics_bind, Reported.diagnostics_pure, Reported.diagnostics_each,
    List.append_nil, List.append_eq_nil_iff, List.flatMap_eq_nil_iff]

/-! ## Types -/

theorem typeProperties_paren (s : Span) (inner : TypeExpr) :
    c.typeProperties m (.paren s inner) depth = c.typeProperties m inner depth := by
  rw [typeProperties, typeProperties, TypeExpr.mergeOrder_paren]

theorem has_typeProperties_intersection {s : Span} {types : List TypeExpr} :
    (c.typeProperties m (.intersection s types) depth).value.Has x ↔
      ∃ t ∈ types, (c.typeProperties m t depth).value.Has x := by
  simp only [has_typeProperties, TypeExpr.mergeOrder_intersection, TypeExpr.mem_mergeQueue]
  grind

theorem quiet_typeProperties_intersection {s : Span} {types : List TypeExpr} :
    (c.typeProperties m (.intersection s types) depth).diagnostics = [] ↔
      ∀ t ∈ types, (c.typeProperties m t depth).diagnostics = [] := by
  simp only [quiet_typeProperties, TypeExpr.mergeOrder_intersection, TypeExpr.mem_mergeQueue]
  grind

theorem has_typeProperties_object {s : Span} {members : List Member} :
    (c.typeProperties m (.object s members) depth).value.Has x ↔
      ∃ name ∈ members.filterMap Member.fixedName?, x = .field name := by
  have hnames : (c.memberFields m members (depth + 1)).value.map (·.name) =
      members.filterMap Member.fixedName? := names_memberFields members
  rw [has_typeProperties, TypeExpr.mergeOrder_self (by simp) (by simp), ← hnames,
    ← has_properties_of_fields]
  simp [contribution]

theorem has_typeProperties_reference {s : Span} {name : EntityName} {arguments : List TypeExpr} :
    (c.typeProperties m (.reference s name arguments) depth).value.Has x ↔
      (c.referenceProperties m s name arguments (depth + 1)).value.Has x := by
  rw [has_typeProperties, TypeExpr.mergeOrder_self (by simp) (by simp)]
  simp [contribution]

theorem quiet_typeProperties_reference {s : Span} {name : EntityName} {arguments : List TypeExpr} :
    (c.typeProperties m (.reference s name arguments) depth).diagnostics = [] ↔
      (c.referenceProperties m s name arguments (depth + 1)).diagnostics = [] := by
  rw [quiet_typeProperties, TypeExpr.mergeOrder_self (by simp) (by simp)]
  simp [contribution]

/-! ## Utility types -/

theorem has_applyUtility (u : Utility) (keys : List String) (set : PropertySet) :
    (applyUtility u keys set).Has x ↔ u.Passes keys x ∧ set.Has x := by
  cases x with
  | interface name => cases u <;> simp [applyUtility, Utility.Passes, PropertySet.Has]
  | field name =>
    have hset : ∀ optional, (set.fields.map (setOptional optional)).map (·.name) =
        set.fields.map (·.name) := fun optional => List.map_map
    cases u with
    | allOptional => simp [applyUtility, Utility.Passes, PropertySet.Has, hset]
    | allRequired => simp [applyUtility, Utility.Passes, PropertySet.Has, hset]
    | unchanged => simp [applyUtility, Utility.Passes, PropertySet.Has]
    | keep => simp [applyUtility, Utility.Passes, PropertySet.Has]; grind
    | drop => simp [applyUtility, Utility.Passes, PropertySet.Has]; grind

/-- The run of a utility type whose arguments are as it expects them. -/
theorem utilityProperties_of_keys {t : TypeExpr} {rest : List TypeExpr} {u : Utility}
    {keys : List String} (harity : (t :: rest).length = u.arity)
    (hkeys : keysOf? rest = some keys) (s : Span) :
    c.utilityProperties m s (t :: rest) u depth =
      (do
        let set ← c.typeProperties m t (depth + 1)
        pure (applyUtility u keys set)) := by
  rw [utilityProperties, if_neg (not_not_intro harity)]
  cases rest with
  | nil =>
    cases hkeys
    rfl
  | cons k more =>
    rw [keysOf?] at hkeys
    simp only [List.head?_cons, finishUtility, hkeys]

/-- A utility type that is read without a report has arguments as it expects them. -/
theorem keys_of_quiet_utilityProperties {s : Span} {arguments : List TypeExpr} {u : Utility}
    (hquiet : (c.utilityProperties m s arguments u depth).diagnostics = []) :
    ∃ t rest keys, arguments = t :: rest ∧ (t :: rest).length = u.arity ∧
      keysOf? rest = some keys := by
  cases arguments with
  | nil =>
    rw [utilityProperties] at hquiet
    cases hquiet
  | cons t rest =>
    rw [utilityProperties] at hquiet
    split at hquiet
    · cases hquiet
    · rename_i harity
      refine ⟨t, rest, ?_⟩
      cases rest with
      | nil => exact ⟨[], rfl, not_not.mp harity, rfl⟩
      | cons k more =>
        cases hkeys : k.literalKeys? with
        | some keys => exact ⟨keys, rfl, not_not.mp harity, hkeys⟩
        | none =>
          have hfinish := (List.append_eq_nil_iff.mp hquiet).2
          simp [List.head?_cons, finishUtility, hkeys, unsupported, refuse] at hfinish

/-! ## One step -/

/-- The depth is not too great to look into the place. -/
def Visited (depth : Nat) : Origin → Prop
  | .declaration _ => depth ≤ maxDepth
  | .type _ _ => True

/-- The place has an entry for one that takes properties from it: a property, or its own name. -/
def Contributes (c : Classifier) (depth : Nat) (p : Origin) (x : Entry) : Prop :=
  (c.originInterface depth p).Has x ∨ (c.originProperties depth p).value.Has x

variable {p q : Origin} {k : Nat} {passes : Utility → List String → Prop}

theorem contributes_type {t : TypeExpr} :
    c.Contributes depth (.type m t) x ↔ (c.typeProperties m t depth).value.Has x :=
  or_iff_right (PropertySet.not_has_empty x)

theorem has_of_ownNames {name : String} (hvisited : Visited depth p) (hname : name ∈ p.ownNames) :
    (c.originProperties depth p).value.Has (.field name) := by
  cases p with
  | declaration d =>
    rcases hnode : d.node with i | a | enum
    · rw [Origin.ownNames, hnode] at hname
      exact (has_declProperties_interface hvisited hnode).mpr (Or.inl ⟨name, hname, rfl⟩)
    · simp [Origin.ownNames, hnode] at hname
    · simp [Origin.ownNames, hnode] at hname
  | type m t =>
    cases t with
    | object s members => exact has_typeProperties_object.mpr ⟨name, hname, rfl⟩
    | _ => cases hname

/-- What the end of a step has and the step lets pass is found at its start. -/
theorem has_of_step (hstep : c.Step (·.Passes · x) p k q) (hvisited : Visited depth p)
    (h : c.Contributes (depth + k) q x) : (c.originProperties depth p).value.Has x := by
  cases hstep with
  | @parent d target i parent hnode hparent htarget =>
    refine (has_declProperties_interface hvisited hnode).mpr (Or.inr ⟨parent, hparent, ?_⟩)
    simp only [inheritance, htarget, Reported.value_bind, Reported.value_pure,
      PropertySet.has_merge]
    exact h
  | body hnode =>
    rw [originProperties, declProperties_alias hvisited hnode]
    exact contributes_type.mp h
  | paren =>
    rw [originProperties, typeProperties_paren]
    exact contributes_type.mp h
  | part ht => exact has_typeProperties_intersection.mpr ⟨_, ht, contributes_type.mp h⟩
  | named hsource =>
    rw [originProperties, has_typeProperties_reference, referenceProperties.eq_def]
    simp only [hsource, Reported.value_bind, Reported.value_pure, PropertySet.has_merge]
    exact h
  | interfaceBody hsource =>
    rw [originProperties, has_typeProperties_reference, referenceProperties.eq_def]
    simp only [hsource]
    exact contributes_type.mp h
  | utility hsource harity hkeys hpasses =>
    rw [originProperties, has_typeProperties_reference, referenceProperties]
    simp only [hsource, utilityProperties_of_keys harity hkeys, Reported.value_bind,
      Reported.value_pure, has_applyUtility]
    exact ⟨hpasses, contributes_type.mp h⟩

theorem visited_of_has (h : (c.originProperties depth p).value.Has x) : Visited depth p := by
  cases p with
  | declaration d =>
    apply Nat.not_lt.mp
    intro hdeep
    rw [originProperties, declProperties_too_deep hdeep] at h
    exact PropertySet.not_has_empty x h
  | type m t => trivial

/-- What a declaration has stands in it, or is inherited, or comes from its body. -/
theorem step_of_has_declaration (hquiet : (c.declProperties d depth).diagnostics = [])
    (h : (c.declProperties d depth).value.Has x) :
    (∃ name ∈ (Origin.declaration d).ownNames, x = .field name) ∨
      ∃ k q, c.Step (·.Passes · x) (.declaration d) k q ∧ c.Contributes (depth + k) q x := by
  have hvisited : depth ≤ maxDepth := visited_of_has (p := .declaration d) h
  rcases hnode : d.node with i | a | enum
  · rcases (has_declProperties_interface hvisited hnode).mp h with hown | ⟨parent, hparent, hfound⟩
    · rw [Origin.ownNames, hnode]
      exact Or.inl hown
    · have hread := ((quiet_declProperties_interface hvisited hnode).mp hquiet).2 parent hparent
      cases htarget : c.parentDecl? d.module parent with
      | some target =>
        refine Or.inr ⟨1, .declaration target, .parent hnode hparent htarget, ?_⟩
        simp only [inheritance, htarget, Reported.value_bind, Reported.value_pure,
          PropertySet.has_merge] at hfound
        exact hfound
      | none =>
        simp only [inheritance, htarget] at hread
        cases hread
  · rw [declProperties_alias hvisited hnode] at h
    exact Or.inr ⟨1, _, .body hnode, contributes_type.mpr h⟩
  · rw [declProperties_enum hvisited hnode] at h
    exact absurd h (PropertySet.not_has_empty x)

/-- What a reference has comes from what it names. -/
theorem step_of_has_reference {s : Span} {name : EntityName} {arguments : List TypeExpr}
    (hquiet : (c.referenceProperties m s name arguments (depth + 1)).diagnostics = [])
    (h : (c.referenceProperties m s name arguments (depth + 1)).value.Has x) :
    ∃ k q, c.Step (·.Passes · x) (.type m (.reference s name arguments)) k q ∧
      c.Contributes (depth + k) q x := by
  rw [referenceProperties.eq_def] at hquiet h
  cases hsource : c.source m name with
  | declaration d =>
    simp only [hsource, Reported.value_bind, Reported.value_pure, PropertySet.has_merge] at h
    exact ⟨1, .declaration d, .named hsource, h⟩
  | interfaceBody =>
    simp only [hsource] at h
    cases arguments with
    | nil => exact absurd h (PropertySet.not_has_empty x)
    | cons t rest => exact ⟨1, .type m t, .interfaceBody hsource, contributes_type.mpr h⟩
  | utility u =>
    simp only [hsource] at hquiet h
    obtain ⟨t, rest, keys, rfl, harity, hkeys⟩ := keys_of_quiet_utilityProperties hquiet
    rw [utilityProperties_of_keys harity hkeys, Reported.value_bind, Reported.value_pure,
      has_applyUtility] at h
    exact ⟨2, .type m t, .utility hsource harity hkeys h.1, contributes_type.mpr h.2⟩
  | refused =>
    simp only [hsource] at hquiet
    cases hquiet

/-- Without a report, what is found at a place stands there or comes from one step further on. -/
theorem step_of_has (hquiet : (c.originProperties depth p).diagnostics = [])
    (h : (c.originProperties depth p).value.Has x) :
    (∃ name ∈ p.ownNames, x = .field name) ∨
      ∃ k q, c.Step (·.Passes · x) p k q ∧ c.Contributes (depth + k) q x := by
  cases p with
  | declaration d => exact step_of_has_declaration hquiet h
  | type m t =>
    rw [originProperties] at hquiet h
    cases t with
    | object s members => exact Or.inl (has_typeProperties_object.mp h)
    | paren s inner =>
      rw [typeProperties_paren] at h
      exact Or.inr ⟨0, _, .paren, contributes_type.mpr h⟩
    | intersection s types =>
      obtain ⟨t, ht, hfound⟩ := has_typeProperties_intersection.mp h
      exact Or.inr ⟨0, _, .part ht, contributes_type.mpr hfound⟩
    | reference s name arguments =>
      exact Or.inr (step_of_has_reference (quiet_typeProperties_reference.mp hquiet)
        (has_typeProperties_reference.mp h))
    | _ =>
      rw [quiet_typeProperties, TypeExpr.mergeOrder_self (by simp) (by simp)] at hquiet
      cases hquiet _ (List.mem_singleton_self _)

/-- A step from a place that is read without a report leads to one that is. -/
theorem quiet_of_step (hstep : c.Step passes p k q) (hvisited : Visited depth p)
    (hquiet : (c.originProperties depth p).diagnostics = []) :
    (c.originProperties (depth + k) q).diagnostics = [] := by
  cases hstep with
  | @parent d target i parent hnode hparent htarget =>
    have h := ((quiet_declProperties_interface hvisited hnode).mp hquiet).2 parent hparent
    simp only [inheritance, htarget, Reported.diagnostics_bind, Reported.diagnostics_pure,
      List.append_nil] at h
    exact h
  | body hnode =>
    rw [originProperties, declProperties_alias hvisited hnode] at hquiet
    exact hquiet
  | paren =>
    rw [originProperties, typeProperties_paren] at hquiet
    exact hquiet
  | part ht => exact quiet_typeProperties_intersection.mp hquiet _ ht
  | named hsource =>
    rw [originProperties, quiet_typeProperties_reference, referenceProperties.eq_def] at hquiet
    simp only [hsource, Reported.diagnostics_bind, Reported.diagnostics_pure,
      List.append_nil] at hquiet
    exact hquiet
  | interfaceBody hsource =>
    rw [originProperties, quiet_typeProperties_reference, referenceProperties.eq_def] at hquiet
    simp only [hsource] at hquiet
    exact hquiet
  | utility hsource harity hkeys hpasses =>
    rw [originProperties, quiet_typeProperties_reference, referenceProperties] at hquiet
    simp only [hsource, utilityProperties_of_keys harity hkeys, Reported.diagnostics_bind,
      Reported.diagnostics_pure, List.append_nil] at hquiet
    exact hquiet

end Classifier

end SchemaCompiler

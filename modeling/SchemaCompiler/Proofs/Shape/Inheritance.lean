import SchemaCompiler.Proofs.Sample
import SchemaCompiler.Proofs.Shape.Origins

/-!
# Which properties and interfaces a declaration has

A declaration that is read without a report has a property exactly when some way leads to a place
where it stands, no utility type on the way takes it away, and the depth is enough to read its type
there. It has an interface exactly when a way within the depth leads to it.

The two lists part where a way to an interface goes on to properties that do not come along: because
a utility type drops them and keeps the interface, or because they lie behind the end of the depth,
where nothing is read and nothing is reported.
-/

namespace SchemaCompiler

open TypeScript

namespace Classifier

variable {c : Classifier} {d : TypeDecl} {p q : Origin} {x : Entry} {depth k n : Nat}
  {passes : Utility → List String → Prop}

/-! ## Interfaces of the schema -/

/-- A name gives this kind when it is `DefineInterface`, whatever is known of declarations. -/
theorem referenceKind_eq_graphqlInterface {kind kind' : TypeDecl → AliasKind} {named : Named}
    (h : c.referenceKind kind named = .graphqlInterface) :
    c.referenceKind kind' named = .graphqlInterface := by
  cases named with
  | declared target =>
    simp only [referenceKind] at h
    split at h
    · cases h
    · split at h
      · cases h
      · cases h
      · split at h <;> cases h
  | _ => exact h

theorem aliasKind_eq_graphqlInterface {e e' : Nat} (he' : e' ≤ maxDepth)
    (h : c.aliasKind d e = .graphqlInterface) : c.aliasKind d e' = .graphqlInterface := by
  obtain ⟨he, hscalar, a, hnode⟩ := alias_of_hasFields (by rw [h]; rfl)
  rw [aliasKind_alias hnode hscalar he] at h
  rw [aliasKind_alias hnode hscalar he']
  cases hbody : a.body.stripParens with
  | reference s name arguments =>
    rw [hbody] at h
    exact referenceKind_eq_graphqlInterface h
  | union s types =>
    rw [hbody] at h
    have := hasFields_unionKind (c.isObjectLikeBy (fun t => c.aliasKind t (e + 2)) d.module) types
    simp only at h
    rw [h] at this
    cases this
  | _ =>
    rw [hbody] at h
    cases h

/-- An interface of the schema is known as one wherever a declaration is read at all. -/
theorem aliasKind_eq_graphqlInterface_iff :
    c.aliasKind d depth = .graphqlInterface ↔
      depth ≤ maxDepth ∧ c.aliasKind d 0 = .graphqlInterface := by
  constructor
  · intro h
    exact ⟨(alias_of_hasFields (by rw [h]; rfl)).1,
      aliasKind_eq_graphqlInterface (Nat.zero_le _) h⟩
  · rintro ⟨hdepth, h⟩
    exact aliasKind_eq_graphqlInterface hdepth h

theorem has_ownInterface_iff :
    (c.ownInterface d depth).Has x ↔
      depth ≤ maxDepth ∧ c.aliasKind d 0 = .graphqlInterface ∧ x = .interface d.name := by
  rw [← and_assoc, ← aliasKind_eq_graphqlInterface_iff, ownInterface]
  split
  · rename_i hkind
    cases x <;> simp [PropertySet.Has, hkind]
  · rename_i hkind
    exact iff_of_false (PropertySet.not_has_empty x) fun h => hkind h.1

/-! ## Ways -/

theorem visited_of_le (h : depth ≤ maxDepth) (p : Origin) : Visited depth p := by
  cases p with
  | declaration d => exact h
  | type m t => trivial

/-- A property at a place that is read without a report has room for its type. -/
theorem le_maxDepth_of_ownNames {name : String} (hvisited : Visited depth p)
    (hquiet : (c.originProperties depth p).diagnostics = []) (hname : name ∈ p.ownNames) :
    depth + 2 ≤ maxDepth := by
  cases p with
  | declaration d =>
    rcases hnode : d.node with i | a | enum
    · rw [Origin.ownNames, hnode] at hname
      exact le_maxDepth_of_quiet_memberFields
        ((quiet_declProperties_interface hvisited hnode).mp hquiet).1 hname
    · simp [Origin.ownNames, hnode] at hname
    · simp [Origin.ownNames, hnode] at hname
  | type m t =>
    cases t with
    | object s members =>
      rw [originProperties, quiet_typeProperties] at hquiet
      have hmembers := hquiet (.object s members) <| by
        rw [TypeExpr.mergeOrder_self (by simp) (by simp)]
        exact List.mem_singleton_self _
      simp only [contribution, Reported.diagnostics_bind, Reported.diagnostics_pure,
        List.append_nil] at hmembers
      exact le_maxDepth_of_quiet_memberFields hmembers hname
    | _ => cases hname

/-- What the end of a way has comes to its start. -/
theorem Way.contributes (hway : c.Way (·.Passes · x) p n q) (hdeep : depth + n ≤ maxDepth)
    (h : c.Contributes (depth + n) q x) : c.Contributes depth p x := by
  induction hway generalizing depth with
  | here => exact h
  | @step p q r k n hstep hway ih =>
    rw [← Nat.add_assoc] at hdeep h
    exact Or.inr (has_of_step hstep (visited_of_le (by omega) p) (ih hdeep h))

/-- What holds at a place and is kept by steps holds wherever ways lead. -/
theorem Way.invariant {S : Nat → Origin → Prop}
    (hS : ∀ n p k q, S n p → c.Step passes p k q → S (n + k) q) (hway : c.Way passes p n q)
    (hp : S depth p) : S (depth + n) q := by
  induction hway generalizing depth with
  | here => exact hp
  | step hstep _ ih =>
    rw [← Nat.add_assoc]
    exact ih (hS _ _ _ _ hp hstep)

/-- The entry belongs to a place that lies `n` deeper than where one looks. A declaration does not
implement itself. -/
def Owns (c : Classifier) (n : Nat) (q : Origin) : Entry → Prop
  | .field name => name ∈ q.ownNames
  | .interface name =>
    0 < n ∧ ∃ d, q = .declaration d ∧ c.aliasKind d 0 = .graphqlInterface ∧ d.name = name

/-- How much depth it takes to read what belongs to an entry. -/
def roomFor : Entry → Nat
  | .field _ => 2
  | .interface _ => 0

theorem Way.has (hway : c.Way (·.Passes · x) p n q) (hdeep : depth + n ≤ maxDepth)
    (h : c.Owns n q x) : (c.originProperties depth p).value.Has x := by
  cases x with
  | field name =>
    have hvisited : Visited (depth + n) q := visited_of_le hdeep q
    rcases hway.contributes hdeep (Or.inr (has_of_ownNames hvisited h)) with hself | hfound
    · cases p with
      | declaration d => cases (has_ownInterface_iff.mp hself).2.2
      | type m t => exact absurd hself (PropertySet.not_has_empty _)
    · exact hfound
  | interface name =>
    obtain ⟨hpos, d, rfl, hkind, rfl⟩ := h
    cases hway with
    | here => cases hpos
    | @step _ q _ k n hstep hway =>
      rw [← Nat.add_assoc] at hdeep
      refine has_of_step hstep (visited_of_le (by omega) p) (hway.contributes hdeep (Or.inl ?_))
      exact has_ownInterface_iff.mpr ⟨hdeep, hkind, rfl⟩

end Classifier

/-- Places are looked into until the depth is used up or the type is. -/
noncomputable def Origin.size : Origin → Nat
  | declaration _ => 0
  | type _ t => sizeOf t

namespace Classifier

variable {c : Classifier} {d : TypeDecl} {p q : Origin} {x : Entry} {depth k n : Nat}
  {passes : Utility → List String → Prop}

theorem Step.decreases (h : c.Step passes p k q) (hvisited : Visited depth p) :
    Prod.Lex (· < ·) (· < ·) (maxDepth + 1 - (depth + k), q.size)
      (maxDepth + 1 - depth, p.size) := by
  -- most steps lead into a smaller type, and leave as much depth or less
  have deeper : ∀ {k n n' : Nat}, n < n' →
      Prod.Lex (· < ·) (· < ·) (maxDepth + 1 - (depth + k), n) (maxDepth + 1 - depth, n') := by
    intro k n n' hlt
    rcases Nat.eq_or_lt_of_le (Nat.sub_le_sub_left (Nat.le_add_right depth k) (maxDepth + 1)) with
      heq | hless
    · exact heq ▸ .right _ hlt
    · exact .left _ _ hless
  have further : depth ≤ maxDepth → maxDepth + 1 - (depth + 1) < maxDepth + 1 - depth := by omega
  cases h with
  | parent => exact .left _ _ (further hvisited)
  | body => exact .left _ _ (further hvisited)
  | paren => exact deeper (by simp [Origin.size])
  | part ht =>
    refine deeper ?_
    have := List.sizeOf_lt_of_mem ht
    simp only [Origin.size, TypeExpr.intersection.sizeOf_spec]
    omega
  | named => exact deeper (TypeExpr.sizeOf_pos _)
  | interfaceBody => exact deeper (by simp [Origin.size]; omega)
  | utility => exact deeper (by simp [Origin.size]; omega)

theorem Step.pos (h : c.Step passes p k (.declaration d)) : 0 < k := by
  cases h <;> decide

/-- What is found without a report is owned by a place that some way leads to. -/
theorem way_of_has {p : Origin} {depth : Nat}
    (hquiet : (c.originProperties depth p).diagnostics = [])
    (h : (c.originProperties depth p).value.Has x) :
    ∃ n q, c.Way (·.Passes · x) p n q ∧ c.Owns n q x ∧ depth + n + roomFor x ≤ maxDepth := by
  have hvisited := visited_of_has h
  rcases step_of_has hquiet h with ⟨name, hname, rfl⟩ | ⟨k, q, hstep, hself | hfound⟩
  · exact ⟨0, p, .here, hname, le_maxDepth_of_ownNames hvisited hquiet hname⟩
  · cases q with
    | declaration d =>
      obtain ⟨hdeep, hkind, rfl⟩ := has_ownInterface_iff.mp hself
      exact ⟨k + 0, .declaration d, .step hstep .here, ⟨hstep.pos, d, rfl, hkind, rfl⟩, hdeep⟩
    | type m t => exact absurd hself (PropertySet.not_has_empty _)
  · obtain ⟨n, r, hway, howns, hdeep⟩ := way_of_has (quiet_of_step hstep hvisited hquiet) hfound
    refine ⟨k + n, r, .step hstep hway, ?_, by omega⟩
    cases x with
    | field name => exact howns
    | interface name => exact ⟨Nat.add_pos_right k howns.1, howns.2⟩
termination_by (maxDepth + 1 - depth, p.size)
decreasing_by exact hstep.decreases hvisited

/-- A place that is read without a report has what ways within the depth lead to. -/
theorem has_iff_way (hquiet : (c.originProperties depth p).diagnostics = []) :
    (c.originProperties depth p).value.Has x ↔
      ∃ n q, c.Way (·.Passes · x) p n q ∧ c.Owns n q x ∧ depth + n + roomFor x ≤ maxDepth := by
  constructor
  · exact way_of_has hquiet
  · rintro ⟨n, q, hway, howns, hdeep⟩
    exact hway.has (by omega) howns

/-! ## The two lists of a declaration -/

/-- Some way brings a property of the name to the declaration: no utility type on it takes the
property away, and it leaves room for the type of the property. -/
def Offers (c : Classifier) (d : TypeDecl) (name : String) : Prop :=
  ∃ n q, c.Way (·.Passes · (.field name)) (.declaration d) n q ∧ name ∈ q.ownNames ∧
    n + 2 ≤ maxDepth

/-- Some way within the depth leads from the declaration to an interface of the schema. -/
def Joins (c : Classifier) (d target : TypeDecl) : Prop :=
  ∃ n, c.Way (fun _ _ => True) (.declaration d) n (.declaration target) ∧ 0 < n ∧ n ≤ maxDepth ∧
    c.aliasKind target 0 = .graphqlInterface

theorem mem_fields_iff (hquiet : (c.declProperties d 0).diagnostics = []) (name : String) :
    name ∈ (c.declProperties d 0).value.fields.map (·.name) ↔ c.Offers d name := by
  refine (has_iff_way (p := .declaration d) (x := .field name) hquiet).trans ?_
  simp only [Owns, roomFor, Nat.zero_add, Offers]

theorem mem_interfaces_iff (hquiet : (c.declProperties d 0).diagnostics = []) (name : String) :
    name ∈ (c.declProperties d 0).value.interfaces ↔
      ∃ target, c.Joins d target ∧ target.name = name := by
  refine (has_iff_way (p := .declaration d) (x := .interface name) hquiet).trans ?_
  simp only [Owns, roomFor, Nat.zero_add, Nat.add_zero, Joins]
  constructor
  · rintro ⟨n, q, hway, ⟨hpos, target, rfl, hkind, hname⟩, hdeep⟩
    exact ⟨target, ⟨n, hway, hpos, hdeep, hkind⟩, hname⟩
  · rintro ⟨target, ⟨n, hway, hpos, hdeep, hkind⟩, hname⟩
    exact ⟨n, _, hway, ⟨hpos, target, rfl, hkind, hname⟩, hdeep⟩

/-- A declaration that is read without a report lists the interfaces that it joins, and it has the
properties of them all exactly when each of these properties comes to it on some way. -/
theorem interfaces_covered_iff (hquiet : (c.declProperties d 0).diagnostics = []) :
    (∀ name, name ∈ (c.declProperties d 0).value.interfaces ↔
        ∃ target, c.Joins d target ∧ target.name = name) ∧
      ((∀ target, c.Joins d target → ∀ f ∈ (c.declProperties target 0).value.fields,
          f.name ∈ (c.declProperties d 0).value.fields.map (·.name)) ↔
        ∀ target, c.Joins d target → ∀ f ∈ (c.declProperties target 0).value.fields,
          c.Offers d f.name) := by
  refine ⟨mem_interfaces_iff hquiet, ?_⟩
  simp only [mem_fields_iff hquiet]

end Classifier

/-! ## Members and guests -/

namespace Sample

attribute [local irreducible] String.decEq

def aliasDecl (m : SourceModule) (name : String) (body : TypeExpr) : TypeDecl :=
  ⟨m, name, .alias ⟨span, name, false, body⟩, 0⟩

def interfaceDecl (m : SourceModule) (name : String) (parents : List String)
    (members : List Member) : TypeDecl :=
  ⟨m, name, .interface ⟨span, name, false, parents.map fun parent => ⟨span, some parent⟩, members⟩,
    0⟩

section Steps

variable {c : Classifier} {m : SourceModule} {passes : Utility → List String → Prop}

theorem step_parent {name parent : String} {members : List Member} {target : TypeDecl}
    (h : c.parentDecl? m ⟨span, some parent⟩ = some target) :
    c.Step passes (.declaration (interfaceDecl m name [parent] members)) 1
      (.declaration target) :=
  .parent rfl (List.mem_singleton_self _) h

theorem step_body (name : String) (body : TypeExpr) :
    c.Step passes (.declaration (aliasDecl m name body)) 1 (.type m body) := by
  have hnode : (aliasDecl m name body).node = .alias ⟨span, name, false, body⟩ := rfl
  exact .body hnode

end Steps

/-- What is reported of a declaration, its interfaces and the names of its properties. -/
def overview (c : Classifier) (d : TypeDecl) : List Diagnostic × List String × List String :=
  let found := c.declProperties d 0
  (found.diagnostics, found.value.interfaces, found.value.fields.map (·.name))

theorem of_overview {c : Classifier} {d : TypeDecl} {reports : List Diagnostic}
    {interfaces fields : List String} (h : overview c d = (reports, interfaces, fields)) :
    (c.declProperties d 0).diagnostics = reports ∧
      (c.declProperties d 0).value.interfaces = interfaces ∧
      (c.declProperties d 0).value.fields.map (·.name) = fields := by
  cases h
  exact ⟨rfl, rfl, rfl⟩

def keyed : TypeExpr := object [property "id" (keyword .string)]

/-- A member is a node, and a guest is one without its key. -/
def memberModule : SourceModule :=
  sourceModule
    [typeAlias "Node" (applied "DefineInterface" [keyed]),
      typeAlias "Keyless" (applied "Omit" [named "Node", text "id"]),
      extending "Member" ["Node"] [property "name" (keyword .string)],
      extending "Guest" ["Keyless"] [property "name" (keyword .string)]] []

def memberClassifier : Classifier := configured [] memberModule

def nodeDecl : TypeDecl := aliasDecl memberModule "Node" (applied "DefineInterface" [keyed])

def keylessDecl : TypeDecl :=
  aliasDecl memberModule "Keyless" (applied "Omit" [named "Node", text "id"])

def memberDecl : TypeDecl :=
  interfaceDecl memberModule "Member" ["Node"] [property "name" (keyword .string)]

def guestDecl : TypeDecl :=
  interfaceDecl memberModule "Guest" ["Keyless"] [property "name" (keyword .string)]

theorem overview_node : overview memberClassifier nodeDecl = ([], [], ["id"]) := by
  cbv

theorem overview_member :
    overview memberClassifier memberDecl = ([], ["Node"], ["name", "id"]) := by
  cbv

theorem overview_guest : overview memberClassifier guestDecl = ([], ["Node"], ["name"]) := by
  cbv

theorem aliasKind_node : memberClassifier.aliasKind nodeDecl 0 = .graphqlInterface := by
  cbv

theorem parent_node :
    memberClassifier.parentDecl? memberModule ⟨span, some "Node"⟩ = some nodeDecl := by
  cbv

theorem source_defineInterface :
    memberClassifier.source memberModule (.ident "DefineInterface") = .interfaceBody := by
  cbv

/-- Where the properties of a member come from. -/
def AroundMember (n : Nat) (p : Origin) : Prop :=
  (n = 0 ∧ p = .declaration memberDecl) ∨ p = .declaration nodeDecl ∨
    p = .type memberModule (applied "DefineInterface" [keyed]) ∨ p = .type memberModule keyed

theorem aroundMember_step {n k : Nat} {p q : Origin} {passes : Utility → List String → Prop}
    (h : AroundMember n p) (hstep : memberClassifier.Step passes p k q) :
    AroundMember (n + k) q := by
  rcases h with ⟨rfl, rfl⟩ | rfl | rfl | rfl
  · cases hstep with
    | parent hnode hparent htarget =>
      cases hnode
      obtain rfl := List.mem_singleton.mp hparent
      cases parent_node.symm.trans htarget
      exact Or.inr (Or.inl rfl)
    | body hnode => cases hnode
  · cases hstep with
    | parent hnode => cases hnode
    | body hnode =>
      cases hnode
      exact Or.inr (Or.inr (Or.inl rfl))
  · cases hstep with
    | named hsource => cases source_defineInterface.symm.trans hsource
    | interfaceBody => exact Or.inr (Or.inr (Or.inr rfl))
    | utility hsource => cases source_defineInterface.symm.trans hsource
  · cases hstep

/-- The one interface that a member joins is the node. -/
theorem joins_member {target : TypeDecl} (h : memberClassifier.Joins memberDecl target) :
    target = nodeDecl := by
  obtain ⟨n, hway, hpos, -, -⟩ := h
  have haround : AroundMember (0 + n) (.declaration target) :=
    hway.invariant (fun _ _ _ _ => aroundMember_step) (Or.inl ⟨rfl, rfl⟩)
  rcases haround with ⟨hzero, -⟩ | heq | heq | heq
  · omega
  · cases heq
    rfl
  · cases heq
  · cases heq

/-- A guest comes to the node through a utility type that takes its key away. -/
theorem way_guest {passes : Utility → List String → Prop} (hpasses : passes .drop ["id"]) :
    memberClassifier.Way passes (.declaration guestDecl) 5 (.declaration nodeDecl) := by
  have hkeyless : memberClassifier.parentDecl? memberModule ⟨span, some "Keyless"⟩ =
      some keylessDecl := by
    cbv
  have homit : memberClassifier.source memberModule (.ident "Omit") = .utility .drop := by
    cbv
  have hnode : memberClassifier.source memberModule (.ident "Node") = .declaration nodeDecl := by
    cbv
  have hdrop : memberClassifier.Step passes
      (.type memberModule (applied "Omit" [named "Node", text "id"])) 2
      (.type memberModule (named "Node")) := .utility homit rfl rfl hpasses
  have hnamed : memberClassifier.Step passes (.type memberModule (named "Node")) 1
      (.declaration nodeDecl) := .named hnode
  exact .step (step_parent hkeyless) (.step (step_body _ _) (.step hdrop (.step hnamed .here)))

end Sample

open Sample

theorem interfaces_covered_member :
    (memberClassifier.declProperties memberDecl 0).diagnostics = [] ∧
      (∃ target, memberClassifier.Joins memberDecl target ∧ target.name = "Node") ∧
      ∀ target, memberClassifier.Joins memberDecl target →
        ∀ f ∈ (memberClassifier.declProperties target 0).value.fields,
          memberClassifier.Offers memberDecl f.name := by
  obtain ⟨hquiet, hinterfaces, hfields⟩ := of_overview overview_member
  obtain ⟨-, -, hnode⟩ := of_overview overview_node
  have hcovered := Classifier.interfaces_covered_iff hquiet
  refine ⟨hquiet, (hcovered.1 "Node").mp (by rw [hinterfaces]; decide), hcovered.2.mp ?_⟩
  intro target hjoins f hf
  obtain rfl := joins_member hjoins
  have hname : f.name ∈ ["id"] := hnode ▸ List.mem_map_of_mem hf
  rw [List.mem_singleton.mp hname, hfields]
  decide

/-- A guest has no key, and is a node all the same. -/
theorem guest_lacks_key :
    (memberClassifier.declProperties guestDecl 0).diagnostics = [] ∧
      ∃ target, memberClassifier.Joins guestDecl target ∧
        target.name ∈ (memberClassifier.declProperties guestDecl 0).value.interfaces ∧
        ∃ f ∈ (memberClassifier.declProperties target 0).value.fields,
          f.name ∉ (memberClassifier.declProperties guestDecl 0).value.fields.map (·.name) := by
  obtain ⟨hquiet, hinterfaces, hfields⟩ := of_overview overview_guest
  obtain ⟨-, -, hnode⟩ := of_overview overview_node
  have hid : "id" ∈ (memberClassifier.declProperties nodeDecl 0).value.fields.map (·.name) := by
    rw [hnode]
    exact List.mem_singleton_self "id"
  obtain ⟨f, hf, hname⟩ := List.mem_map.mp hid
  have hjoins : memberClassifier.Joins guestDecl nodeDecl :=
    ⟨5, way_guest trivial, by decide, by decide, aliasKind_node⟩
  refine ⟨hquiet, nodeDecl, hjoins, ?_, f, hf, ?_⟩
  · rw [hinterfaces]
    decide
  · rw [hname, hfields]
    decide

end SchemaCompiler

import SchemaCompiler.Proofs.Shape.Inheritance

/-!
# Properties that are declared and not found

A property is declared by a type when some way leads to a place where it stands, and no utility type
on the way picks or drops properties. How far the way is does not matter to the one who reads the
source, but it matters to the classifier: behind the end of the depth a declaration is taken to be
empty, without a report. So a property is found when it stands near enough at one place at least.
-/

namespace SchemaCompiler

open TypeScript

namespace Classifier

variable {c : Classifier} {d : TypeDecl} {p q : Origin} {k n : Nat}
  {passes : Utility → List String → Prop}

/-- The utility type keeps every property. -/
def KeepsFields (u : Utility) (_ : List String) : Prop := u ≠ .keep ∧ u ≠ .drop

/-- No way from the place passes a utility type that picks or drops properties. -/
def PlainFrom (c : Classifier) (p : Origin) : Prop :=
  ∀ n m s name arguments u, c.Way (fun _ _ => True) p n (.type m (.reference s name arguments)) →
    c.source m name = .utility u → KeepsFields u []

/-- A property of the name stands `n` deeper than the declaration, and no utility type picks or
drops properties in between. -/
def Declares (c : Classifier) (d : TypeDecl) (n : Nat) (name : String) : Prop :=
  ∃ q, c.Way KeepsFields (.declaration d) n q ∧ name ∈ q.ownNames

theorem Step.mono {passes' : Utility → List String → Prop} (h : c.Step passes p k q)
    (hpasses : ∀ m s name arguments u keys, p = .type m (.reference s name arguments) →
      c.source m name = .utility u → passes u keys → passes' u keys) : c.Step passes' p k q := by
  cases h with
  | parent hnode hparent htarget => exact .parent hnode hparent htarget
  | body hnode => exact .body hnode
  | paren => exact .paren
  | part ht => exact .part ht
  | named hsource => exact .named hsource
  | interfaceBody hsource => exact .interfaceBody hsource
  | utility hsource harity hkeys h =>
    exact .utility hsource harity hkeys (hpasses _ _ _ _ _ _ rfl hsource h)

theorem Way.mono {passes' : Utility → List String → Prop} (h : c.Way passes p n q)
    (hpasses : ∀ u keys, passes u keys → passes' u keys) : c.Way passes' p n q := by
  induction h with
  | here => exact .here
  | step hstep _ ih => exact .step (hstep.mono fun _ _ _ _ u keys _ _ => hpasses u keys) ih

theorem passes_of_keepsFields {u : Utility} {keys : List String} (h : KeepsFields u keys)
    (x : Entry) : u.Passes keys x := by
  cases x with
  | field name => exact ⟨fun hu => absurd hu h.1, fun hu => absurd hu h.2⟩
  | interface name => trivial

theorem PlainFrom.way (h : c.PlainFrom p) (hway : c.Way passes p n q) :
    c.Way KeepsFields p n q := by
  induction hway with
  | here => exact .here
  | @step p q r k n hstep _ ih =>
    refine .step (hstep.mono ?_) (ih fun n m s name arguments u hrest hsource => ?_)
    · rintro m s name arguments u keys rfl hsource -
      exact h 0 m s name arguments u .here hsource
    · have hfirst := hstep.mono fun _ _ _ _ _ _ _ _ _ => trivial
      exact h (k + n) m s name arguments u (.step hfirst hrest) hsource

theorem offers_iff_declares (h : c.PlainFrom (.declaration d)) (name : String) :
    c.Offers d name ↔ ∃ n, c.Declares d n name ∧ n + 2 ≤ maxDepth := by
  constructor
  · rintro ⟨n, q, hway, hname, hdeep⟩
    exact ⟨n, ⟨q, h.way hway, hname⟩, hdeep⟩
  · rintro ⟨n, ⟨q, hway, hname⟩, hdeep⟩
    exact ⟨n, q, hway.mono fun u keys hkeeps => passes_of_keepsFields hkeeps _, hname, hdeep⟩

/-- A declaration that is read without a report has every property that it declares exactly when
each of them comes to it on some way, which without picking and dropping means that each of them
stands near enough. -/
theorem declared_found_iff (hquiet : (c.declProperties d 0).diagnostics = []) :
    ((∀ n name, c.Declares d n name →
        name ∈ (c.declProperties d 0).value.fields.map (·.name)) ↔
      ∀ n name, c.Declares d n name → c.Offers d name) ∧
      (c.PlainFrom (.declaration d) → ∀ name,
        c.Offers d name ↔ ∃ n, c.Declares d n name ∧ n + 2 ≤ maxDepth) := by
  refine ⟨?_, offers_iff_declares⟩
  simp only [mem_fields_iff hquiet]

end Classifier

/-! ## Coupons and passes -/

namespace Sample

attribute [local irreducible] String.decEq

set_option maxRecDepth 10000

/-- A type in `n` utility types that change nothing. -/
def unchanged : Nat → TypeExpr → TypeExpr
  | 0, t => t
  | n + 1, t => applied "Readonly" [unchanged n t]

/-- A coupon is a ticket, and a pass is one that is sealed 15 times. -/
def ticketModule : SourceModule :=
  sourceModule
    [interface "Ticket" [property "id" (keyword .string)],
      typeAlias "Sealed" (unchanged 15 (named "Ticket")),
      extending "Pass" ["Sealed"] [],
      extending "Coupon" ["Ticket"] [property "name" (keyword .string)]] []

def ticketClassifier : Classifier := configured [] ticketModule

def ticketDecl : TypeDecl :=
  interfaceDecl ticketModule "Ticket" [] [property "id" (keyword .string)]

def sealedDecl : TypeDecl := aliasDecl ticketModule "Sealed" (unchanged 15 (named "Ticket"))

def passDecl : TypeDecl := interfaceDecl ticketModule "Pass" ["Sealed"] []

def couponDecl : TypeDecl :=
  interfaceDecl ticketModule "Coupon" ["Ticket"] [property "name" (keyword .string)]

theorem overview_coupon : overview ticketClassifier couponDecl = ([], [], ["name", "id"]) := by
  cbv

theorem overview_pass : overview ticketClassifier passDecl = ([], [], []) := by
  cbv

theorem parent_ticket :
    ticketClassifier.parentDecl? ticketModule ⟨span, some "Ticket"⟩ = some ticketDecl := by
  cbv

/-- A coupon takes properties from its ticket only. -/
def AroundCoupon (n : Nat) (p : Origin) : Prop :=
  (n = 0 ∧ p = .declaration couponDecl) ∨ (n = 1 ∧ p = .declaration ticketDecl)

theorem aroundCoupon_step {n k : Nat} {p q : Origin} {passes : Utility → List String → Prop}
    (h : AroundCoupon n p) (hstep : ticketClassifier.Step passes p k q) :
    AroundCoupon (n + k) q := by
  rcases h with ⟨rfl, rfl⟩ | ⟨rfl, rfl⟩
  · cases hstep with
    | parent hnode hparent htarget =>
      cases hnode
      obtain rfl := List.mem_singleton.mp hparent
      cases parent_ticket.symm.trans htarget
      exact Or.inr ⟨rfl, rfl⟩
    | body hnode => cases hnode
  · cases hstep with
    | parent hnode hparent =>
      cases hnode
      cases hparent
    | body hnode => cases hnode

theorem way_coupon {n : Nat} {passes : Utility → List String → Prop} {q : Origin}
    (h : ticketClassifier.Way passes (.declaration couponDecl) n q) : AroundCoupon n q := by
  have haround : AroundCoupon (0 + n) q :=
    h.invariant (fun _ _ _ _ => aroundCoupon_step) (Or.inl ⟨rfl, rfl⟩)
  rwa [Nat.zero_add] at haround

theorem plainFrom_coupon : ticketClassifier.PlainFrom (.declaration couponDecl) := by
  intro n m s name arguments u hway
  rcases way_coupon hway with ⟨-, heq⟩ | ⟨-, heq⟩
  · cases heq
  · cases heq

/-- Each utility type on a way costs two. -/
theorem way_unchanged {passes : Utility → List String → Prop} {t : TypeExpr} {k : Nat} {q : Origin}
    (n : Nat) (hpasses : passes .unchanged [])
    (hway : ticketClassifier.Way passes (.type ticketModule t) k q) :
    ticketClassifier.Way passes (.type ticketModule (unchanged n t)) (2 * n + k) q := by
  induction n with
  | zero => rwa [Nat.mul_zero, Nat.zero_add]
  | succ n ih =>
    have hsource : ticketClassifier.source ticketModule (.ident "Readonly") =
        .utility .unchanged := by
      cbv
    have hstep : ticketClassifier.Step passes (.type ticketModule (unchanged (n + 1) t)) 2
        (.type ticketModule (unchanged n t)) := .utility hsource rfl rfl hpasses
    have hlength : 2 * (n + 1) + k = 2 + (2 * n + k) := by omega
    rw [hlength]
    exact .step hstep ih

/-- A pass comes to its ticket, but one step behind the end of the depth. -/
theorem way_pass {passes : Utility → List String → Prop} (hpasses : passes .unchanged []) :
    ticketClassifier.Way passes (.declaration passDecl) 33 (.declaration ticketDecl) := by
  have hsealed : ticketClassifier.parentDecl? ticketModule ⟨span, some "Sealed"⟩ =
      some sealedDecl := by
    cbv
  have hticket : ticketClassifier.source ticketModule (.ident "Ticket") =
      .declaration ticketDecl := by
    cbv
  have hnamed : ticketClassifier.Step passes (.type ticketModule (named "Ticket")) 1
      (.declaration ticketDecl) := .named hticket
  exact .step (step_parent hsealed) (.step (step_body _ _)
    (way_unchanged 15 hpasses (.step hnamed .here)))

end Sample

open Sample

theorem declared_found_coupon :
    (ticketClassifier.declProperties couponDecl 0).diagnostics = [] ∧
      ticketClassifier.PlainFrom (.declaration couponDecl) ∧
      ticketClassifier.Declares couponDecl 1 "id" ∧
      ∀ n name, ticketClassifier.Declares couponDecl n name →
        name ∈ (ticketClassifier.declProperties couponDecl 0).value.fields.map (·.name) := by
  obtain ⟨hquiet, -, -⟩ := of_overview overview_coupon
  have hfound := Classifier.declared_found_iff hquiet
  refine ⟨hquiet, plainFrom_coupon, ⟨.declaration ticketDecl, .step (.parent rfl
    (List.mem_singleton_self _) parent_ticket) .here, List.mem_singleton_self _⟩, hfound.1.mpr ?_⟩
  intro n name hdeclares
  refine (hfound.2 plainFrom_coupon name).mpr ⟨n, hdeclares, ?_⟩
  obtain ⟨q, hway, -⟩ := hdeclares
  rcases way_coupon hway with ⟨rfl, -⟩ | ⟨rfl, -⟩
  · decide
  · decide

/-- A pass has nothing of its ticket, and nothing is said of it. -/
theorem pass_lacks_ticket :
    (ticketClassifier.declProperties passDecl 0).diagnostics = [] ∧
      (∃ n, ticketClassifier.Declares passDecl n "id") ∧
      "id" ∉ (ticketClassifier.declProperties passDecl 0).value.fields.map (·.name) := by
  obtain ⟨hquiet, -, hfields⟩ := of_overview overview_pass
  refine ⟨hquiet, ⟨33, .declaration ticketDecl, way_pass ?_,
    List.mem_singleton_self _⟩, ?_⟩
  · exact ⟨by decide, by decide⟩
  · rw [hfields]
    exact List.not_mem_nil

end SchemaCompiler

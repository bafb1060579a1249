import Mathlib.Data.List.Forall2
import SchemaCompiler.Proofs.Declarations

/-!
# What lowering reports

Lowering goes on after a fault, and a run only adds to what was reported before it. `Reports m Q`
says so of every run of `m`, and with `Q` what holds of the diagnostics that the run adds and of its
result. Unlike a property of runs without errors this can tell which diagnostic stands for which
fault. `Quiet m Q` is the case where `Q` says something of the runs that add nothing, wherever they
start.
-/

namespace SchemaCompiler.GraphQL.Lowering

variable {α β : Type}

/-- Every run of `m` adds diagnostics behind those that it starts with, and `Q` holds of what it adds
and of its result. -/
def Reports (m : Lowering α) (Q : List Diagnostic → α → Prop) : Prop :=
  ∀ s : Synthesis, ∃ added,
    (m.run s).2.diagnostics = s.diagnostics ++ added ∧ Q added (m.run s).1

theorem Reports.pure {Q : List Diagnostic → α → Prop} {a : α} (h : Q [] a) :
    Reports (pure a) Q :=
  fun s => ⟨[], (List.append_nil s.diagnostics).symm, h⟩

theorem Reports.bind {Q : List Diagnostic → α → Prop} {R : List Diagnostic → β → Prop}
    {m : Lowering α} {f : α → Lowering β} (hm : Reports m Q)
    (hf : ∀ a, Reports (f a) fun more b => ∀ added, Q added a → R (added ++ more) b) :
    Reports (m >>= f) R := by
  intro s
  obtain ⟨added, hadded, ha⟩ := hm s
  obtain ⟨more, hmore, hb⟩ := hf (m.run s).1 (m.run s).2
  refine ⟨added ++ more, ?_, hb added ha⟩
  rw [← List.append_assoc, ← hadded]
  exact hmore

theorem Reports.mono {Q R : List Diagnostic → α → Prop} {m : Lowering α} (h : Reports m Q)
    (himp : ∀ added a, Q added a → R added a) : Reports m R := by
  intro s
  obtain ⟨added, hadded, ha⟩ := h s
  exact ⟨added, hadded, himp added _ ha⟩

theorem reports_report (d : Diagnostic) : Reports (report d) fun added _ => added = [d] :=
  fun _ => ⟨[d], rfl, rfl⟩

/-- What holds behind a report. -/
theorem Reports.behind_report {R : List Diagnostic → β → Prop} {m : Lowering β} {d : Diagnostic}
    (h : Reports m fun more b => R (d :: more) b) : Reports (report d >>= fun _ => m) R := by
  refine (reports_report d).bind fun _ => h.mono fun more b hb added hadded => ?_
  rw [hadded]
  exact hb

/-! ## Runs that add nothing -/

/-- A run of `m` that adds nothing to what was reported ends in a result with `Q`. -/
def Quiet (m : Lowering α) (Q : α → Prop) : Prop := Reports m fun added a => added = [] → Q a

theorem Quiet.pure {Q : α → Prop} {a : α} (h : Q a) : Quiet (pure a) Q :=
  Reports.pure fun _ => h

theorem Quiet.bind {Q : α → Prop} {R : β → Prop} {m : Lowering α} {f : α → Lowering β}
    (hm : Quiet m Q) (hf : ∀ a, Quiet (f a) fun b => Q a → R b) : Quiet (m >>= f) R := by
  refine Reports.bind hm fun a => (hf a).mono fun more b hb added ha hquiet => ?_
  obtain ⟨hadded, hmore⟩ := List.append_eq_nil_iff.mp hquiet
  exact hb hmore (ha hadded)

theorem Reports.quiet {Q : α → Prop} {m : Lowering α} (h : Reports m fun _ a => Q a) : Quiet m Q :=
  h.mono fun _ _ ha _ => ha

/-- No run that reports something adds nothing. -/
theorem Reports.refused {Q : List Diagnostic → β → Prop} {R : β → Prop} {m : Lowering β}
    (h : Reports m Q) (d : Diagnostic) : Quiet (report d >>= fun _ => m) R :=
  .behind_report (h.mono fun _ _ _ hadded => nomatch hadded)

theorem Quiet.result {Q : α → Prop} {m : Lowering α} (h : Quiet m Q) {s : Synthesis}
    (hquiet : (m.run s).2.diagnostics = s.diagnostics) : Q (m.run s).1 := by
  obtain ⟨added, hadded, ha⟩ := h s
  rw [hquiet] at hadded
  exact ha (List.self_eq_append_right.mp hadded)

/-! ## Fields -/

/-- Reports are never taken back. -/
theorem stable_reported (before : List Diagnostic) : Stable fun s => before <+: s.diagnostics where
  report hs _ := hs.trans (List.prefix_append _ _)
  add hs _ _ := hs

theorem reports_of_keeps {Q : α → Prop} {m : Lowering α}
    (h : ∀ before, Keeps (fun s => before <+: s.diagnostics) m Q) : Reports m fun _ a => Q a := by
  intro s
  obtain ⟨⟨added, hadded⟩, ha⟩ := h s.diagnostics s (List.prefix_refl _)
  exact ⟨added, hadded.symm, ha⟩

theorem typeName_reports (side : Side) (hint : String) (location : Option SourceLocation)
    (shape : TypeShape) : Reports (typeName side hint location shape) fun _ _ => True :=
  reports_of_keeps fun before => typeName_keeps (stable_reported before) side hint location shape

theorem fieldType_reports (side : Side) (hint : String) (location : Option SourceLocation)
    (optional : Bool) (t : Nullable TypeShape) :
    Reports (fieldType side hint location optional t) fun _ type =>
      type.list = isArray t.shape ∧ type.nullable = (t.nullable || optional) := by
  obtain ⟨shape, nullable⟩ := t
  have hname := typeName_reports side hint location shape
  cases harray : isArray shape with
  | false =>
    rw [fieldType_of_not_isArray harray]
    exact hname.bind fun _ => .pure fun _ _ => ⟨rfl, rfl⟩
  | true =>
    cases shape <;> cases harray
    rw [fieldType]
    split
    · exact .behind_report (hname.bind fun _ => .pure fun _ _ => ⟨rfl, rfl⟩)
    · exact hname.bind fun _ => .pure fun _ _ => ⟨rfl, rfl⟩

/-- A field has what its property says, but for the name of its type. -/
structure FieldFor (p : SchemaCompiler.Field) (f : Field) : Prop where
  name : f.name = p.name
  list : f.type.list = isArray p.type.shape
  nullable : f.type.nullable = (p.type.nullable || p.optional)
  bare : f.args = []
  description : f.description = p.description
  deprecated : f.deprecated = p.deprecated
  location : f.location = p.location

theorem fieldOf_reports (side : Side) (owner : String) (p : SchemaCompiler.Field) :
    Reports (fieldOf side owner p) fun _ f => FieldFor p f := by
  obtain ⟨name, type, optional, description, deprecated, location⟩ := p
  exact (fieldType_reports side (fieldHint owner name) location optional type).bind fun _ =>
    .pure fun _ h => ⟨rfl, h.1, h.2, rfl, rfl, rfl, rfl⟩

theorem fieldsOf_reports (side : Side) (owner : String) (properties : List SchemaCompiler.Field) :
    Reports (fieldsOf side owner properties) fun _ fields =>
      List.Forall₂ FieldFor properties fields := by
  induction properties with
  | nil => exact .pure .nil
  | cons p rest ih =>
    exact (fieldOf_reports side owner p).bind fun _ => ih.bind fun _ =>
      .pure fun _ hrest _ hfirst => .cons hfirst hrest

/-! ## Exported types -/

theorem invalidInput_quiet (t : ExportedType) {Q : Option TypeDef → Prop} :
    Quiet (invalidInput t) Q :=
  (Reports.pure trivial : Reports (pure none) fun _ _ => True).refused _

theorem inlineUnionOutput_quiet (t : ExportedType) {Q : Option TypeDef → Prop} :
    Quiet (inlineUnionOutput t) Q :=
  (Reports.pure trivial : Reports (pure none) fun _ _ => True).refused _

/-- A value stands for a member of an exported enum. -/
structure ValueFor (m : EnumLiteral) (v : EnumValue) : Prop where
  name : v.name = Text.screamingSnake m.name
  legal : isName v.name = true
  literal : v.literal = m.value
  description : v.description = m.description
  deprecated : v.deprecated = m.deprecated

/-- Members that are all fit to be values become values, in order. -/
theorem enumValues_quiet (t : ExportedType) (members : List EnumLiteral) :
    Quiet (enumValues t members) (List.Forall₂ ValueFor members) := by
  induction members with
  | nil => exact .pure .nil
  | cons m rest ih =>
    rw [enumValues]
    split
    · rename_i hname
      exact ih.bind fun _ => .pure fun hrest => .cons ⟨rfl, hname, rfl, rfl, rfl⟩ hrest
    · exact Reports.refused ih _

/-- An object that is written out in a union has one property, and the field is for it. -/
def FieldForMember (member : List SchemaCompiler.Field) (f : Field) : Prop :=
  ∃ p, member = [p] ∧ FieldFor (asOptional p) f

/-- Objects with one property each become fields, in order. -/
theorem oneOfFields_quiet (t : ExportedType) (members : List (List SchemaCompiler.Field)) :
    Quiet (oneOfFields t members) (List.Forall₂ FieldForMember members) := by
  induction members with
  | nil => exact .pure .nil
  | cons member rest ih =>
    match member with
    | [] => exact Reports.refused ih _
    | [p] =>
      rw [oneOfFields_cons]
      exact (fieldOf_reports .input t.name (asOptional p)).quiet.bind fun _ =>
        ih.bind fun _ => .pure fun hrest hfirst => .cons ⟨p, rfl, hfirst⟩ hrest
    | _ :: _ :: _ => exact Reports.refused ih _

end SchemaCompiler.GraphQL.Lowering

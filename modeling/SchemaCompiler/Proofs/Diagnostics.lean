import SchemaCompiler.Diagnostic
import SchemaCompiler.Proofs.Path.Order

/-!
# What reported results hold

A run succeeds when none of its diagnostics is an error, and then no part of it reported one.
`Reported.each` runs over a list item by item, so its values and diagnostics are those of the items.
-/

namespace SchemaCompiler

/-! ## Errors -/

@[simp]
theorem hasErrors_append (a b : List Diagnostic) :
    hasErrors (a ++ b) = (hasErrors a || hasErrors b) :=
  List.any_append

theorem hasErrors_eq_false_iff {ds : List Diagnostic} :
    hasErrors ds = false ↔ ∀ d ∈ ds, d.isError = false := by
  simp [hasErrors]

@[simp]
theorem isError_error (code : Code) (message : String) (location : Option SourceLocation) :
    (Diagnostic.error code message location).isError = true := rfl

theorem hasErrors_of_eq_nil {ds : List Diagnostic} (h : ds = []) : hasErrors ds = false := by
  rw [h]
  rfl

/-- Where every diagnostic is an error, having none of them is having no diagnostic at all. -/
theorem eq_nil_of_hasErrors_eq_false {ds : List Diagnostic}
    (hall : ∀ d ∈ ds, d.isError = true) (h : hasErrors ds = false) : ds = [] := by
  apply List.eq_nil_iff_forall_not_mem.mpr
  intro d hd
  have hno := hasErrors_eq_false_iff.mp h d hd
  rw [hall d hd] at hno
  cases hno

/-! ## Equal diagnostics -/

theorem SourceLocation.beq_def (a b : SourceLocation) :
    (a == b) = (a.file == b.file && (a.line == b.line && a.column == b.column)) := rfl

/-- What tells locations apart. -/
def SourceLocation.place (l : SourceLocation) : List Component × Nat × Nat :=
  (l.file.components, l.line, l.column)

theorem SourceLocation.beq_iff {a b : SourceLocation} : (a == b) = true ↔ a.place = b.place := by
  simp [beq_def, place, Path.beq_iff]

instance : EquivBEq SourceLocation :=
  equivBEq_of_key SourceLocation.place fun _ _ => SourceLocation.beq_iff

theorem SourceLocation.option_beq_iff {a b : Option SourceLocation} :
    (a == b) = true ↔ a.map place = b.map place := by
  cases a <;> cases b <;> simp [beq_iff]

theorem Diagnostic.beq_def (a b : Diagnostic) :
    (a == b) = (a.code == b.code && (a.message == b.message &&
      (a.severity == b.severity && a.location == b.location))) := rfl

theorem Diagnostic.beq_iff {a b : Diagnostic} :
    (a == b) = true ↔ a.code = b.code ∧ a.message = b.message ∧ a.severity = b.severity ∧
      a.location.map SourceLocation.place = b.location.map SourceLocation.place := by
  simp only [beq_def, Bool.and_eq_true, beq_iff_eq, SourceLocation.option_beq_iff]

instance : EquivBEq Diagnostic :=
  equivBEq_of_key (fun d => (d.code, d.message, d.severity, d.location.map SourceLocation.place))
    fun a b => by simp [Diagnostic.beq_iff]

/-! ## Runs over lists -/

namespace Reported

variable {α β : Type}

@[simp]
theorem value_each (f : α → Reported β) (as : List α) :
    (each f as).value = as.map fun a => (f a).value := by
  induction as with
  | nil => rfl
  | cons a as ih => simp [each, ih]

@[simp]
theorem diagnostics_each (f : α → Reported β) (as : List α) :
    (each f as).diagnostics = as.flatMap fun a => (f a).diagnostics := by
  induction as with
  | nil => rfl
  | cons a as ih => simp [each, ih]

@[simp]
theorem value_eachSome (f : α → Reported (Option β)) (as : List α) :
    (eachSome f as).value = as.filterMap fun a => (f a).value := by
  simp [eachSome, List.filterMap_map]

@[simp]
theorem diagnostics_eachSome (f : α → Reported (Option β)) (as : List α) :
    (eachSome f as).diagnostics = as.flatMap fun a => (f a).diagnostics := by
  simp [eachSome]

/-- A run over a list without errors ran on each item without errors. -/
theorem hasErrors_of_mem_each {f : α → Reported β} {as : List α}
    (h : hasErrors (each f as).diagnostics = false) {a : α} (ha : a ∈ as) :
    hasErrors (f a).diagnostics = false := by
  rw [hasErrors_eq_false_iff] at h ⊢
  intro d hd
  apply h d
  rw [diagnostics_each]
  exact List.mem_flatMap.mpr ⟨a, ha, hd⟩

end Reported

end SchemaCompiler

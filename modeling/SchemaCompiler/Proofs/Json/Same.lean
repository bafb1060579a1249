import Mathlib.Data.List.Forall2
import SchemaCompiler.Json.Basic
import SchemaCompiler.Proofs.Tables

/-!
# Values that are the same

As a value, an object is its fields under their names, whatever their order is. Objects that list
the same names, each once, are the same value when their fields are so one by one.
-/

namespace SchemaCompiler.Json

mutual

/-- Whether two values are the same when the order of fields says nothing. -/
def same : Json → Json → Bool
  | null, null => true
  | bool a, bool b => a == b
  | int a, int b => a == b
  | float a, float b => a == b
  | string a, string b => a == b
  | array items, array others => sameItems items others
  | object fields, object others => fields.length == others.length && sameFields fields others
  | _, _ => false

def sameItems : List Json → List Json → Bool
  | [], [] => true
  | item :: items, other :: others => same item other && sameItems items others
  | _, _ => false

/-- Whether each of the fields is found among others, with the same value. -/
def sameFields : List (String × Json) → List (String × Json) → Bool
  | [], _ => true
  | (name, value) :: fields, others =>
    (match others.lookup name with
      | some other => same value other
      | none => false) && sameFields fields others

end

theorem same_bool_iff {a b : Bool} : (bool a).same (bool b) = true ↔ a = b := by
  rw [same, beq_iff_eq]

theorem same_string_iff {a b : String} : (string a).same (string b) = true ↔ a = b := by
  rw [same, beq_iff_eq]

/-! ## Lists -/

section Items

variable {α : Type} {f : α → Json}

theorem sameItems_map_iff (h : ∀ a b, (f a).same (f b) = true ↔ a = b) (as bs : List α) :
    sameItems (as.map f) (bs.map f) = true ↔ as = bs := by
  induction as generalizing bs with
  | nil => cases bs <;> simp [sameItems]
  | cons a as ih =>
    cases bs with
    | nil => simp [sameItems]
    | cons b bs => simp [sameItems, h, ih]

/-- Where the values of different items differ, so do those of different lists. -/
theorem same_array_map_iff (h : ∀ a b, (f a).same (f b) = true ↔ a = b) (as bs : List α) :
    (array (as.map f)).same (array (bs.map f)) = true ↔ as = bs := by
  rw [same, sameItems_map_iff h]

end Items

@[simp]
theorem same_array_nil : (array []).same (array []) = true := by
  rw [same, sameItems]

/-! ## Objects -/

/-- Fields side by side hold the same values. -/
def SameValues (fields others : List (String × Json)) : Prop :=
  List.Forall₂ (fun field other => field.2.same other.2 = true) fields others

@[simp]
theorem sameValues_nil : SameValues [] [] := .nil

@[simp]
theorem sameValues_cons {field other : String × Json} {fields others : List (String × Json)} :
    SameValues (field :: fields) (other :: others) ↔
      field.2.same other.2 = true ∧ SameValues fields others :=
  List.forall₂_cons

theorem sameValues_append_iff {fields fields' others others' : List (String × Json)}
    (hlength : fields.length = others.length) :
    SameValues (fields ++ fields') (others ++ others') ↔
      SameValues fields others ∧ SameValues fields' others' := by
  induction fields generalizing others with
  | nil =>
    obtain rfl : others = [] := by simpa using hlength.symm
    simp
  | cons field fields ih =>
    cases others with
    | nil => simp at hlength
    | cons other others => simp [ih (by simpa using hlength), and_assoc]

theorem sameFields_iff {fields others all : List (String × Json)}
    (hnames : fields.map (·.1) = others.map (·.1))
    (hfound : ∀ other ∈ others, all.lookup other.1 = some other.2) :
    sameFields fields all = true ↔ SameValues fields others := by
  induction fields generalizing others with
  | nil =>
    obtain rfl : others = [] := by simpa using hnames.symm
    simp [sameFields]
  | cons field fields ih =>
    obtain ⟨name, value⟩ := field
    cases others with
    | nil => simp at hnames
    | cons other others =>
      obtain ⟨hname, hrest⟩ : name = other.1 ∧ fields.map (·.1) = others.map (·.1) := by
        simpa using hnames
      obtain ⟨hother, hothers⟩ := List.forall_mem_cons.mp hfound
      rw [sameFields, hname, hother, sameValues_cons, ← ih hrest hothers, Bool.and_eq_true]

theorem same_object_iff {fields others : List (String × Json)}
    (hnames : fields.map (·.1) = others.map (·.1)) (hnodup : (others.map (·.1)).Nodup) :
    (object fields).same (object others) = true ↔ SameValues fields others := by
  have hlength : fields.length = others.length := by
    simpa using congrArg List.length hnames
  have hfields := sameFields_iff hnames fun other hother => (mem_iff_lookup hnodup).mp hother
  rw [same, Bool.and_eq_true, beq_iff_eq, hfields]
  exact and_iff_right hlength

end SchemaCompiler.Json

import Mathlib
import SchemaCompiler.Proofs.Path.Normal

/-!
# Where normal paths lead

Normalization and reading walk along the same steps. Normalization keeps a stack of steps, reading
keeps a location, and the stack has the names of the location on top. Below them stands the root, or
what is left of the steps that lead above the start: a step up takes back whatever it finds, also an
earlier step up, so that these go two by two. A normal path leads where the path leads, but for those
pairs.
-/

namespace SchemaCompiler

namespace Location

/-- Names are steps down, the last one first. -/
theorem foldl_walk_names (names : List String) (l : Location) :
    (names.map Component.name).reverse.foldl walk l = { l with names := names ++ l.names } := by
  induction names with
  | nil => rfl
  | cons s names ih =>
    rw [List.map_cons, List.reverse_cons, List.foldl_append, ih]
    rfl

end Location

namespace Path

/-! ## Stacks of steps -/

/-- What a stack of steps keeps of the location that they lead to. -/
inductive Records : List Component → Location → Prop where
  | relative (ups : Nat) (names : List String) :
    Records (names.map .name ++ List.replicate (ups % 2) .up) ⟨false, ups, names⟩
  | absolute (names : List String) : Records (names.map .name ++ [.root]) ⟨true, 0, names⟩
  /-- A step up from the root is kept, and leads nowhere. -/
  | aboveRoot (names : List String) :
    Records (names.map .name ++ [.up, .root]) ⟨true, 0, names⟩

theorem Records.down {steps : List Component} {l : Location} (h : Records steps l) (s : String) :
    Records (step steps (.name s)) (l.walk (.name s)) := by
  cases h with
  | relative ups names => exact .relative ups (s :: names)
  | absolute names => exact .absolute (s :: names)
  | aboveRoot names => exact .aboveRoot (s :: names)

/-- One more step up is put down where an even number of them has gone, and takes the last one back
where the number is odd. -/
theorem step_up_replicate (ups : Nat) :
    step (List.replicate (ups % 2) .up) .up = List.replicate ((ups + 1) % 2) .up := by
  rcases Nat.mod_two_eq_zero_or_one ups with heven | hodd
  · have hnext : (ups + 1) % 2 = 1 := by omega
    rw [heven, hnext]
    rfl
  · have hnext : (ups + 1) % 2 = 0 := by omega
    rw [hodd, hnext]
    rfl

theorem Records.up {steps : List Component} {l : Location} (h : Records steps l) :
    Records (step steps .up) (l.walk .up) := by
  have hname : ∀ s : String, Component.name s ≠ .root := fun s => by simp
  cases h with
  | relative ups names =>
    cases names with
    | nil =>
      rw [List.map_nil, List.nil_append, step_up_replicate]
      exact .relative (ups + 1) []
    | cons s names =>
      rw [List.map_cons, List.cons_append, step_up (hname s)]
      exact .relative ups names
  | absolute names =>
    cases names with
    | nil => exact .aboveRoot []
    | cons s names =>
      rw [List.map_cons, List.cons_append, step_up (hname s)]
      exact .absolute names
  | aboveRoot names =>
    cases names with
    | nil => exact .absolute []
    | cons s names =>
      rw [List.map_cons, List.cons_append, step_up (hname s)]
      exact .aboveRoot names

theorem Records.step {steps : List Component} {l : Location} (h : Records steps l)
    (c : Component) : Records (step steps c) (l.walk c) := by
  cases c with
  | root => exact .absolute []
  | here => exact h
  | up => exact h.up
  | name s => exact h.down s

theorem Records.foldl {steps : List Component} {l : Location} (h : Records steps l)
    (components : List Component) :
    Records (components.foldl Path.step steps) (components.foldl Location.walk l) := by
  induction components generalizing steps l with
  | nil => exact h
  | cons c rest ih => exact ih (h.step c)

theorem records_components (p : Path) : Records (p.components.foldl step []) p.location :=
  (Records.relative 0 []).foldl p.components

/-! ## What is read of a stack -/

/-- Steps of which none says nothing, and none leads up again behind a name. -/
structure Settled (steps : List Component) : Prop where
  noHere : .here ∉ steps
  noReturn : steps.Pairwise fun earlier later => later = .up → ∀ s, earlier ≠ .name s

/-- Names may be put on steps. -/
theorem Settled.above {base : List Component} (h : Settled base.reverse) (names : List String) :
    Settled (names.map Component.name ++ base).reverse := by
  have hup : Component.up ∉ (names.map Component.name).reverse := by simp
  have hnames : (names.map Component.name).reverse.Pairwise
      fun earlier later => later = .up → ∀ s, earlier ≠ .name s := by
    refine List.pairwise_of_forall_mem_list fun earlier _ later hlater heq => ?_
    exact absurd (heq ▸ hlater) hup
  rw [List.reverse_append]
  refine ⟨fun hhere => ?_, List.pairwise_append.mpr ⟨h.noReturn, hnames, ?_⟩⟩
  · rcases List.mem_append.mp hhere with hhere | hhere
    · exact h.noHere hhere
    · simp at hhere
  · intro earlier _ later hlater heq
    exact absurd (heq ▸ hlater) hup

theorem settled_replicate (ups : Nat) : Settled (List.replicate (ups % 2) .up).reverse := by
  rcases Nat.mod_two_eq_zero_or_one ups with heven | hodd
  · rw [heven]
    exact ⟨by simp, by simp⟩
  · rw [hodd]
    exact ⟨by simp, by simp⟩

theorem Records.settled {steps : List Component} {l : Location} (h : Records steps l) :
    Settled steps.reverse := by
  cases h with
  | relative ups names => exact (settled_replicate ups).above names
  | absolute names =>
    have hroot : Settled [Component.root].reverse := ⟨by simp, by simp⟩
    exact hroot.above names
  | aboveRoot names =>
    have hroot : Settled [Component.up, .root].reverse := ⟨by simp, by simp⟩
    exact hroot.above names

/-- Names lead down from where the steps below them lead. -/
theorem ofComponents_names (names : List String) (base : List Component) :
    Location.ofComponents (names.map Component.name ++ base).reverse =
      { Location.ofComponents base.reverse with
        names := names ++ (Location.ofComponents base.reverse).names } := by
  rw [Location.ofComponents, List.reverse_append, List.foldl_append, Location.foldl_walk_names]
  rfl

theorem ofComponents_replicate (ups : Nat) :
    Location.ofComponents (List.replicate (ups % 2) .up).reverse = ⟨false, ups % 2, []⟩ := by
  rcases Nat.mod_two_eq_zero_or_one ups with heven | hodd
  · rw [heven]
    rfl
  · rw [hodd]
    rfl

/-- The steps lead to the location, but for pairs of steps above the start. -/
theorem Records.location_eq {steps : List Component} {l : Location} (h : Records steps l) :
    Location.ofComponents steps.reverse = { l with ups := l.ups % 2 } := by
  cases h with
  | relative ups names =>
    rw [ofComponents_names, ofComponents_replicate, List.append_nil]
  | absolute names =>
    rw [ofComponents_names]
    exact congrArg (Location.mk true 0) (List.append_nil names)
  | aboveRoot names =>
    rw [ofComponents_names]
    exact congrArg (Location.mk true 0) (List.append_nil names)

/-! ## Normal paths -/

theorem location_normalize (p : Path) :
    p.normalize.location = { p.location with ups := p.location.ups % 2 } := by
  rw [location, components_normalize, normalSteps]
  exact (records_components p).location_eq

/-- A normal path has no idle step and no step up behind a name. It leads where the path leads exactly
when that is at most one step above the start (above the root there is none), and among such paths it
tells two apart that lead to different places. -/
theorem normalize_keeps_location_iff (p q : Path) :
    Settled p.normalize.components ∧
      p.normalize.location = { p.location with ups := p.location.ups % 2 } ∧
      (p.normalize.location = p.location ↔ p.location.ups ≤ 1) ∧
      ((p.normalize == q.normalize) = true → p.location.ups ≤ 1 → q.location.ups ≤ 1 →
        p.location = q.location) := by
  have hkeeps : ∀ p : Path, p.normalize.location = p.location ↔ p.location.ups ≤ 1 := by
    intro p
    rw [location_normalize]
    constructor
    · intro heq
      have hups : p.location.ups % 2 = p.location.ups := congrArg Location.ups heq
      omega
    · intro hups
      have hmod : p.location.ups % 2 = p.location.ups := by omega
      rw [hmod]
  refine ⟨?_, location_normalize p, hkeeps p, fun hsame hp hq => ?_⟩
  · rw [components_normalize, normalSteps]
    exact (records_components p).settled
  · calc p.location = p.normalize.location := ((hkeeps p).mpr hp).symm
      _ = q.normalize.location := congrArg Location.ofComponents (beq_iff.mp hsame)
      _ = q.location := (hkeeps q).mpr hq

/-- Two steps above the start are lost, so that different places have one normal path. -/
theorem steps_up_lost :
    ((⟨"../../a"⟩ : Path).normalize == (⟨"a"⟩ : Path).normalize) = true ∧
      (⟨"../../a"⟩ : Path).location ≠ (⟨"a"⟩ : Path).location := by
  decide

end Path

end SchemaCompiler

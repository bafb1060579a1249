import Mathlib
import SchemaCompiler.Proofs.Path.Joined

/-!
# Where written imports lead

An import leads from a directory to a target. What the two paths share is left out; then come a step
up for every step that is left to the directory, and the steps that are left to the target. A step up
takes a name back, and not a step up: there the import misses its target, unless the root stops it.
-/

namespace SchemaCompiler

namespace Location

/-- Some steps up. -/
def climb (count : Nat) (l : Location) : Location := (fun l => l.walk .up)^[count] l

theorem climb_succ (count : Nat) (l : Location) : climb (count + 1) l = climb count (l.walk .up) :=
  rfl

theorem climb_add (m n : Nat) (l : Location) : climb (m + n) l = climb m (climb n l) :=
  Function.iterate_add_apply _ m n l

theorem foldl_walk_replicate (count : Nat) (l : Location) :
    (List.replicate count Component.up).foldl walk l = climb count l := by
  induction count generalizing l with
  | zero => rfl
  | succ count ih =>
    rw [List.replicate_succ, List.foldl_cons, ih, climb_succ]

/-- Steps to names below, last name first. -/
def descend (names : List String) (l : Location) : Location := { l with names := names ++ l.names }

/-- Going back over names and steps up comes to the start only for the names; every step up counts
twice, as itself and as the step that was to take it back. -/
theorem climb_walk {steps : List Component} (hroot : .root ∉ steps) (hhere : .here ∉ steps)
    (l : Location) :
    climb steps.length (steps.foldl walk l) = climb (2 * steps.count .up) l := by
  induction steps using List.reverseRecOn with
  | nil => rfl
  | append_singleton steps last ih =>
    have ih := ih (fun h => hroot (List.mem_append_left _ h)) fun h =>
      hhere (List.mem_append_left _ h)
    rw [List.length_append, List.length_singleton, List.foldl_append, List.foldl_cons,
      List.foldl_nil, climb_succ, List.count_append]
    cases last with
    | root => simp at hroot
    | here => simp at hhere
    | name s =>
      have hback : ((steps.foldl walk l).walk (.name s)).walk .up = steps.foldl walk l := rfl
      rw [hback, ih]
      simp
    | up =>
      calc climb steps.length (((steps.foldl walk l).walk .up).walk .up)
          = climb (steps.length + 2) (steps.foldl walk l) := by rw [climb_succ, climb_succ]
        _ = climb 2 (climb steps.length (steps.foldl walk l)) := by rw [Nat.add_comm, climb_add]
        _ = climb (2 * (steps.count .up + [Component.up].count .up)) l := by
          rw [ih, ← climb_add]
          congr 1
          simp
          omega

/-- Steps lead some way up and then down to names. -/
theorem exists_climb_descend {steps : List Component} (hroot : .root ∉ steps) :
    ∃ rise names, ∀ l, steps.foldl walk l = descend names (climb rise l) := by
  induction steps using List.reverseRecOn with
  | nil => exact ⟨0, [], fun l => rfl⟩
  | append_singleton steps last ih =>
    obtain ⟨rise, names, heffect⟩ := ih fun h => hroot (List.mem_append_left _ h)
    simp only [List.foldl_append, List.foldl_cons, List.foldl_nil, heffect]
    cases last with
    | root => simp at hroot
    | here => exact ⟨rise, names, fun l => rfl⟩
    | name s => exact ⟨rise, s :: names, fun l => rfl⟩
    | up =>
      cases names with
      | nil => exact ⟨rise + 1, [], fun l => by rw [Nat.add_comm, climb_add]; rfl⟩
      | cons s names => exact ⟨rise, names, fun l => rfl⟩

theorem descend_inj {names : List String} {l l' : Location} :
    descend names l = descend names l' ↔ l = l' := by
  constructor
  · intro heq
    obtain ⟨absolute, ups, rest⟩ := l
    obtain ⟨absolute', ups', rest'⟩ := l'
    simp only [descend, mk.injEq, List.append_cancel_left_eq] at heq
    rw [heq.1, heq.2.1, heq.2.2]
  · rintro rfl
    rfl

/-! ## Steps up below a start, and below the root -/

/-- Below a start no step up is without effect: it takes a name away or leads above the start. -/
theorem climb_relative {l : Location} (h : l.absolute = false) (count : Nat) :
    (climb count l).absolute = false ∧
      (climb count l).ups + l.names.length = l.ups + (climb count l).names.length + count := by
  induction count generalizing l with
  | zero => exact ⟨h, rfl⟩
  | succ count ih =>
    obtain ⟨absolute, ups, names⟩ := l
    obtain rfl : absolute = false := h
    rw [climb_succ]
    cases names with
    | nil =>
      obtain ⟨habsolute, hheight⟩ := @ih ⟨false, ups + 1, []⟩ rfl
      simp only [walk, Bool.false_eq_true, if_false] at habsolute hheight ⊢
      exact ⟨habsolute, by omega⟩
    | cons s names =>
      obtain ⟨habsolute, hheight⟩ := @ih ⟨false, ups, names⟩ rfl
      simp only [walk, List.length_cons] at habsolute hheight ⊢
      exact ⟨habsolute, by omega⟩

theorem climb_absolute (names : List String) (count : Nat) :
    climb count ⟨true, 0, names⟩ = ⟨true, 0, names.drop count⟩ := by
  induction count generalizing names with
  | zero => rfl
  | succ count ih =>
    rw [climb_succ]
    cases names with
    | nil => exact (ih []).trans (by rw [List.drop_nil, List.drop_nil])
    | cons s names => exact ih names

/-- From a start, steps up before others lead elsewhere. -/
theorem walk_climb_relative {l : Location} (h : l.absolute = false) {steps : List Component}
    (hroot : .root ∉ steps) (count : Nat) :
    steps.foldl walk (climb count l) = steps.foldl walk l ↔ count = 0 := by
  obtain ⟨rise, names, heffect⟩ := exists_climb_descend hroot
  rw [heffect, heffect, descend_inj, ← climb_add]
  constructor
  · intro heq
    have hfar := (climb_relative h (rise + count)).2
    have hnear := (climb_relative h rise).2
    rw [heq] at hfar
    omega
  · rintro rfl
    rfl

/-- Below the root, steps up before others lead elsewhere, unless the others start at the root
anyway. -/
theorem walk_climb_absolute {l : Location} (habsolute : l.absolute = true) (hups : l.ups = 0)
    {steps : List Component} (hroot : .root ∉ steps) (count : Nat) :
    steps.foldl walk (climb count l) = steps.foldl walk l ↔
      count = 0 ∨ steps.foldl walk l = steps.foldl walk root := by
  obtain ⟨absolute, ups, names⟩ := l
  obtain rfl : absolute = true := habsolute
  obtain rfl : ups = 0 := hups
  obtain ⟨rise, below, heffect⟩ := exists_climb_descend hroot
  have hstart : climb rise root = ⟨true, 0, []⟩ := by
    rw [root, climb_absolute, List.drop_nil]
  rw [heffect, heffect, heffect, descend_inj, descend_inj, ← climb_add, hstart, climb_absolute,
    climb_absolute, mk.injEq, mk.injEq]
  simp only [true_and]
  constructor
  · intro heq
    by_cases hcount : count = 0
    · exact Or.inl hcount
    · have hlength := congrArg List.length heq
      rw [List.length_drop, List.length_drop] at hlength
      exact Or.inr (List.drop_eq_nil_of_le (by omega))
  · rintro (rfl | hnil)
    · rfl
    · rw [hnil]
      rw [List.drop_eq_nil_iff] at hnil ⊢
      omega

end Location

/-! ## The parts of an import -/

/-- What two ways have in common, and where each of them goes from there. -/
structure Fork where
  shared : List Component
  aside : List Component
  ahead : List Component

namespace Path

/-- The steps that a path spells out. -/
def steps (p : Path) : List Component := p.components.filter (· ≠ .here)

/-- Where the way to a target, without its extension, leaves the way to a directory. -/
def fork (directory target : Path) : Fork :=
  let source := directory.steps
  let goal := target.withoutExtension.steps
  let count := sharedCount source goal
  ⟨source.take count, source.drop count, goal.drop count⟩

end Path

/-- The target is below the directory, and the first name on the way to it starts with two dots. -/
def Fork.StartsDotted (f : Fork) : Prop :=
  f.aside = [] ∧ ∃ s, f.ahead.head? = some (.name s) ∧ s.startsWith ".." = true

instance (f : Fork) : Decidable f.StartsDotted :=
  decidable_of_iff (f.aside = [] ∧ ∃ s ∈ f.ahead.head?.bind fun
      | .name s => some s
      | _ => none, s.startsWith ".." = true) (by
    refine and_congr_right fun _ => exists_congr fun s => and_congr_left fun _ => ?_
    cases hhead : f.ahead.head? with
    | none => simp
    | some c => cases c <;> simp [eq_comm])

/-- The steps of an import: back from the directory, and ahead. -/
def Fork.way (f : Fork) : List Component := List.replicate f.aside.length .up ++ f.ahead

theorem take_sharedCount (as bs : List Component) :
    as.take (sharedCount as bs) = bs.take (sharedCount as bs) := by
  induction as generalizing bs with
  | nil => cases bs <;> simp [sharedCount]
  | cons a as ih =>
    cases bs with
    | nil => simp [sharedCount]
    | cons b bs =>
      rw [sharedCount]
      split
      · rename_i heq
        rw [List.take_succ_cons, List.take_succ_cons, ih, heq]
      · rfl

namespace Path

variable {directory target : Path}

theorem shared_append_aside (directory target : Path) :
    (fork directory target).shared ++ (fork directory target).aside = directory.steps :=
  List.take_append_drop _ _

theorem shared_append_ahead (directory target : Path) :
    (fork directory target).shared ++ (fork directory target).ahead =
      target.withoutExtension.steps := by
  show directory.steps.take _ ++ _ = _
  rw [take_sharedCount]
  exact List.take_append_drop _ _

theorem location_eq_steps (p : Path) : p.location = p.steps.foldl Location.walk .start := by
  rw [location, Location.ofComponents, steps, List.foldl_filter]
  congr 1
  funext l c
  cases c <;> rfl

theorem here_not_mem_steps (p : Path) : .here ∉ p.steps := by
  simp [steps]

theorem ofSegment_ne_root (segment : String) : ofSegment segment ≠ .root := by
  unfold ofSegment
  split <;> simp

theorem root_not_mem_ofSegments (segments : List String) : .root ∉ ofSegments segments := by
  induction segments with
  | nil => simp [ofSegments]
  | cons s rest ih =>
    rw [ofSegments]
    split
    · exact ih
    · simpa [ih] using (ofSegment_ne_root s).symm

theorem isAbsolute_of_root_mem {p : Path} (h : .root ∈ p.components) : p.isAbsolute = true := by
  by_contra habsolute
  obtain ⟨first, more, hsegments⟩ := List.exists_cons_of_ne_nil (segments_ne_nil p.text)
  have hname := (ofSegment_ne_root first).symm
  have hrest := root_not_mem_ofSegments more
  rw [components, hsegments] at h
  cases more with
  | nil =>
    simp only at h
    split at h
    · cases h
    · split at h
      · simp at h
      · exact hname (List.mem_singleton.mp h)
  | cons second more =>
    simp only at h
    rw [if_neg (first_ne_of_not_isAbsolute (by simpa using habsolute) hsegments)] at h
    split at h
    · simp [hrest] at h
    · simp [hrest, hname] at h

/-- The root stands at the start of an absolute path, and nowhere else. -/
theorem exists_steps (p : Path) : ∃ rest, .root ∉ rest ∧
    p.steps = if p.isAbsolute then .root :: rest else rest := by
  cases habsolute : p.isAbsolute with
  | true =>
    obtain ⟨segs, -, hcomponents⟩ := components_of_isAbsolute habsolute
    refine ⟨(ofSegments segs).filter (· ≠ .here), fun h => ?_, ?_⟩
    · exact root_not_mem_ofSegments segs (List.mem_of_mem_filter h)
    · rw [steps, hcomponents]
      rfl
  | false =>
    refine ⟨p.steps, fun h => ?_, rfl⟩
    rw [isAbsolute_of_root_mem (List.mem_of_mem_filter h)] at habsolute
    cases habsolute

/-- Two absolute paths share the root, and two relative ones have none. -/
theorem exists_fork (h : directory.isAbsolute = target.isAbsolute) :
    ∃ rest, .root ∉ rest ∧
      (fork directory target).shared = (if target.isAbsolute then .root :: rest else rest) ∧
      .root ∉ (fork directory target).aside ∧ .root ∉ (fork directory target).ahead := by
  obtain ⟨source, hsource, hsteps⟩ := exists_steps directory
  obtain ⟨goal, hgoal, hsteps'⟩ := exists_steps target.withoutExtension
  rw [h] at hsteps
  rw [isAbsolute_withoutExtension] at hsteps'
  have haside : ∀ count, .root ∉ source.drop count := fun count hmem =>
    hsource (List.mem_of_mem_drop hmem)
  have hahead : ∀ count, .root ∉ goal.drop count := fun count hmem =>
    hgoal (List.mem_of_mem_drop hmem)
  refine ⟨source.take (sharedCount source goal),
    fun hmem => hsource (List.mem_of_mem_take hmem), ?_⟩
  simp only [fork, hsteps, hsteps']
  cases target.isAbsolute with
  | true => exact ⟨rfl, haside _, hahead _⟩
  | false => exact ⟨rfl, haside _, hahead _⟩

theorem root_not_mem_fork (h : directory.isAbsolute = target.isAbsolute) :
    .root ∉ (fork directory target).aside ∧ .root ∉ (fork directory target).ahead := by
  obtain ⟨rest, -, -, hfork⟩ := exists_fork h
  exact hfork

theorem here_not_mem_fork (directory target : Path) :
    .here ∉ (fork directory target).aside ∧ .here ∉ (fork directory target).ahead :=
  ⟨fun h => here_not_mem_steps directory (List.mem_of_mem_drop h),
    fun h => here_not_mem_steps target.withoutExtension (List.mem_of_mem_drop h)⟩

/-! ## What is written -/

/-- A step that an import can be written with. -/
inductive Spelled : Component → Prop where
  | up : Spelled .up
  | name {s : String} (hstep : IsStep s) (hslash : '/' ∉ s.toList) (hplain : '\\' ∉ s.toList) :
    Spelled (.name s)

theorem spelled_way (h : directory.isAbsolute = target.isAbsolute)
    (hplain : ∀ c ∈ (fork directory target).ahead, '\\' ∉ c.text.toList) :
    ∀ c ∈ (fork directory target).way, Spelled c := by
  intro c hc
  rcases List.mem_append.mp hc with hc | hc
  · rw [List.eq_of_mem_replicate hc]
    exact .up
  · cases c with
    | root => exact absurd hc (root_not_mem_fork h).2
    | here => exact absurd hc (here_not_mem_fork directory target).2
    | up => exact .up
    | name s =>
      have hmem : .name s ∈ target.withoutExtension.components :=
        List.mem_of_mem_filter (List.mem_of_mem_drop hc)
      obtain ⟨hsegment, hstep⟩ := name_of_mem_components hmem
      exact .name hstep (not_mem_of_mem_segments hsegment) (hplain _ hc)

theorem Spelled.not_slash {c : Component} (h : Spelled c) : '/' ∉ c.text.toList := by
  cases h with
  | up => decide
  | name _ hslash _ => exact hslash

theorem Spelled.not_backslash {c : Component} (h : Spelled c) : '\\' ∉ c.text.toList := by
  cases h with
  | up => decide
  | name _ _ hplain => exact hplain

theorem Spelled.enter {c : Component} (h : Spelled c) (l : Location) :
    l.enter c.text = l.walk c := by
  cases h with
  | up => rfl
  | name hstep _ _ =>
    rw [Location.enter, Component.text, hstep.notIdle, ofSegment, if_neg hstep.notUp]
    rfl

/-- The steps of an import with slashes between them. -/
def written (way : List Component) : String := "/".intercalate (way.map Component.text)

theorem foldl_append {way : List Component} (hroot : .root ∉ way) (steps : List Component) :
    way.foldl append steps = steps ++ way := by
  induction way generalizing steps with
  | nil => simp
  | cons c rest ih =>
    have hc : append steps c = steps ++ [c] := by
      cases c with
      | root => simp at hroot
      | _ => rfl
    rw [List.foldl_cons, hc, ih fun h => hroot (List.mem_cons_of_mem _ h)]
    simp

theorem text_ofComponents {way : List Component} (hroot : .root ∉ way) :
    (ofComponents way).text = written way := by
  unfold ofComponents
  split
  · rfl
  · simp at hroot
  · rfl

theorem text_eq_written {way : List Component} (h : ∀ c ∈ way, Spelled c) :
    String.ofList ((ofComponents way).text.toList.map fun c => if c = '\\' then '/' else c) =
      written way := by
  have hbackslash : ∀ c ∈ (written way).toList, c ≠ '\\' := by
    rintro c hmem rfl
    rw [written, String.toList_intercalate, ← Text.joinWith_eq_intercalate] at hmem
    rcases Text.mem_joinWith hmem with hmem | ⟨part, hpart, hmem⟩
    · simp at hmem
    · simp only [List.map_map, List.mem_map, Function.comp_apply] at hpart
      obtain ⟨c, hc, rfl⟩ := hpart
      exact (h c hc).not_backslash hmem
  rw [text_ofComponents fun hmem => nomatch h _ hmem]
  have hkept : (written way).toList.map (fun c => if c = '\\' then '/' else c) =
      (written way).toList :=
    (List.map_congr_left fun c hc => if_neg (hbackslash c hc)).trans (List.map_id' _)
  rw [hkept, String.ofList_toList]

theorem relativeImport_eq (h : directory.isAbsolute = target.isAbsolute)
    (hplain : ∀ c ∈ (fork directory target).ahead, '\\' ∉ c.text.toList) :
    relativeImport directory target =
      if (written (fork directory target).way).startsWith ".." then
        written (fork directory target).way
      else "./" ++ written (fork directory target).way := by
  have hsteps : (fork directory target).ahead.foldl append
      (List.replicate (directory.steps.length - sharedCount directory.steps
        target.withoutExtension.steps) .up) = (fork directory target).way := by
    rw [foldl_append (root_not_mem_fork h).2, Fork.way]
    simp only [fork, List.length_drop]
  have htext := text_eq_written (spelled_way h hplain)
  rw [← hsteps] at htext ⊢
  exact congrArg (fun text => if text.startsWith ".." then text else "./" ++ text) htext

/-! ## What is read -/

theorem foldl_enter_texts {way : List Component} (h : ∀ c ∈ way, Spelled c) (l : Location) :
    (way.map Component.text).foldl Location.enter l = way.foldl Location.walk l := by
  induction way generalizing l with
  | nil => rfl
  | cons c rest ih =>
    rw [List.map_cons, List.foldl_cons, List.foldl_cons, (h c List.mem_cons_self).enter]
    exact ih (fun d hd => h d (List.mem_cons_of_mem _ hd)) _

theorem foldl_enter_written {way : List Component} (h : ∀ c ∈ way, Spelled c) (l : Location) :
    (segments (written way)).foldl Location.enter l = way.foldl Location.walk l := by
  cases way with
  | nil => rfl
  | cons c rest =>
    rw [written, segments_intercalate (by simp), foldl_enter_texts h]
    intro text htext
    obtain ⟨d, hd, rfl⟩ := List.mem_map.mp htext
    exact (h d hd).not_slash

/-- An import is walked along as its steps. -/
theorem foldl_enter_relativeImport (h : directory.isAbsolute = target.isAbsolute)
    (hplain : ∀ c ∈ (fork directory target).ahead, '\\' ∉ c.text.toList) (l : Location) :
    (segments (relativeImport directory target)).foldl Location.enter l =
      (fork directory target).way.foldl Location.walk l := by
  have hwritten := foldl_enter_written (spelled_way h hplain) l
  rw [relativeImport_eq h hplain]
  split
  · exact hwritten
  · have hdot : segments ("./" ++ written (fork directory target).way) =
        segments "." ++ segments (written (fork directory target).way) := by
      rw [← segments_append_slash]
      rfl
    rw [hdot, List.foldl_append]
    exact hwritten

theorem relativeImport_not_absolute (h : directory.isAbsolute = target.isAbsolute)
    (hplain : ∀ c ∈ (fork directory target).ahead, '\\' ∉ c.text.toList) :
    (⟨relativeImport directory target⟩ : Path).isAbsolute = false := by
  have hhead : ∀ {text : String} {rest : List Char}, text.toList = '.' :: rest →
      (⟨text⟩ : Path).isAbsolute = false := by
    intro text rest htext
    rw [isAbsolute, htext]
    rfl
  rw [relativeImport_eq h hplain]
  split
  · rename_i hdots
    obtain ⟨rest, hrest⟩ := String.startsWith_string_iff.mp hdots
    exact hhead hrest.symm
  · exact @hhead _ ('/' :: (written (fork directory target).way).toList) (by simp)

/-! ## Whether an import is relative -/

/-- Behind the first step comes a slash, if anything. -/
theorem toList_written_cons (c : Component) (rest : List Component) :
    ∃ tail : List Char, (written (c :: rest)).toList = c.text.toList ++ tail ∧
      (tail = [] ∨ ∃ more, tail = '/' :: more) := by
  cases rest with
  | nil => exact ⟨[], by simp [written], Or.inl rfl⟩
  | cons d rest =>
    refine ⟨'/' :: (written (d :: rest)).toList, ?_, Or.inr ⟨_, rfl⟩⟩
    rw [written, List.map_cons, List.map_cons, String.intercalate_cons_cons]
    simp [written]

theorem isRelative_of_startsWith {text : String} (h : text.startsWith "./" = true ∨
    text.startsWith "../" = true ∨ text = "..") : isRelative text = true := by
  rcases h with h | h | h <;> simp [isRelative, h]

theorem isRelative_written_up (rest : List Component) :
    (written (.up :: rest)).startsWith ".." = true ∧ isRelative (written (.up :: rest)) = true := by
  obtain ⟨tail, htext, htail⟩ := toList_written_cons .up rest
  refine ⟨String.startsWith_string_iff.mpr ⟨tail, htext.symm⟩, isRelative_of_startsWith ?_⟩
  rcases htail with rfl | ⟨more, rfl⟩
  · exact Or.inr (Or.inr (String.toList_inj.mp (htext.trans (List.append_nil _))))
  · exact Or.inr (Or.inl (String.startsWith_string_iff.mpr ⟨more, by rw [htext]; rfl⟩))

/-- Whether an import starts with two dots shows in its first name. -/
theorem startsWith_written_name (s : String) (rest : List Component) :
    (written (.name s :: rest)).startsWith ".." = true ↔ s.startsWith ".." = true := by
  obtain ⟨tail, htext, htail⟩ := toList_written_cons (.name s) rest
  rw [String.startsWith_string_iff, String.startsWith_string_iff, htext]
  refine ⟨fun hdots => ?_, fun hdots => hdots.trans (List.prefix_append _ _)⟩
  rcases List.prefix_or_prefix_of_prefix hdots (List.prefix_append _ _) with h | ⟨beyond, hbeyond⟩
  · exact h
  -- Dots that go on behind the name would have to go on with a slash.
  · rw [← hbeyond, List.prefix_append_right_inj] at hdots
    rcases htail with rfl | ⟨more, rfl⟩
    · rw [List.prefix_nil.mp hdots, List.append_nil] at hbeyond
      rw [← hbeyond]
      exact List.prefix_rfl
    · cases beyond with
      | nil =>
        rw [List.append_nil] at hbeyond
        rw [← hbeyond]
        exact List.prefix_rfl
      | cons c beyond =>
        obtain ⟨rfl, -⟩ := List.cons_prefix_cons.mp hdots
        have hmem : '/' ∈ "..".toList := by
          rw [← hbeyond]
          simp
        exact absurd hmem (by decide)

/-- A name that starts with two dots and is longer is no way up. -/
theorem not_isRelative_written_name {s : String} (hstep : IsStep s) (hslash : '/' ∉ s.toList)
    (hdots : s.startsWith ".." = true) (rest : List Component) :
    isRelative (written (.name s :: rest)) = false := by
  obtain ⟨tail, htext, -⟩ := toList_written_cons (.name s) rest
  obtain ⟨beyond, hbeyond⟩ := String.startsWith_string_iff.mp hdots
  cases beyond with
  | nil =>
    rw [List.append_nil] at hbeyond
    exact absurd (String.toList_inj.mp hbeyond).symm hstep.notUp
  | cons c beyond =>
    have hc : c ≠ '/' := by
      rintro rfl
      exact hslash (by rw [← hbeyond]; simp)
    have hlist : (written (.name s :: rest)).toList = '.' :: '.' :: c :: (beyond ++ tail) := by
      rw [htext, Component.text, ← hbeyond]
      simp
    have hshort : written (.name s :: rest) ≠ "." ∧ written (.name s :: rest) ≠ ".." := by
      constructor
      · intro heq
        rw [heq] at hlist
        simp at hlist
      · intro heq
        rw [heq] at hlist
        simp at hlist
    rw [isRelative, Bool.or_eq_false_iff, Bool.or_eq_false_iff, Bool.or_eq_false_iff,
      beq_eq_false_iff_ne, beq_eq_false_iff_ne, ← Bool.not_eq_true, ← Bool.not_eq_true,
      String.startsWith_string_iff, String.startsWith_string_iff, hlist]
    refine ⟨⟨⟨by simp, ?_⟩, hshort.1⟩, hshort.2⟩
    simpa using hc.symm

theorem isRelative_relativeImport_iff (h : directory.isAbsolute = target.isAbsolute)
    (hplain : ∀ c ∈ (fork directory target).ahead, '\\' ∉ c.text.toList) :
    isRelative (relativeImport directory target) = true ↔
      ¬ (fork directory target).StartsDotted := by
  have hspelled := spelled_way h hplain
  rw [relativeImport_eq h hplain]
  generalize fork directory target = f at hspelled
  obtain ⟨shared, aside, ahead⟩ := f
  have hbelow : ∀ {text : String}, isRelative ("./" ++ text) = true := fun {text} =>
    isRelative_of_startsWith (Or.inl (String.startsWith_string_iff.mpr ⟨text.toList, by simp⟩))
  cases aside with
  | cons c aside =>
    have hway : (Fork.mk shared (c :: aside) ahead).way =
        .up :: (List.replicate aside.length .up ++ ahead) := rfl
    obtain ⟨hdots, hrelative⟩ := isRelative_written_up (List.replicate aside.length .up ++ ahead)
    rw [hway, if_pos hdots]
    exact iff_of_true hrelative fun hdotted => nomatch hdotted.1
  | nil =>
    have hway : (Fork.mk shared [] ahead).way = ahead := rfl
    rw [hway] at hspelled ⊢
    match ahead, hspelled with
    | [], _ =>
      refine iff_of_true hbelow fun hdotted => ?_
      obtain ⟨s, hs, -⟩ := hdotted.2
      cases hs
    | .up :: rest, _ =>
      obtain ⟨hdots, hrelative⟩ := isRelative_written_up rest
      rw [if_pos hdots]
      refine iff_of_true hrelative fun hdotted => ?_
      obtain ⟨s, hs, -⟩ := hdotted.2
      cases hs
    | .name s :: rest, hspelled =>
      obtain _ | ⟨hstep, hslash, -⟩ := hspelled _ List.mem_cons_self
      have hdotted : (Fork.mk shared [] (.name s :: rest)).StartsDotted ↔
          s.startsWith ".." = true := by
        simp [Fork.StartsDotted]
      rw [hdotted]
      by_cases hdots : s.startsWith ".." = true
      · rw [if_pos ((startsWith_written_name s rest).mpr hdots),
          not_isRelative_written_name hstep hslash hdots]
        simp [hdots]
      · rw [if_neg (mt (startsWith_written_name s rest).mp hdots)]
        exact iff_of_true hbelow hdots
    | .root :: rest, hspelled => exact nomatch hspelled _ List.mem_cons_self
    | .here :: rest, hspelled => exact nomatch hspelled _ List.mem_cons_self

/-! ## Where an import leads -/

/-- An import leads on from where the two ways part, after two steps up for every step up that is
left to the directory. -/
theorem location_join_relativeImport (h : directory.isAbsolute = target.isAbsolute)
    (hplain : ∀ c ∈ (fork directory target).ahead, '\\' ∉ c.text.toList) :
    (directory.join (relativeImport directory target)).location =
      (fork directory target).ahead.foldl Location.walk
        (Location.climb (2 * (fork directory target).aside.count .up)
          ((fork directory target).shared.foldl Location.walk .start)) := by
  rw [location_join directory (relativeImport_not_absolute h hplain),
    foldl_enter_relativeImport h hplain, Fork.way, List.foldl_append,
    Location.foldl_walk_replicate, location_eq_steps directory,
    ← shared_append_aside directory target, List.foldl_append,
    Location.climb_walk (root_not_mem_fork h).1 (here_not_mem_fork directory target).1]

theorem location_withoutExtension (directory target : Path) :
    target.withoutExtension.location = (fork directory target).ahead.foldl Location.walk
      ((fork directory target).shared.foldl Location.walk .start) := by
  rw [location_eq_steps, ← shared_append_ahead directory target, List.foldl_append]

/-- The shared steps start at the root, or lead on from the start. -/
theorem foldl_walk_shared (h : directory.isAbsolute = target.isAbsolute) :
    (target.isAbsolute = false →
      ((fork directory target).shared.foldl Location.walk .start).absolute = false) ∧
    (target.isAbsolute = true →
      ((fork directory target).shared.foldl Location.walk .start).absolute = true ∧
      ((fork directory target).shared.foldl Location.walk .start).ups = 0) := by
  obtain ⟨rest, hroot, hshared, -, -⟩ := exists_fork h
  obtain ⟨rise, names, heffect⟩ := Location.exists_climb_descend hroot
  rw [hshared]
  constructor
  · intro hkind
    rw [hkind, if_neg (by decide), heffect]
    exact (Location.climb_relative rfl rise).1
  · intro hkind
    rw [hkind, if_pos rfl, List.foldl_cons]
    have hbelow : (Location.start.walk .root) = ⟨true, 0, []⟩ := rfl
    rw [hbelow, heffect, Location.climb_absolute]
    exact ⟨rfl, rfl⟩

/-- The import that is written for a target is relative, unless the first name on the way to a target
below starts with two dots; and it leads to the target exactly when the directory has no step up left
behind what the two paths share, or the way to the target leads up to the root anyway. -/
theorem relativeImport_reaches_iff (directory target : Path)
    (hkind : directory.isAbsolute = target.isAbsolute)
    (hplain : ∀ c ∈ (fork directory target).ahead, '\\' ∉ c.text.toList) :
    (isRelative (relativeImport directory target) = true ↔
      ¬ (fork directory target).StartsDotted) ∧
    ((directory.join (relativeImport directory target)).location =
        target.withoutExtension.location ↔
      .up ∉ (fork directory target).aside ∨ target.isAbsolute = true ∧
        target.withoutExtension.location =
          (fork directory target).ahead.foldl Location.walk .root) := by
  refine ⟨isRelative_relativeImport_iff hkind hplain, ?_⟩
  have hahead := (root_not_mem_fork hkind).2
  rw [location_join_relativeImport hkind hplain, location_withoutExtension directory target]
  have hcount : 2 * (fork directory target).aside.count .up = 0 ↔
      .up ∉ (fork directory target).aside := by
    rw [← List.count_eq_zero]
    omega
  obtain ⟨hrelative, habsolute⟩ := foldl_walk_shared hkind
  cases hkind' : target.isAbsolute with
  | true =>
    rw [Location.walk_climb_absolute (habsolute hkind').1 (habsolute hkind').2 hahead, hcount]
    simp
  | false =>
    rw [Location.walk_climb_relative (hrelative hkind') hahead, hcount]
    simp

/-- A target beside a directory, where both paths are written with the same step up. -/
theorem relativeImport_reaches_beside :
    ((⟨"lib/../src/./out"⟩ : Path).isAbsolute = (⟨"./lib/../src/schema/user.ts"⟩ : Path).isAbsolute ∧
      ∀ c ∈ (fork ⟨"lib/../src/./out"⟩ ⟨"./lib/../src/schema/user.ts"⟩).ahead,
        '\\' ∉ c.text.toList) ∧
    isRelative (relativeImport ⟨"lib/../src/./out"⟩ ⟨"./lib/../src/schema/user.ts"⟩) = true ∧
    ((⟨"lib/../src/./out"⟩ : Path).join
        (relativeImport ⟨"lib/../src/./out"⟩ ⟨"./lib/../src/schema/user.ts"⟩)).location =
      (⟨"./lib/../src/schema/user.ts"⟩ : Path).withoutExtension.location := by
  have hkind : (⟨"lib/../src/./out"⟩ : Path).isAbsolute =
    (⟨"./lib/../src/schema/user.ts"⟩ : Path).isAbsolute := by decide
  have hplain : ∀ c ∈ (fork ⟨"lib/../src/./out"⟩ ⟨"./lib/../src/schema/user.ts"⟩).ahead,
    '\\' ∉ c.text.toList := by decide
  obtain ⟨hrelative, hreaches⟩ := relativeImport_reaches_iff _ _ hkind hplain
  exact ⟨⟨hkind, hplain⟩, hrelative.mpr (by decide), hreaches.mpr (Or.inl (by decide))⟩

/-- A step up that a directory is written with is not taken back, and a name that starts with two
dots is not marked as relative. -/
theorem relativeImport_misses :
    (relativeImport ⟨"out/../gen"⟩ ⟨"out/a.ts"⟩ = "../../a" ∧
      ((⟨"out/../gen"⟩ : Path).join "../../a").location ≠
        (⟨"out/a.ts"⟩ : Path).withoutExtension.location) ∧
    (relativeImport ⟨"src"⟩ ⟨"src/..foo.ts"⟩ = "..foo" ∧ isRelative "..foo" = false) :=
  ⟨⟨by decide +kernel, by decide +kernel⟩, by decide +kernel, by decide +kernel⟩

end Path

end SchemaCompiler

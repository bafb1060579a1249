import Mathlib
import SchemaCompiler.Path.Specifier
import SchemaCompiler.Proofs.Path.Order
import SchemaCompiler.Proofs.Text.Parts

/-!
# Paths in normal form

Normalization writes every path in one way: an optional root, then steps of which only the first may
lead up, and none says nothing. So normal paths that are the same have the same text. What a specifier
is resolved to differs from a normal path in the last step only, and is normal again.
-/

namespace SchemaCompiler

namespace Text

/-- What is appended without a mark belongs to the last part. -/
theorem exists_splitOn_append (mark : Char) (cs : List Char) :
    ∃ init last, ∀ w, mark ∉ w → (cs ++ w).splitOn mark = init ++ [last ++ w] := by
  induction cs with
  | nil => exact ⟨[], [], fun w hw => by simpa using List.splitOn_eq_singleton hw⟩
  | cons c cs ih =>
    obtain ⟨init, last, happend⟩ := ih
    by_cases hc : c = mark
    · refine ⟨[] :: init, last, fun w hw => ?_⟩
      rw [List.cons_append, List.splitOn_cons_eq_if_modifyHead, happend w hw, hc]
      simp
    · cases init with
      | nil =>
        refine ⟨[], c :: last, fun w hw => ?_⟩
        rw [List.cons_append, List.splitOn_cons_eq_if_modifyHead, happend w hw]
        simp [hc]
      | cons first more =>
        refine ⟨(c :: first) :: more, last, fun w hw => ?_⟩
        rw [List.cons_append, List.splitOn_cons_eq_if_modifyHead, happend w hw]
        simp [hc]

end Text

namespace Path

/-! ## Segments -/

theorem segments_eq (text : String) :
    segments text = (text.toList.splitOn '/').map String.ofList := by
  rw [segments, Text.splitAt_eq_splitOn]

theorem segments_ne_nil (text : String) : segments text ≠ [] := by
  rw [segments_eq]
  simp

theorem intercalate_segments (text : String) : "/".intercalate (segments text) = text := by
  apply String.toList_inj.mp
  rw [String.toList_intercalate, segments_eq, List.map_map]
  have hid : String.toList ∘ String.ofList = id := by
    funext cs
    exact String.toList_ofList
  rw [hid, List.map_id]
  exact List.intercalate_splitOn _

theorem not_mem_of_mem_segments {text segment : String} (h : segment ∈ segments text) :
    '/' ∉ segment.toList := by
  rw [segments_eq] at h
  obtain ⟨part, hpart, rfl⟩ := List.mem_map.mp h
  rw [String.toList_ofList]
  exact Text.not_mem_of_mem_splitOn hpart

theorem segments_intercalate {texts : List String} (hne : texts ≠ [])
    (h : ∀ s ∈ texts, '/' ∉ s.toList) : segments ("/".intercalate texts) = texts := by
  rw [segments_eq, String.toList_intercalate, show "/".toList = ['/'] from rfl,
    List.splitOn_intercalate _ (by simpa using h) (by simpa using hne)]
  simp [Function.comp_def]

/-- What is appended without a slash belongs to the last segment. -/
theorem exists_segments_append (text : String) :
    ∃ init last, ∀ w : String, '/' ∉ w.toList → segments (text ++ w) = init ++ [last ++ w] := by
  obtain ⟨init, last, happend⟩ := Text.exists_splitOn_append '/' text.toList
  refine ⟨init.map String.ofList, String.ofList last, fun w hw => ?_⟩
  rw [segments_eq, String.toList_append, happend _ hw]
  simp

theorem segments_append_slash (text more : String) :
    segments (text ++ "/" ++ more) = segments text ++ segments more := by
  rw [segments_eq, segments_eq, segments_eq, ← List.map_append, ← List.splitOn_append_cons_self]
  simp

/-! ## Normal paths -/

/-- A segment that stands for a step down. -/
structure IsStep (segment : String) : Prop where
  notIdle : isIdle segment = false
  notUp : segment ≠ ".."

/-- Segments that each stand for a step, the first one perhaps up. -/
def Tidy : List String → Prop
  | [] => True
  | first :: more => isIdle first = false ∧ ∀ s ∈ more, IsStep s

/-- The segments of a path that is written as normalization writes it. -/
inductive NormalSegments : List String → Prop where
  | empty : NormalSegments [""]
  | root : NormalSegments ["", ""]
  | relative {first : String} {more : List String} (h : Tidy (first :: more)) :
    NormalSegments (first :: more)
  | absolute {first : String} {more : List String} (h : Tidy (first :: more)) :
    NormalSegments ("" :: first :: more)

def Normal (p : Path) : Prop := NormalSegments (segments p.text)

theorem IsStep.tidy {segment : String} (h : IsStep segment) : Tidy [segment] :=
  ⟨h.notIdle, fun _ hs => by cases hs⟩

theorem Tidy.snoc {segments : List String} {w : String} (h : Tidy segments) (hw : IsStep w) :
    Tidy (segments ++ [w]) := by
  cases segments with
  | nil => exact hw.tidy
  | cons first more =>
    refine ⟨h.1, fun s hs => ?_⟩
    rcases List.mem_append.mp hs with hs | hs
    · exact h.2 s hs
    · rw [List.mem_singleton.mp hs]
      exact hw

theorem Tidy.of_snoc {segments : List String} {w : String} (h : Tidy (segments ++ [w])) :
    Tidy segments := by
  cases segments with
  | nil => trivial
  | cons first more => exact ⟨h.1, fun s hs => h.2 s (List.mem_append_left _ hs)⟩

theorem Tidy.not_idle {segments : List String} (h : Tidy segments) {s : String}
    (hs : s ∈ segments) : isIdle s = false := by
  cases segments with
  | nil => cases hs
  | cons first more =>
    rcases List.mem_cons.mp hs with rfl | hs
    · exact h.1
    · exact (h.2 s hs).notIdle

/-- Another last step keeps segments normal. -/
theorem NormalSegments.replace_last {init : List String} {last w : String}
    (h : NormalSegments (init ++ [last])) (hw : IsStep w) : NormalSegments (init ++ [w]) := by
  have hkeep : ∀ {segments : List String}, segments = init ++ [last] → NormalSegments segments →
      NormalSegments (init ++ [w]) := by
    intro segments heq hsegments
    cases hsegments with
    | empty =>
      obtain rfl : init = [] := by simpa using congrArg List.dropLast heq.symm
      exact .relative hw.tidy
    | root =>
      obtain rfl : init = [""] := by simpa using congrArg List.dropLast heq.symm
      exact .absolute hw.tidy
    | @relative first more htidy =>
      cases init with
      | nil => exact .relative hw.tidy
      | cons _ init =>
        rw [heq] at htidy
        exact .relative (htidy.of_snoc.snoc hw)
    | @absolute first more htidy =>
      cases init with
      | nil => cases heq
      | cons _ init =>
        obtain ⟨rfl, hrest⟩ := List.cons.inj heq
        rw [hrest] at htidy
        have htidy' := htidy.of_snoc.snoc hw
        cases init with
        | nil => exact .absolute htidy'
        | cons _ init => exact .absolute htidy'
  exact hkeep rfl h

/-- A step below keeps segments normal, where they are more than a start. -/
theorem NormalSegments.snoc {segments : List String} {w : String} (h : NormalSegments segments)
    (hempty : segments ≠ [""]) (hroot : segments ≠ ["", ""]) (hw : IsStep w) :
    NormalSegments (segments ++ [w]) := by
  cases h with
  | empty => exact absurd rfl hempty
  | root => exact absurd rfl hroot
  | relative htidy => exact .relative (htidy.snoc hw)
  | absolute htidy => exact .absolute (htidy.snoc hw)

/-! ## What normalization writes -/

theorem text_ofSegment (segment : String) : (ofSegment segment).text = segment := by
  unfold ofSegment
  split
  · rename_i h
    exact h.symm
  · rfl

theorem ofSegments_of_tidy {segments : List String} (h : Tidy segments) :
    ofSegments segments = segments.map ofSegment := by
  have hall : ∀ {list : List String}, (∀ s ∈ list, isIdle s = false) →
      ofSegments list = list.map ofSegment := by
    intro list hlist
    induction list with
    | nil => rfl
    | cons s rest ih =>
      rw [ofSegments, hlist s List.mem_cons_self, ih fun t ht => hlist t (List.mem_cons_of_mem _ ht)]
      rfl
  exact hall fun s hs => h.not_idle hs

/-- Steps down are added one by one. -/
theorem foldl_step_of_isStep {segments : List String} (h : ∀ s ∈ segments, IsStep s)
    (steps : List Component) :
    (segments.map ofSegment).foldl step steps = (segments.map ofSegment).reverse ++ steps := by
  induction segments generalizing steps with
  | nil => rfl
  | cons s rest ih =>
    have hname : ofSegment s = .name s := if_neg (h s List.mem_cons_self).notUp
    rw [List.map_cons, List.foldl_cons, ih (fun t ht => h t (List.mem_cons_of_mem _ ht)), hname]
    simp [step]

theorem foldl_step_of_tidy {segments : List String} (h : Tidy segments) {lead : List Component}
    (hlead : lead = [] ∨ lead = [.root]) :
    (segments.map ofSegment).foldl step lead = (segments.map ofSegment).reverse ++ lead := by
  cases segments with
  | nil => rfl
  | cons first more =>
    have hfirst : step lead (ofSegment first) = ofSegment first :: lead := by
      unfold ofSegment
      split
      · rcases hlead with rfl | rfl <;> rfl
      · rfl
    rw [List.map_cons, List.foldl_cons, hfirst, foldl_step_of_isStep h.2]
    simp

theorem components_of_relative {p : Path} {first : String} {more : List String}
    (htext : segments p.text = first :: more) (h : Tidy (first :: more)) :
    p.components = (first :: more).map ofSegment := by
  have hidle := h.1
  simp only [isIdle, Bool.or_eq_false_iff, beq_eq_false_iff_ne] at hidle
  have hmore : ofSegments more = more.map ofSegment :=
    (List.cons.inj ((if_neg (by rw [h.1]; decide)).symm.trans (ofSegments_of_tidy h))).2
  unfold components
  rw [htext]
  cases more with
  | nil => simp [hidle]
  | cons second more => simp [hidle, hmore]

theorem components_of_absolute {p : Path} {first : String} {more : List String}
    (htext : segments p.text = "" :: first :: more) (h : Tidy (first :: more)) :
    p.components = .root :: (first :: more).map ofSegment := by
  unfold components
  rw [htext]
  simp [ofSegments_of_tidy h]

/-- Components that are steps are written as their segments with slashes between them. -/
theorem ofComponents_map (first : String) (more : List String) :
    ofComponents ((first :: more).map ofSegment) = ⟨"/".intercalate (first :: more)⟩ := by
  have htexts : ((first :: more).map ofSegment).map Component.text = first :: more := by
    simp [Function.comp_def, text_ofSegment]
  have hfirst : ofSegment first ≠ .root := by
    unfold ofSegment
    split <;> simp
  rw [List.map_cons] at htexts ⊢
  unfold ofComponents
  split
  · rename_i heq
    cases heq
  · rename_i heq
    exact absurd (List.cons.inj heq).1 hfirst
  · rw [htexts]

theorem ofComponents_root (segments : List String) :
    ofComponents (.root :: segments.map ofSegment) = ⟨"/" ++ "/".intercalate segments⟩ := by
  rw [ofComponents, List.map_map]
  simp [Function.comp_def, text_ofSegment]

/-- A normal path is not changed by normalization. -/
theorem Normal.normalize_eq {p : Path} (h : p.Normal) : p.normalize = p := by
  have htext := intercalate_segments p.text
  generalize hsegments : segments p.text = segs at h htext
  have hnormal : NormalSegments segs := by rw [← hsegments]; exact h
  cases hnormal with
  | empty =>
    have hcomponents : p.components = [] := by simp [components, hsegments]
    rw [normalize, hcomponents]
    exact congrArg Path.mk htext
  | root =>
    have hcomponents : p.components = [.root] := by
      simp [components, hsegments, ofSegments, isIdle]
    rw [normalize, hcomponents]
    exact congrArg Path.mk htext
  | @relative first more htidy =>
    rw [normalize, components_of_relative hsegments htidy, normalSteps,
      foldl_step_of_tidy htidy (Or.inl rfl), List.append_nil, List.reverse_reverse,
      ofComponents_map]
    exact congrArg Path.mk htext
  | @absolute first more htidy =>
    rw [normalize, components_of_absolute hsegments htidy, normalSteps, List.foldl_cons,
      show step [] .root = [.root] from rfl, foldl_step_of_tidy htidy (Or.inr rfl),
      List.reverse_append, List.reverse_reverse, List.reverse_singleton, List.singleton_append,
      ofComponents_root]
    exact congrArg Path.mk (by rw [← htext]; simp [String.intercalate_cons_cons])

/-- Normal paths that are the same have the same text. -/
theorem Normal.eq_of_beq {p q : Path} (hp : p.Normal) (hq : q.Normal) (h : (p == q) = true) :
    p = q := by
  rw [← hp.normalize_eq, ← hq.normalize_eq, normalize, normalize, beq_iff.mp h]

/-! ## Names in a path -/

theorem name_of_ofSegment {segment s : String} (hidle : isIdle segment = false)
    (h : .name s = ofSegment segment) : s = segment ∧ IsStep s := by
  unfold ofSegment at h
  split at h
  · cases h
  · rename_i hup
    cases h
    exact ⟨rfl, hidle, hup⟩

theorem name_of_mem_ofSegments {segments : List String} {s : String}
    (h : .name s ∈ ofSegments segments) : s ∈ segments ∧ IsStep s := by
  induction segments with
  | nil => cases h
  | cons first rest ih =>
    rw [ofSegments] at h
    split at h
    · exact (ih h).imp_left (List.mem_cons_of_mem _)
    · rename_i hidle
      rcases List.mem_cons.mp h with heq | h
      · obtain ⟨rfl, hstep⟩ := name_of_ofSegment (by simpa using hidle) heq
        exact ⟨List.mem_cons_self, hstep⟩
      · exact (ih h).imp_left (List.mem_cons_of_mem _)

theorem name_of_mem_components {p : Path} {s : String} (h : .name s ∈ p.components) :
    s ∈ segments p.text ∧ IsStep s := by
  unfold components at h
  split at h
  · cases h
  · rename_i only hlist
    rw [hlist]
    split at h
    · cases h
    · split at h
      · simp at h
      · rename_i hempty hdot
        obtain ⟨rfl, hstep⟩ := name_of_ofSegment (by simp [isIdle, hempty, hdot])
          (List.mem_singleton.mp h)
        exact ⟨List.mem_cons_self, hstep⟩
  · rename_i first more _ hlist
    rw [hlist]
    have hmore : .name s ∈ ofSegments more → s ∈ first :: more ∧ IsStep s := fun h =>
      (name_of_mem_ofSegments h).imp_left (List.mem_cons_of_mem _)
    split at h
    · exact hmore (by simpa using h)
    · split at h
      · exact hmore (by simpa using h)
      · rename_i hempty hdot
        rcases List.mem_cons.mp h with heq | h
        · obtain ⟨rfl, hstep⟩ := name_of_ofSegment (by simp [isIdle, hempty, hdot]) heq
          exact ⟨List.mem_cons_self, hstep⟩
        · exact hmore h

/-! ## Normalized paths are normal -/

/-- Steps, last first, that lead on from the start or the root. -/
def Written (steps : List Component) : Prop :=
  ∃ lead segs, (lead = [] ∨ lead = [.root]) ∧ Tidy segs ∧ (∀ s ∈ segs, '/' ∉ s.toList) ∧
    steps = (segs.map ofSegment).reverse ++ lead

theorem written_nil : Written [] := ⟨[], [], Or.inl rfl, trivial, by simp, rfl⟩

theorem written_root : Written [.root] := ⟨[.root], [], Or.inr rfl, trivial, by simp, rfl⟩

theorem Written.down {steps : List Component} (h : Written steps) {s : String} (hs : IsStep s)
    (hslash : '/' ∉ s.toList) : Written (.name s :: steps) := by
  obtain ⟨lead, segs, hlead, htidy, hslashes, rfl⟩ := h
  refine ⟨lead, segs ++ [s], hlead, htidy.snoc hs, ?_, ?_⟩
  · intro t ht
    rcases List.mem_append.mp ht with ht | ht
    · exact hslashes t ht
    · rw [List.mem_singleton.mp ht]
      exact hslash
  · have hname : ofSegment s = .name s := if_neg hs.notUp
    simp [hname]

theorem step_up {last : Component} (h : last ≠ .root) (earlier : List Component) :
    step (last :: earlier) .up = earlier := by
  cases last with
  | root => exact absurd rfl h
  | _ => rfl

theorem Written.up {steps : List Component} (h : Written steps) : Written (step steps .up) := by
  obtain ⟨lead, segs, hlead, htidy, hslashes, rfl⟩ := h
  have hup : Tidy [".."] := ⟨by decide, fun _ hs => by cases hs⟩
  have hdots : ∀ s ∈ [".."], '/' ∉ s.toList := by decide
  rcases List.eq_nil_or_concat segs with rfl | ⟨init, last, rfl⟩
  · rcases hlead with rfl | rfl
    · exact ⟨[], [".."], Or.inl rfl, hup, hdots, by simp [step, ofSegment]⟩
    · exact ⟨[.root], [".."], Or.inr rfl, hup, hdots, by simp [step, ofSegment]⟩
  · rw [List.concat_eq_append] at htidy hslashes ⊢
    refine ⟨lead, init, hlead, htidy.of_snoc, fun s hs => hslashes s (by simp [hs]), ?_⟩
    have hlast : ofSegment last ≠ .root := by
      unfold ofSegment
      split <;> simp
    rw [List.map_append, List.reverse_append]
    exact step_up hlast _

theorem written_normalSteps (p : Path) : Written (p.components.foldl step []) := by
  have hrun : ∀ {components steps : List Component},
      (∀ s, .name s ∈ components → IsStep s ∧ '/' ∉ s.toList) → Written steps →
        Written (components.foldl step steps) := by
    intro components
    induction components with
    | nil => exact fun _ h => h
    | cons c rest ih =>
      intro steps hnames h
      refine ih (fun s hs => hnames s (List.mem_cons_of_mem _ hs)) ?_
      cases c with
      | root => exact written_root
      | here => exact h
      | up => exact h.up
      | name s =>
        obtain ⟨hs, hslash⟩ := hnames s List.mem_cons_self
        exact h.down hs hslash
  refine hrun (fun s hs => ?_) written_nil
  obtain ⟨hmem, hstep⟩ := name_of_mem_components hs
  exact ⟨hstep, not_mem_of_mem_segments hmem⟩

theorem segments_slash (text : String) : segments ("/" ++ text) = "" :: segments text := by
  have h := segments_append_slash "" text
  rwa [String.empty_append] at h

/-- Normal steps are an optional root and then tidy segments. -/
theorem exists_normalSteps (p : Path) :
    ∃ lead segs, (lead = [] ∨ lead = [.root]) ∧ Tidy segs ∧ (∀ s ∈ segs, '/' ∉ s.toList) ∧
      normalSteps p.components = lead ++ segs.map ofSegment := by
  obtain ⟨lead, segs, hlead, htidy, hslashes, hsteps⟩ := written_normalSteps p
  refine ⟨lead, segs, hlead, htidy, hslashes, ?_⟩
  rw [normalSteps, hsteps]
  rcases hlead with rfl | rfl <;> simp

theorem normal_normalize (p : Path) : p.normalize.Normal := by
  obtain ⟨lead, segs, hlead, htidy, hslashes, hsteps⟩ := exists_normalSteps p
  rw [Normal, normalize, hsteps]
  cases segs with
  | nil =>
    rcases hlead with rfl | rfl
    · exact .empty
    · exact .root
  | cons first more =>
    have hsegments : segments ("/".intercalate (first :: more)) = first :: more :=
      segments_intercalate (by simp) hslashes
    rcases hlead with rfl | rfl
    · rw [List.nil_append, ofComponents_map, hsegments]
      exact .relative htidy
    · rw [List.singleton_append, ofComponents_root, segments_slash, hsegments]
      exact .absolute htidy

/-- The normal steps are read back from what is written of them. -/
theorem components_normalize (p : Path) : p.normalize.components = normalSteps p.components := by
  obtain ⟨lead, segs, hlead, htidy, hslashes, hsteps⟩ := exists_normalSteps p
  rw [normalize, hsteps]
  cases segs with
  | nil => rcases hlead with rfl | rfl <;> rfl
  | cons first more =>
    have hsegments : segments ("/".intercalate (first :: more)) = first :: more :=
      segments_intercalate (by simp) hslashes
    rcases hlead with rfl | rfl
    · rw [List.nil_append, ofComponents_map]
      exact components_of_relative hsegments htidy
    · rw [List.singleton_append, ofComponents_root]
      exact components_of_absolute (by rw [segments_slash, hsegments]) htidy

/-! ## Candidates -/

theorem isStep_append (s : String) {ending : String} (h : 3 ≤ ending.length) :
    IsStep (s ++ ending) := by
  have hlong : ∀ {short : String}, short.length ≤ 2 → s ++ ending ≠ short := by
    intro short hshort heq
    have hlength := congrArg String.length heq
    rw [String.length_append] at hlength
    omega
  refine ⟨?_, hlong (by decide)⟩
  simp only [isIdle, Bool.or_eq_false_iff, beq_eq_false_iff_ne]
  exact ⟨hlong (by decide), hlong (by decide)⟩

/-- An ending makes another last step. -/
theorem Normal.append {p : Path} (h : p.Normal) {ending : String} (hlength : 3 ≤ ending.length)
    (hslash : '/' ∉ ending.toList) : Normal ⟨p.text ++ ending⟩ := by
  obtain ⟨init, last, happend⟩ := exists_segments_append p.text
  have hself : segments p.text = init ++ [last] := by
    simpa using happend "" (by simp)
  rw [Normal, happend ending hslash]
  rw [Normal, hself] at h
  exact h.replace_last (isStep_append last hlength)

/-- A path whose last step has another ending than that of a normal path. -/
theorem normal_of_replace {stem ending : String} (h : Normal ⟨stem ++ ".js"⟩)
    (hlength : 3 ≤ ending.length) (hslash : '/' ∉ ending.toList) : Normal ⟨stem ++ ending⟩ := by
  obtain ⟨init, last, happend⟩ := exists_segments_append stem
  rw [Normal, happend ending hslash]
  rw [Normal, happend ".js" (by decide)] at h
  exact h.replace_last (isStep_append last hlength)

theorem segments_of_ends_open {text : String} (h : text = "" ∨ text.toList.getLast? = some '/') :
    ∃ init, segments text = init ++ [""] := by
  rcases h with rfl | h
  · exact ⟨[], rfl⟩
  · obtain ⟨front, hfront⟩ := List.getLast?_eq_some_iff.mp h
    have htext : text = String.ofList front ++ "/" ++ "" := by
      apply String.toList_inj.mp
      simp [hfront]
    exact ⟨segments (String.ofList front), by rw [htext, segments_append_slash]; rfl⟩

/-- A step below a normal path. -/
theorem Normal.join {p : Path} (h : p.Normal) {name : String} (hname : IsStep name)
    (hslash : '/' ∉ name.toList) : (p.join name).Normal := by
  have hrelative : ¬ (name.toList.head? == some '/') = true := fun hhead =>
    hslash (List.mem_of_mem_head? (by simpa using hhead))
  rw [Path.join, if_neg hrelative]
  by_cases hopen : p.text = "" ∨ p.text.toList.getLast? = some '/'
  · obtain ⟨init, last, happend⟩ := exists_segments_append p.text
    have hself : segments p.text = init ++ [last] := by simpa using happend "" (by simp)
    obtain ⟨init', hempty⟩ := segments_of_ends_open hopen
    have hlast : last = "" := by
      have heq := congrArg List.getLast? (hself.symm.trans hempty)
      simpa using heq
    rw [if_pos hopen, Normal, happend name hslash, hlast, String.empty_append]
    rw [Normal, hself] at h
    exact h.replace_last hname
  · have htext := intercalate_segments p.text
    have hempty : segments p.text ≠ [""] := by
      intro heq
      rw [heq] at htext
      exact hopen (Or.inl htext.symm)
    have hroot : segments p.text ≠ ["", ""] := by
      intro heq
      rw [heq] at htext
      exact hopen (Or.inr (htext ▸ rfl))
    have hsingle : segments name = [name] := by
      rw [segments_eq, List.splitOn_eq_singleton hslash]
      simp
    rw [if_neg hopen, Normal, segments_append_slash, hsingle]
    exact NormalSegments.snoc h hempty hroot hname

theorem eq_append_of_withoutJs? {text stem : String} (h : withoutJs? text = some stem) :
    text = stem ++ ".js" := by
  unfold withoutJs? at h
  split at h
  · rename_i chars heq
    cases h
    have htext := congrArg List.reverse heq
    rw [List.reverse_reverse] at htext
    apply String.toList_inj.mp
    rw [htext]
    simp
  · cases h

/-- What a normal path may stand for is normal. -/
theorem normal_candidates {base : Path} (h : base.Normal) : ∀ q ∈ base.candidates, q.Normal := by
  have hrenamed : ∀ stem, withoutJs? base.text = some stem →
      Normal ⟨stem ++ ".ts"⟩ ∧ Normal ⟨stem ++ ".tsx"⟩ := by
    intro stem hstem
    have hbase : Normal ⟨stem ++ ".js"⟩ := by
      rw [← eq_append_of_withoutJs? hstem]
      exact h
    exact ⟨normal_of_replace hbase (by decide) (by decide),
      normal_of_replace hbase (by decide) (by decide)⟩
  have hindex : ∀ name ∈ ["index.ts", "index.tsx"], (base.join name).Normal := by
    intro name hname
    have hstep : IsStep name := by
      rcases List.mem_cons.mp hname with rfl | hname
      · exact ⟨by decide, by decide⟩
      · rw [List.mem_singleton.mp hname]
        exact ⟨by decide, by decide⟩
    have hslash : ∀ name ∈ ["index.ts", "index.tsx"], '/' ∉ name.toList := by decide
    exact h.join hstep (hslash name hname)
  have hending : ∀ ending ∈ [".ts", ".tsx", ".d.ts"], Normal ⟨base.text ++ ending⟩ := by
    have hshape : ∀ ending ∈ [".ts", ".tsx", ".d.ts"],
        3 ≤ ending.length ∧ '/' ∉ ending.toList := by decide
    exact fun ending hmem => h.append (hshape ending hmem).1 (hshape ending hmem).2
  intro q hq
  rw [candidates] at hq
  rcases List.mem_append.mp hq with hq | hq
  · rcases List.mem_append.mp hq with hq | hq
    · split at hq
      · rename_i stem hstem
        rcases List.mem_cons.mp hq with rfl | hq
        · exact (hrenamed stem hstem).1
        · rw [List.mem_singleton.mp hq]
          exact (hrenamed stem hstem).2
      · cases hq
    · rcases List.mem_cons.mp hq with rfl | hq
      · exact h
      · obtain ⟨ending, hmem, rfl⟩ := List.mem_map.mp hq
        exact hending ending hmem
  · rcases List.mem_cons.mp hq with rfl | hq
    · exact hindex _ List.mem_cons_self
    · rw [List.mem_singleton.mp hq]
      exact hindex _ (List.mem_cons_of_mem _ List.mem_cons_self)

end Path

theorem normal_of_resolveSpecifier {source q : Path} {specifier : String} {present : Path → Bool}
    (h : resolveSpecifier source specifier present = some q) : q.Normal := by
  have hmem : q ∈ (source.directory.join specifier).normalize.candidates := by
    rw [resolveSpecifier] at h
    exact List.mem_of_find?_eq_some h
  exact Path.normal_candidates (Path.normal_normalize _) q hmem

end SchemaCompiler

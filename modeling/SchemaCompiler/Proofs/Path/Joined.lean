import Mathlib
import SchemaCompiler.Proofs.Path.Normal

/-!
# Where joined paths lead

A path can be walked segment by segment, since the segments that no component stands for lead
nowhere. So a relative text that is joined to a path leads on from where the path leads. Cutting an
extension off changes the last segment only.
-/

namespace SchemaCompiler

namespace Location

def root : Location := ⟨true, 0, []⟩

/-- Walks along a segment of a text. -/
def enter (l : Location) (segment : String) : Location :=
  if Path.isIdle segment then l else l.walk (Path.ofSegment segment)

theorem foldl_enter (segments : List String) (l : Location) :
    segments.foldl enter l = (Path.ofSegments segments).foldl walk l := by
  induction segments generalizing l with
  | nil => rfl
  | cons segment rest ih =>
    rw [List.foldl_cons, ih, Path.ofSegments, enter]
    split <;> rfl

end Location

namespace Path

variable {p : Path}

/-! ## Absolute paths -/

theorem isAbsolute_iff :
    p.isAbsolute = true ↔ ∃ first more, segments p.text = "" :: first :: more := by
  rw [isAbsolute, beq_iff_eq]
  constructor
  · intro hhead
    obtain ⟨rest, htext⟩ : ∃ rest, p.text.toList = '/' :: rest := by
      cases hlist : p.text.toList with
      | nil => rw [hlist] at hhead; cases hhead
      | cons c rest =>
        rw [hlist] at hhead
        exact ⟨rest, congrArg (· :: rest) (Option.some.inj hhead)⟩
    have hslash : p.text = "/" ++ String.ofList rest := by
      apply String.toList_inj.mp
      simp [htext]
    rw [hslash, segments_slash]
    cases hsegments : segments (String.ofList rest) with
    | nil => exact absurd hsegments (segments_ne_nil _)
    | cons first more => exact ⟨first, more, rfl⟩
  · rintro ⟨first, more, hsegments⟩
    have htext := intercalate_segments p.text
    rw [hsegments, String.intercalate_cons_cons] at htext
    rw [← htext]
    simp

theorem components_of_isAbsolute (h : p.isAbsolute = true) :
    ∃ rest, segments p.text = "" :: rest ∧ p.components = .root :: ofSegments rest := by
  obtain ⟨first, more, hsegments⟩ := isAbsolute_iff.mp h
  refine ⟨first :: more, hsegments, ?_⟩
  unfold components
  rw [hsegments]
  rfl

theorem first_ne_of_not_isAbsolute (h : p.isAbsolute = false) {first second : String}
    {more : List String} (hsegments : segments p.text = first :: second :: more) : first ≠ "" := by
  rintro rfl
  rw [isAbsolute_iff.mpr ⟨second, more, hsegments⟩] at h
  cases h

/-! ## Walking along segments -/

/-- Where a path starts. -/
def origin (p : Path) : Location := if p.isAbsolute then .root else .start

theorem location_eq (p : Path) : p.location = (segments p.text).foldl Location.enter p.origin := by
  cases habsolute : p.isAbsolute with
  | true =>
    obtain ⟨rest, hsegments, hcomponents⟩ := components_of_isAbsolute habsolute
    rw [location, hcomponents, hsegments, origin, habsolute, List.foldl_cons, Location.foldl_enter]
    rfl
  | false =>
    rw [origin, habsolute, location, components]
    cases hsegments : segments p.text with
    | nil => rfl
    | cons first more =>
      cases more with
      | nil =>
        rw [List.foldl_cons, List.foldl_nil, Location.enter]
        by_cases hempty : first = ""
        · rw [hempty]
          rfl
        · by_cases hhere : first = "."
          · rw [hhere]
            rfl
          · simp [hempty, hhere, isIdle, Location.ofComponents]
      | cons second more =>
        have hfirst := first_ne_of_not_isAbsolute habsolute hsegments
        rw [List.foldl_cons, Location.foldl_enter, Location.enter]
        by_cases hhere : first = "."
        · rw [hhere]
          rfl
        · simp [hfirst, hhere, isIdle, Location.ofComponents]

/-- A relative text leads on from where the path leads that it is joined to. -/
theorem location_join (p : Path) {more : String} (h : (⟨more⟩ : Path).isAbsolute = false) :
    (p.join more).location = (segments more).foldl Location.enter p.location := by
  have hrelative : ¬ (more.toList.head? == some '/') = true := by
    rw [← isAbsolute, h]
    simp
  have horigin : ∀ text : String, p.text ≠ "" →
      (⟨p.text ++ text⟩ : Path).origin = p.origin := by
    intro text hne
    have hhead : (p.text ++ text).toList.head? = p.text.toList.head? := by
      rw [String.toList_append, List.head?_append]
      cases hlist : p.text.toList with
      | nil => exact absurd (String.toList_inj.mp hlist) hne
      | cons c rest => rfl
    rw [origin, isAbsolute, hhead]
    rfl
  rw [join, if_neg hrelative]
  by_cases hempty : p.text = ""
  · rw [if_pos (Or.inl hempty), hempty, String.empty_append, location_eq ⟨more⟩, origin, h]
    have hstart : p.location = .start := by
      rw [location, components, hempty]
      rfl
    rw [hstart]
    rfl
  · by_cases hopen : p.text.toList.getLast? = some '/'
    · obtain ⟨front, hfront⟩ := List.getLast?_eq_some_iff.mp hopen
      have htext : p.text = String.ofList front ++ "/" := by
        apply String.toList_inj.mp
        simp [hfront]
      have hself : p.location =
          (segments (String.ofList front)).foldl Location.enter p.origin := by
        rw [location_eq, htext]
        have hsegments := segments_append_slash (String.ofList front) ""
        rw [String.append_empty] at hsegments
        rw [hsegments, List.foldl_append]
        rfl
      rw [if_pos (Or.inr hopen), location_eq, horigin more hempty, hself]
      show (segments (p.text ++ more)).foldl Location.enter p.origin = _
      rw [htext, segments_append_slash, List.foldl_append]
    · rw [if_neg (not_or.mpr ⟨hempty, hopen⟩), location_eq, String.append_assoc,
        horigin ("/" ++ more) hempty, location_eq p]
      show (segments (p.text ++ ("/" ++ more))).foldl Location.enter p.origin = _
      rw [← String.append_assoc, segments_append_slash, List.foldl_append]

/-! ## Paths without their extension -/

/-- The stem of a file name is a beginning of it. -/
theorem splitExtension_begins (fileName : String) :
    (splitExtension fileName).1.toList <+: fileName.toList := by
  unfold splitExtension
  simp only
  split
  · exact List.prefix_rfl
  · rename_i dot stem hback
    split
    · exact List.prefix_rfl
    · rw [String.toList_ofList]
      have hsplit := List.takeWhile_append_dropWhile (p := (· ≠ '.')) (l := fileName.toList.reverse)
      rw [hback] at hsplit
      have hname := congrArg List.reverse hsplit
      rw [List.reverse_reverse] at hname
      rw [← hname, List.reverse_append, List.reverse_cons, List.append_assoc]
      exact List.prefix_append _ _

theorem splitExtension_ne_empty {fileName : String} (h : fileName ≠ "") :
    (splitExtension fileName).1 ≠ "" := by
  unfold splitExtension
  simp only
  split
  · exact h
  · split
    · exact h
    · rename_i hstem
      intro hempty
      have hlist := congrArg String.toList hempty
      rw [String.toList_ofList] at hlist
      exact hstem (by simpa using hlist)

theorem segments_ofTrimmed {texts : List String} (hne : texts ≠ []) (hempty : texts ≠ [""])
    (hslash : ∀ s ∈ texts, '/' ∉ s.toList) : segments (ofTrimmed texts).text = texts := by
  have hwritten := segments_intercalate hne hslash
  match texts, hne, hempty with
  | [only], _, hempty =>
    have honly : only ≠ "" := fun heq => hempty (congrArg (fun s => [s]) heq)
    rw [String.intercalate_singleton] at hwritten
    rw [ofTrimmed, if_neg honly]
    exact hwritten
  | first :: second :: more, _, _ => exact hwritten

theorem ofSegments_of_idle {texts : List String} (h : ∀ s ∈ texts, isIdle s = true) :
    ofSegments texts = [] := by
  induction texts with
  | nil => rfl
  | cons s rest ih =>
    rw [ofSegments, if_pos (h s List.mem_cons_self)]
    exact ih fun t ht => h t (List.mem_cons_of_mem _ ht)

theorem isStep_of_fileName? {fileName : String} (h : p.fileName? = some fileName) :
    fileName ∈ segments p.text ∧ IsStep fileName := by
  rw [fileName?] at h
  split at h
  · rename_i s hlast
    cases h
    exact name_of_mem_components (List.mem_of_getLast? hlast)
  · cases h

/-- A file name stands behind the root, if there is one. -/
theorem rest_ne_nil_of_fileName? {fileName : String} (h : p.fileName? = some fileName)
    (habsolute : p.isAbsolute = true) {rest : List String} (hsegments : segments p.text = "" :: rest) :
    rest.reverse.dropWhile isIdle ≠ [] := by
  intro hidle
  obtain ⟨rest', hsegments', hcomponents⟩ := components_of_isAbsolute habsolute
  obtain rfl : rest = rest' := by simpa using hsegments.symm.trans hsegments'
  have hnone : ofSegments rest = [] := by
    refine ofSegments_of_idle fun s hs => ?_
    rw [List.dropWhile_eq_nil_iff] at hidle
    exact hidle s (List.mem_reverse.mpr hs)
  rw [fileName?, last?, hcomponents, hnone] at h
  cases h

/-! ### The segments in front of a file name -/

theorem trimIdle_eq {segs : List String} {first : String} {more : List String}
    (h : segs = first :: more) :
    trimIdle segs = first :: (more.reverse.dropWhile isIdle).reverse := by
  rw [h, trimIdle]

theorem trimIdle_subset (segs : List String) : trimIdle segs ⊆ segs := by
  cases segs with
  | nil => exact List.Subset.refl _
  | cons first more =>
    refine List.cons_subset_cons first fun s hs => ?_
    exact List.mem_reverse.mp (List.dropWhile_subset _ (List.mem_reverse.mp hs))

/-- An absolute path still begins at the root without its file name. -/
theorem front_of_isAbsolute {fileName : String} (h : p.fileName? = some fileName)
    (habsolute : p.isAbsolute = true) :
    ∃ more, (trimIdle (segments p.text)).dropLast = "" :: more := by
  obtain ⟨rest, hroot, -⟩ := components_of_isAbsolute habsolute
  have hrest := rest_ne_nil_of_fileName? h habsolute hroot
  obtain ⟨next, others, hothers⟩ :=
    List.exists_cons_of_ne_nil (List.reverse_eq_nil_iff.not.mpr hrest)
  rw [trimIdle_eq hroot, hothers, List.dropLast_cons_cons]
  exact ⟨_, rfl⟩

theorem front_of_not_isAbsolute (habsolute : p.isAbsolute = false) {first : String}
    {more : List String} (h : (trimIdle (segments p.text)).dropLast = first :: more) :
    first ≠ "" := by
  obtain ⟨head, tail, hsegments⟩ := List.exists_cons_of_ne_nil (segments_ne_nil p.text)
  rw [trimIdle_eq hsegments] at h
  cases tail with
  | nil => cases h
  | cons second others =>
    have hhead := first_ne_of_not_isAbsolute habsolute hsegments
    cases htrimmed : ((second :: others).reverse.dropWhile isIdle).reverse with
    | nil =>
      rw [htrimmed] at h
      cases h
    | cons next rest =>
      rw [htrimmed, List.dropLast_cons_cons] at h
      exact (List.cons.inj h).1 ▸ hhead

/-- What is left of a path when the extension of its file name is cut off: its first segment if that
is not the file name, then others of its segments, and the stem of the file name. -/
theorem segments_withoutExtension {fileName : String} (h : p.fileName? = some fileName) :
    ∃ front, segments p.withoutExtension.text = front ++ [(splitExtension fileName).1] ∧
      (∀ s ∈ front, s ∈ segments p.text) ∧
      (p.isAbsolute = true → ∃ more, front = "" :: more) ∧
      (p.isAbsolute = false → ∀ first more, front = first :: more → first ≠ "") := by
  have hsub : ∀ s ∈ (trimIdle (segments p.text)).dropLast, s ∈ segments p.text := fun s hs =>
    trimIdle_subset _ (List.mem_of_mem_dropLast hs)
  refine ⟨(trimIdle (segments p.text)).dropLast, ?_, hsub, front_of_isAbsolute h,
    fun habsolute _ _ hfront => front_of_not_isAbsolute habsolute hfront⟩
  obtain ⟨hmem, hstep⟩ := isStep_of_fileName? h
  have hname : fileName ≠ "" := by
    rintro rfl
    exact absurd hstep.notIdle (by decide)
  have hpath : p.withoutExtension =
      ofTrimmed ((trimIdle (segments p.text)).dropLast ++ [(splitExtension fileName).1]) := by
    obtain ⟨first, more, hsegments⟩ := List.exists_cons_of_ne_nil (segments_ne_nil p.text)
    rw [withoutExtension, h, trimIdle_eq hsegments]
  rw [hpath]
  refine segments_ofTrimmed (by simp) (fun heq => ?_) fun s hs => ?_
  · have hlast := congrArg List.getLast? heq
    rw [List.getLast?_append] at hlast
    exact splitExtension_ne_empty hname (by simpa using hlast)
  · rcases List.mem_append.mp hs with hs | hs
    · exact not_mem_of_mem_segments (hsub s hs)
    · rw [List.mem_singleton.mp hs]
      intro hslash
      exact not_mem_of_mem_segments hmem ((splitExtension_begins fileName).subset hslash)

theorem isAbsolute_withoutExtension (p : Path) : p.withoutExtension.isAbsolute = p.isAbsolute := by
  cases hfile : p.fileName? with
  | none => rw [withoutExtension, hfile]
  | some fileName =>
    obtain ⟨front, hsegments, -, hroot, hrelative⟩ := segments_withoutExtension hfile
    cases habsolute : p.isAbsolute with
    | true =>
      obtain ⟨more, hfront⟩ := hroot habsolute
      rw [isAbsolute_iff, hsegments, hfront, List.cons_append]
      obtain ⟨next, others, hothers⟩ := List.exists_cons_of_ne_nil
        (show more ++ [(splitExtension fileName).1] ≠ [] by simp)
      exact ⟨next, others, by rw [hothers]⟩
    | false =>
      rw [Bool.eq_false_iff, Ne, isAbsolute_iff, hsegments]
      rintro ⟨first, more, heq⟩
      cases front with
      | nil => simp at heq
      | cons s front =>
        exact hrelative habsolute s front rfl (List.cons.inj heq).1

end Path

end SchemaCompiler

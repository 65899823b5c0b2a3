import Metamodel.Proofs.Path.Course

/-!
# Where paths lead

Settling keeps the course of segments (`settle_eq`, `course_settle`). Hence normal forms, joined
paths, directories and relative paths are known by their courses: `resolvedSegments_join`,
`EndsIn.resolvedSegments_directory` and `follow_relativeSegments`.
-/

namespace Metamodel.Path

/-! ## Settling -/

section Step

variable (upwards : Bool) (settled : List String) {seg : String}

theorem settleStep_of_idle (h : seg = "" ∨ seg = ".") :
    settleStep upwards settled seg = settled := by
  unfold settleStep
  rw [if_pos h]

theorem settleStep_of_name (h : seg ≠ "") (hdot : seg ≠ ".") (hdots : seg ≠ "..") :
    settleStep upwards settled seg = seg :: settled := by
  unfold settleStep
  rw [if_neg (by simp [h, hdot]), if_neg hdots]

theorem settleStep_dots_cons (last : String) :
    settleStep upwards (last :: settled) ".." =
      if last = ".." then ".." :: last :: settled else settled := rfl

end Step

/-- The settled segments are the course so far, last first. -/
theorem foldl_settleStep (upwards : Bool) (segs : List String) :
    segs.foldl (settleStep upwards) [] =
      ((if upwards then List.replicate (course segs).up ".." else []) ++
        (course segs).down).reverse := by
  induction segs using List.reverseRecOn with
  | nil => cases upwards <;> rfl
  | append_singleton segs seg ih =>
    have hdots : ".." ∉ (course segs).down := fun h => (mem_down h).2.2.2 rfl
    rw [List.foldl_append, List.foldl_cons, List.foldl_nil, ih, course_concat]
    generalize course segs = c at hdots
    obtain ⟨up, down⟩ := c
    rcases Course.segment_cases seg with h | rfl | ⟨h, hdot, hdots'⟩
    · rw [Course.step_of_idle h, settleStep_of_idle _ _ h]
    · rcases List.eq_nil_or_concat' down with rfl | ⟨names, name, rfl⟩
      · rw [Course.step_dots_of_nil (c := ⟨up, []⟩) rfl]
        cases upwards with
        | false => rfl
        | true => cases up with
          | zero => rfl
          | succ up =>
            simp only [if_true, List.append_nil, List.reverse_replicate]
            rw [List.replicate_succ, settleStep_dots_cons, if_pos rfl]
            rfl
      · have hname : name ≠ ".." := by
          rintro rfl
          exact hdots (List.mem_append_right _ List.mem_cons_self)
        rw [Course.step_dots_concat, ← List.append_assoc, List.reverse_concat,
          settleStep_dots_cons, if_neg hname]
    · rw [Course.step_of_name h hdot hdots', settleStep_of_name _ _ h hdot hdots',
        ← List.append_assoc, List.reverse_concat]

theorem settle_eq (upwards : Bool) (segs : List String) :
    settle upwards segs =
      (if upwards then List.replicate (course segs).up ".." else []) ++ (course segs).down := by
  rw [settle, foldl_settleStep, List.reverse_reverse]

theorem mem_settle {upwards : Bool} {segs : List String} {s : String}
    (h : s ∈ settle upwards segs) : s = ".." ∨ s ∈ (course segs).down := by
  rw [settle_eq, List.mem_append] at h
  cases upwards with
  | false => exact Or.inr (h.resolve_left List.not_mem_nil)
  | true => exact h.imp_left fun h => (List.mem_replicate.1 h).2

section Slashless

variable {segs : List String} (h : ∀ s ∈ segs, '/' ∉ s.toList)
include h

theorem noSlash_of_mem_settle {upwards : Bool} {s : String} (hs : s ∈ settle upwards segs) :
    '/' ∉ s.toList := by
  rcases mem_settle hs with rfl | hs
  · decide
  · exact (isName_of_mem_down h hs).noSlash

/-- Settling keeps the course, except that a path from the root leads nowhere above it. -/
theorem course_settle (upwards : Bool) :
    course (settle upwards segs) = ⟨if upwards then (course segs).up else 0, (course segs).down⟩ := by
  rw [settle_eq, course_append_names _ fun s hs => isName_of_mem_down h hs]
  cases upwards with
  | false => rfl
  | true =>
    rw [if_pos rfl, course_dots]
    rfl

end Slashless

theorem ne_empty_of_mem_settle {upwards : Bool} {segs : List String} {s : String}
    (hs : s ∈ settle upwards segs) : s ≠ "" := by
  rcases mem_settle hs with rfl | hs
  · decide
  · exact (mem_down hs).2.1

/-! ## Resolved paths -/

theorem resolvedSegments_singleton (p : String) :
    resolvedSegments [p] = (course (segments p)).down := by
  have hroot : fromRoot [p] = [p] := by
    unfold fromRoot
    cases h : isAbsolute p <;> simp [h]
  rw [resolvedSegments, hroot, settle_eq, List.flatMap_singleton]
  rfl

theorem resolvedSegments_pair {p q : String} (h : isAbsolute q = false) :
    resolvedSegments [p, q] = (course (segments q)).follow (resolvedSegments [p]) := by
  have hroot : fromRoot [p, q] = [p, q] := by
    unfold fromRoot
    cases hp : isAbsolute p <;> simp [h, hp]
  rw [resolvedSegments_singleton, ← down_course_append, resolvedSegments, hroot, settle_eq]
  simp

theorem resolvedSegments_pair_of_isAbsolute {p q : String} (h : isAbsolute q = true) :
    resolvedSegments [p, q] = resolvedSegments [q] := by
  have hroot : fromRoot [p, q] = fromRoot [q] := by
    unfold fromRoot
    cases hp : isAbsolute p <;> simp [h, hp]
  rw [resolvedSegments, hroot]
  rfl

theorem isName_of_mem_resolvedSegments {parts : List String} {s : String}
    (h : s ∈ resolvedSegments parts) : IsName s := by
  rw [resolvedSegments, settle_eq] at h
  refine isName_of_mem_down (fun t ht => ?_) h
  obtain ⟨p, -, hp⟩ := List.mem_flatMap.1 ht
  exact notMem_slash hp

theorem segments_absolute {segs : List String} (h : ∀ s ∈ segs, '/' ∉ s.toList) :
    segments (absolute segs) = "" :: if segs = [] then [""] else segs := by
  have happend := segments_append_slash "" (ofSegments segs)
  rw [String.empty_append] at happend
  rw [absolute, happend]
  by_cases hsegs : segs = []
  · rw [if_pos hsegs, hsegs]
    rfl
  · rw [if_neg hsegs, segments_ofSegments hsegs h]
    rfl

/-- A resolved path leads where its parts do. -/
theorem resolvedSegments_resolve (parts : List String) :
    resolvedSegments [resolve parts] = resolvedSegments parts := by
  have hnames (s : String) (hs : s ∈ resolvedSegments parts) : IsName s :=
    isName_of_mem_resolvedSegments hs
  rw [resolvedSegments_singleton, resolve, segments_absolute fun s hs => (hnames s hs).noSlash]
  by_cases h : resolvedSegments parts = []
  · rw [if_pos h, h]
    rfl
  · rw [if_neg h, course_idle_cons (Or.inl rfl), course_names hnames]

theorem resolve_eq_resolve_iff {parts parts' : List String} :
    resolve parts = resolve parts' ↔ resolvedSegments parts = resolvedSegments parts' := by
  constructor
  · intro h
    rw [← resolvedSegments_resolve, h, resolvedSegments_resolve]
  · intro h
    rw [resolve, h, resolve]

/-! ## Normal forms and joined paths -/

theorem segments_append_trailing (p : String) (trailing : Bool) :
    segments (p ++ if trailing then "/" else "") =
      segments p ++ if trailing then [""] else [] := by
  cases trailing with
  | false => simp
  | true =>
    have happend := segments_append_slash p ""
    rw [String.append_empty] at happend
    exact happend

/-- A normal form is made up of the settled segments, with idle ones around them. -/
theorem segments_normalize (p : String) :
    ∃ lead trail, segments (normalize p) = lead ++ settle (!isAbsolute p) (segments p) ++ trail ∧
      (∀ s ∈ lead, s = "" ∨ s = ".") ∧ (∀ s ∈ trail, s = "" ∨ s = ".") ∧
      ((p.toList.getLast? == some '/') = false → trail = []) := by
  have hslash (s : String) (hs : s ∈ settle (!isAbsolute p) (segments p)) : '/' ∉ s.toList :=
    noSlash_of_mem_settle (fun t ht => notMem_slash ht) hs
  have hbody : ofSegments (settle (!isAbsolute p) (segments p)) = "" ↔
      settle (!isAbsolute p) (segments p) = [] :=
    ofSegments_eq_empty_iff fun s hs => ne_empty_of_mem_settle hs
  by_cases hp : p = ""
  · subst hp
    exact ⟨["."], [], rfl, by simp, by simp, fun _ => rfl⟩
  generalize hsegs : settle (!isAbsolute p) (segments p) = segs at hslash hbody
  generalize htrail : (p.toList.getLast? == some '/') = trailing
  have htrailing (s : String) (hs : s ∈ if trailing then [""] else []) : s = "" ∨ s = "." := by
    cases trailing <;> simp at hs
    exact Or.inl hs
  unfold normalize
  rw [if_neg hp]
  simp only [hsegs, htrail, hbody]
  cases isAbsolute p with
  | true =>
    rw [if_pos rfl]
    by_cases hnil : segs = []
    · rw [if_pos hnil, hnil]
      exact ⟨["", ""], [], rfl, by simp, by simp, fun _ => rfl⟩
    · rw [if_neg hnil, segments_append_trailing]
      refine ⟨[""], if trailing then [""] else [], ?_, by simp, htrailing, ?_⟩
      · have happend := segments_append_slash "" (ofSegments segs)
        rw [String.empty_append] at happend
        rw [happend, segments_ofSegments hnil hslash]
        rfl
      · rintro rfl
        rfl
  | false =>
    rw [if_neg Bool.false_ne_true]
    by_cases hnil : segs = []
    · rw [if_pos hnil, hnil]
      refine ⟨["."], if trailing then [""] else [], ?_, by simp, htrailing, ?_⟩
      · cases trailing <;> rfl
      · rintro rfl
        rfl
    · rw [if_neg hnil, segments_append_trailing, segments_ofSegments hnil hslash]
      refine ⟨[], if trailing then [""] else [], rfl, by simp, htrailing, ?_⟩
      rintro rfl
      rfl

theorem isAbsolute_normalize (p : String) : isAbsolute (normalize p) = isAbsolute p := by
  have hslash (s : String) (hs : s ∈ settle (!isAbsolute p) (segments p)) : '/' ∉ s.toList :=
    noSlash_of_mem_settle (fun t ht => notMem_slash ht) hs
  have hne (s : String) (hs : s ∈ settle (!isAbsolute p) (segments p)) : s ≠ "" :=
    ne_empty_of_mem_settle hs
  by_cases hp : p = ""
  · subst hp
    rfl
  generalize hsegs : settle (!isAbsolute p) (segments p) = segs at hslash hne
  unfold normalize
  rw [if_neg hp]
  simp only [hsegs]
  cases habs : isAbsolute p with
  | true =>
    rw [if_pos rfl]
    split
    · rfl
    · rw [String.append_assoc, isAbsolute_append (by decide)]
      rfl
  | false =>
    rw [if_neg Bool.false_ne_true]
    cases segs with
    | nil =>
      rw [if_pos (show ofSegments [] = "" from rfl)]
      split <;> rfl
    | cons s segs =>
      have hs := hne s List.mem_cons_self
      have hbody : ofSegments (s :: segs) ≠ "" := by
        rw [Ne, ofSegments_eq_empty_iff hne]
        exact List.cons_ne_nil _ _
      rw [if_neg hbody, isAbsolute_append hbody, isAbsolute_ofSegments_cons hs]
      exact isAbsolute_of_notMem (hslash s List.mem_cons_self)

/-- Where a normal form leads: as the path, but nowhere above the root. -/
theorem course_normalize (p : String) :
    course (segments (normalize p)) =
      ⟨if isAbsolute p then 0 else (course (segments p)).up, (course (segments p)).down⟩ := by
  obtain ⟨lead, trail, hsegments, hlead, htrail, -⟩ := segments_normalize p
  rw [hsegments, course_append_of_idle _ htrail, course_idle_append hlead,
    course_settle fun s hs => notMem_slash hs]
  cases isAbsolute p <;> rfl

/-- The course of paths behind each other does not change when empty ones are left out. -/
theorem course_flatMap_filter (parts : List String) :
    course ((parts.filter (· ≠ "")).flatMap segments) = course (parts.flatMap segments) := by
  induction parts with
  | nil => rfl
  | cons p parts ih =>
    rw [List.flatMap_cons, course_append, ← ih, ← course_append]
    by_cases hp : p = ""
    · subst hp
      have hempty : segments "" = [""] := rfl
      rw [hempty, List.singleton_append, course_idle_cons (Or.inl rfl)]
      rfl
    · rw [List.filter_cons_of_pos (by simpa using hp), List.flatMap_cons]

theorem course_ofSegments (parts : List String) :
    course (segments (ofSegments parts)) = course (parts.flatMap segments) := by
  by_cases h : parts = []
  · rw [h]
    rfl
  · rw [segments_ofSegments_flatMap h]

theorem course_join (parts : List String) :
    course (segments (join parts)) =
      ⟨if isAbsolute (join parts) then 0 else (course (parts.flatMap segments)).up,
        (course (parts.flatMap segments)).down⟩ := by
  unfold join
  rw [course_normalize, isAbsolute_normalize, course_ofSegments, course_flatMap_filter]

theorem resolvedSegments_join (parts : List String) :
    resolvedSegments [join parts] = (course (parts.flatMap segments)).down := by
  rw [resolvedSegments_singleton, course_join]

/-- Joined paths lead on from the first of them. -/
theorem resolvedSegments_join_cons (p : String) (parts : List String) :
    resolvedSegments [join (p :: parts)] =
      (course (parts.flatMap segments)).follow (resolvedSegments [p]) := by
  rw [resolvedSegments_join, List.flatMap_cons, down_course_append, resolvedSegments_singleton]

theorem isAbsolute_join_cons {p : String} (h : p ≠ "") (parts : List String) :
    isAbsolute (join (p :: parts)) = isAbsolute p := by
  rw [join, isAbsolute_normalize, List.filter_cons_of_pos (by simpa using h),
    isAbsolute_ofSegments_cons h]

theorem join_empty_cons (parts : List String) : join ("" :: parts) = join parts := rfl

/-- A path along names is in its normal form. -/
theorem normalize_ofSegments {names : List String} (hne : names ≠ []) (h : ∀ s ∈ names, IsName s) :
    normalize (ofSegments names) = ofSegments names := by
  have hsegments : segments (ofSegments names) = names :=
    segments_ofSegments hne fun s hs => (h s hs).noSlash
  have hempty : ofSegments names ≠ "" := by
    rw [Ne, ofSegments_eq_empty_iff fun s hs => (h s hs).ne_empty]
    exact hne
  have hrelative : isAbsolute (ofSegments names) = false := by
    obtain ⟨s, rest, rfl⟩ := List.exists_cons_of_ne_nil hne
    have hs := h s List.mem_cons_self
    rw [isAbsolute_ofSegments_cons hs.ne_empty, isAbsolute_of_notMem hs.noSlash]
  have htrailing : ((ofSegments names).toList.getLast? == some '/') = false := by
    obtain ⟨front, last, rfl⟩ := List.eq_nil_or_concat' names |>.resolve_left hne
    refine getLast?_ne_slash ?_ (h last (by simp)).ne_empty
    rw [hsegments, List.getLast?_concat]
  have hsettle : settle true names = names := by
    rw [settle_eq, course_names h]
    rfl
  unfold normalize
  rw [if_neg hempty, hrelative, htrailing, hsegments]
  simp only [Bool.not_false, hsettle, Bool.false_eq_true, if_false, hempty, String.append_empty]

/-- A name behind the path of a directory. -/
theorem join_ofSegments_name {names : List String} {name : String}
    (h : ∀ s ∈ names ++ [name], IsName s) :
    join [ofSegments names, name] = ofSegments (names ++ [name]) := by
  have hname : name ≠ "" := (h name (by simp)).ne_empty
  rw [← normalize_ofSegments (by simp) h]
  by_cases hne : names = []
  · rw [hne, show ofSegments ([] : List String) = "" from rfl, join_empty_cons, join,
      List.filter_cons_of_pos (by simpa using hname)]
    rfl
  · have hdirectory : ofSegments names ≠ "" := by
      rw [Ne, ofSegments_eq_empty_iff fun s hs => (h s (by simp [hs])).ne_empty]
      exact hne
    rw [join, List.filter_eq_self.2 (by simp [hname, hdirectory]), ofSegments_concat hne]
    rfl

/-! ## Paths of files -/

/-- The path ends in the name. -/
structure EndsIn (p name : String) : Prop where
  isName : IsName name
  getLast : (segments p).getLast? = some name

namespace EndsIn

variable {p name : String}

theorem of_isName (h : IsName name) : EndsIn name name where
  isName := h
  getLast := by rw [segments_of_notMem h.noSlash]; rfl

theorem exists_segments (h : EndsIn p name) : ∃ front, segments p = front ++ [name] :=
  List.getLast?_eq_some_iff.1 h.getLast

/-- The directory of the file is where the segments in front of its name lead. -/
theorem resolvedSegments_directory (h : EndsIn p name) :
    resolvedSegments [p] = resolvedSegments [directory p] ++ [name] := by
  obtain ⟨front, hfront⟩ := h.exists_segments
  have hp : p = ofSegments (front ++ [name]) := by rw [← hfront, ofSegments_segments]
  have hdirectory : course (segments (directory p)) = course front := by
    by_cases hnil : front = []
    · have hname : p = name := by
        rw [hp, hnil]
        rfl
      rw [hname, directory_of_notMem h.isName.noSlash, hnil]
      rfl
    · have hsegments : segments (ofSegments front) = front :=
        segments_ofSegments hnil fun s hs =>
          notMem_slash (hfront ▸ List.mem_append_left _ hs : s ∈ segments p)
      rw [hp, ofSegments_concat hnil, directory_concat h.isName.ne_empty h.isName.noSlash]
      split
      · rename_i hempty
        rw [← hsegments, hempty]
        rfl
      · split
        · rename_i hroot
          rw [← hsegments, hroot]
          rfl
        · rw [hsegments]
  rw [resolvedSegments_singleton, resolvedSegments_singleton, hfront, course_append_name _ h.isName,
    hdirectory]

theorem ne_empty (h : EndsIn p name) : p ≠ "" := by
  rintro rfl
  exact h.isName.ne_empty (Option.some.inj h.getLast).symm

protected theorem normalize (h : EndsIn p name) : EndsIn (normalize p) name where
  isName := h.isName
  getLast := by
    obtain ⟨lead, trail, hsegments, -, -, htrail⟩ := segments_normalize p
    obtain ⟨front, hfront⟩ := h.exists_segments
    rw [hsegments, htrail (getLast?_ne_slash h.getLast h.isName.ne_empty), List.append_nil,
      settle_eq, hfront, course_append_name _ h.isName, ← List.append_assoc, ← List.append_assoc,
      List.getLast?_concat]

theorem behind (h : EndsIn p name) (parts : List String) :
    EndsIn (ofSegments ((parts ++ [p]).filter (· ≠ ""))) name where
  isName := h.isName
  getLast := by
    obtain ⟨front, hfront⟩ := h.exists_segments
    rw [List.filter_append, List.filter_cons_of_pos (by simpa using h.ne_empty), List.filter_nil,
      segments_ofSegments_flatMap (by simp), List.flatMap_append, List.flatMap_singleton, hfront,
      ← List.append_assoc, List.getLast?_concat]

/-- A file keeps its name when it is put behind other paths. -/
protected theorem join (h : EndsIn p name) (parts : List String) :
    EndsIn (join (parts ++ [p])) name :=
  (h.behind parts).normalize

/-- The normal forms of files are the same when both start at the root, or both do not, and they
lead to one place. -/
theorem normalize_eq_normalize {q name' : String} (h : EndsIn p name) (h' : EndsIn q name')
    (habs : isAbsolute (Path.normalize p) = isAbsolute (Path.normalize q))
    (hcourse : course (segments (Path.normalize p)) = course (segments (Path.normalize q))) :
    Path.normalize p = Path.normalize q := by
  rw [isAbsolute_normalize, isAbsolute_normalize] at habs
  rw [course_normalize, course_normalize, habs, Course.mk.injEq] at hcourse
  obtain ⟨hup, hdown⟩ := hcourse
  have hsettle : settle (!isAbsolute q) (segments p) = settle (!isAbsolute q) (segments q) := by
    rw [settle_eq, settle_eq, hdown]
    cases hq : isAbsolute q with
    | true => rfl
    | false =>
      rw [hq, if_neg Bool.false_ne_true, if_neg Bool.false_ne_true] at hup
      rw [hup]
  unfold Path.normalize
  rw [if_neg h.ne_empty, if_neg h'.ne_empty]
  simp only [habs, hsettle, getLast?_ne_slash h.getLast h.isName.ne_empty,
    getLast?_ne_slash h'.getLast h'.isName.ne_empty]

end EndsIn

/-! ## Relative paths -/

/-- What two paths have in common is dropped from both. -/
theorem exists_common (xs ys : List String) :
    ∃ common, xs = common ++ (dropCommon xs ys).1 ∧ ys = common ++ (dropCommon xs ys).2 := by
  fun_induction dropCommon xs ys with
  | case1 xs x ys ih =>
    obtain ⟨common, hxs, hys⟩ := ih
    exact ⟨x :: common, congrArg (x :: ·) hxs, congrArg (x :: ·) hys⟩
  | case2 | case3 => exact ⟨[], rfl, rfl⟩

theorem exists_relativeSegments (source target : List String) :
    ∃ common up down, source = common ++ up ∧ target = common ++ down ∧
      relativeSegments source target = List.replicate up.length ".." ++ down := by
  obtain ⟨common, hsource, htarget⟩ := exists_common source target
  refine ⟨common, _, _, hsource, htarget, ?_⟩
  rw [← List.map_const']
  rfl

/-- The relative path leads from the one to the other, below any names. -/
theorem follow_relativeSegments (base source : List String) {target : List String}
    (h : ∀ s ∈ target, IsName s) :
    (course (relativeSegments source target)).follow (base ++ source) = base ++ target := by
  obtain ⟨common, up, down, rfl, rfl, hrelative⟩ := exists_relativeSegments source target
  have hdown (s : String) (hs : s ∈ down) : IsName s := h s (List.mem_append_right _ hs)
  have hcourse : course (relativeSegments (common ++ up) (common ++ down)) = ⟨up.length, down⟩ := by
    rw [hrelative, course_append_names _ hdown, course_dots]
    rfl
  rw [hcourse, Course.follow, ← List.append_assoc, ← List.append_assoc, List.length_append,
    Nat.add_sub_cancel, List.take_left]

theorem mem_relativeSegments {source target : List String} {s : String}
    (h : s ∈ relativeSegments source target) : s = ".." ∨ s ∈ target := by
  obtain ⟨common, up, down, -, rfl, hrelative⟩ := exists_relativeSegments source target
  rw [hrelative] at h
  rcases List.mem_append.1 h with h | h
  · exact Or.inl (List.eq_of_mem_replicate h)
  · exact Or.inr (List.mem_append_right _ h)

/-- What both have at their start does not count. -/
theorem relativeSegments_append (common source target : List String) :
    relativeSegments (common ++ source) (common ++ target) = relativeSegments source target := by
  induction common with
  | nil => rfl
  | cons s common ih =>
    rw [← ih, List.cons_append, List.cons_append]
    unfold relativeSegments
    rw [dropCommon, if_pos rfl]

theorem relativeSegments_eq_dots_iff {source target : List String} (h : ".." ∉ target) :
    relativeSegments source target = [".."] ↔ ∃ last, source = target ++ [last] := by
  constructor
  · obtain ⟨common, up, down, rfl, rfl, hrelative⟩ := exists_relativeSegments source target
    intro hdots
    rw [hrelative] at hdots
    cases up with
    | nil =>
      rw [List.length_nil, List.replicate_zero, List.nil_append] at hdots
      rw [hdots] at h
      exact absurd (List.mem_append_right _ List.mem_cons_self) h
    | cons last up =>
      rw [List.length_cons, List.replicate_succ, List.cons_append, List.cons_eq_cons,
        List.append_eq_nil_iff, List.replicate_eq_nil_iff, List.length_eq_zero_iff] at hdots
      obtain ⟨-, rfl, rfl⟩ := hdots
      exact ⟨last, by rw [List.append_nil]⟩
  · rintro ⟨last, rfl⟩
    have happend := relativeSegments_append target [last] []
    rw [List.append_nil] at happend
    rw [happend]
    rfl

theorem head?_relativeSegments_iff {source target : List String} {s : String} (h : s ≠ "..") :
    (relativeSegments source target).head? = some s ↔ ∃ rest, target = source ++ s :: rest := by
  constructor
  · obtain ⟨common, up, down, rfl, rfl, hrelative⟩ := exists_relativeSegments source target
    intro hhead
    rw [hrelative] at hhead
    cases up with
    | nil =>
      obtain ⟨rest, hdown⟩ := List.head?_eq_some_iff.1 hhead
      rw [List.length_nil, List.replicate_zero, List.nil_append] at hdown
      exact ⟨rest, by rw [hdown, List.append_nil]⟩
    | cons last up => exact absurd (Option.some.inj hhead).symm h
  · rintro ⟨rest, rfl⟩
    have happend := relativeSegments_append source [] (s :: rest)
    rw [List.append_nil] at happend
    rw [happend]
    rfl

end Metamodel.Path

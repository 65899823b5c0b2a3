import Mathlib.Data.List.Induction
import Metamodel.Proofs.Path.Segments

/-!
# Courses

Where a path leads is told by its course: some levels up, and then down along names. Courses one
behind the other make up one course (`course_append`). Idle segments leave a course as it is, and
names lead down along themselves (`course_append_names`).
-/

namespace Metamodel.Path

/-- A segment that names a file or directory. -/
structure IsName (seg : String) : Prop where
  ne_empty : seg ≠ ""
  ne_dot : seg ≠ "."
  ne_dots : seg ≠ ".."
  noSlash : '/' ∉ seg.toList

/-- Some levels up, and then down along names. -/
structure Course where
  up : Nat
  down : List String
  deriving DecidableEq

namespace Course

/-- The course with one more segment behind it. -/
def step (c : Course) (seg : String) : Course :=
  if seg = "" ∨ seg = "." then c
  else if seg = ".." then
    if c.down = [] then ⟨c.up + 1, []⟩ else ⟨c.up, c.down.dropLast⟩
  else ⟨c.up, c.down ++ [seg]⟩

/-- Where the course leads from names below the root, above which there is nothing. -/
def follow (c : Course) (base : List String) : List String :=
  base.take (base.length - c.up) ++ c.down

/-- One course and then another. -/
def andThen (c d : Course) : Course :=
  ⟨c.up + (d.up - c.down.length), d.follow c.down⟩

variable {c d : Course} {seg : String}

theorem follow_of_up_eq_zero (h : c.up = 0) (base : List String) :
    c.follow base = base ++ c.down := by
  rw [follow, h, Nat.sub_zero, List.take_length]

theorem step_of_idle (h : seg = "" ∨ seg = ".") : c.step seg = c := if_pos h

theorem step_dots_of_nil (h : c.down = []) : c.step ".." = ⟨c.up + 1, []⟩ := by
  unfold step
  rw [if_neg (by decide), if_pos rfl, if_pos h]

theorem step_dots_concat (up : Nat) (down : List String) (name : String) :
    (⟨up, down ++ [name]⟩ : Course).step ".." = ⟨up, down⟩ := by
  unfold step
  rw [if_neg (by decide), if_pos rfl, if_neg (by simp), List.dropLast_concat]

theorem step_of_name (h : seg ≠ "") (hdot : seg ≠ ".") (hdots : seg ≠ "..") :
    c.step seg = ⟨c.up, c.down ++ [seg]⟩ := by
  unfold step
  rw [if_neg (by simp [h, hdot]), if_neg hdots]

/-- The segments of which a course is made up: one idles, one leads up and all others name. -/
theorem segment_cases (seg : String) :
    (seg = "" ∨ seg = ".") ∨ seg = ".." ∨ (seg ≠ "" ∧ seg ≠ "." ∧ seg ≠ "..") := by
  by_cases h : seg = "" ∨ seg = "."
  · exact Or.inl h
  · rw [not_or] at h
    by_cases hdots : seg = ".."
    · exact Or.inr (Or.inl hdots)
    · exact Or.inr (Or.inr ⟨h.1, h.2, hdots⟩)

theorem andThen_step : (c.andThen d).step seg = c.andThen (d.step seg) := by
  rcases segment_cases seg with h | rfl | ⟨h, hdot, hdots⟩
  · rw [step_of_idle h, step_of_idle h]
  · obtain ⟨up, down⟩ := d
    rcases List.eq_nil_or_concat' down with rfl | ⟨names, name, rfl⟩
    · rw [step_dots_of_nil (c := ⟨up, []⟩) rfl]
      simp only [andThen, follow, List.append_nil]
      by_cases hroot : c.down.length ≤ up
      · -- the second course leads above all names of the first
        rw [Nat.sub_eq_zero_of_le hroot, Nat.sub_eq_zero_of_le (Nat.le_succ_of_le hroot),
          List.take_zero, step_dots_of_nil (c := ⟨_, []⟩) rfl]
        simp only [Course.mk.injEq, and_true]
        omega
      · have hsome : c.down.length - up = (c.down.length - (up + 1)) + 1 := by omega
        have hlt : c.down.length - (up + 1) < c.down.length := by omega
        rw [hsome, List.take_add_one, List.getElem?_eq_getElem hlt, Option.toList_some,
          step_dots_concat]
        simp only [Course.mk.injEq, and_true]
        omega
    · rw [step_dots_concat]
      simp only [andThen, follow]
      rw [← List.append_assoc, step_dots_concat]
  · rw [step_of_name h hdot hdots, step_of_name h hdot hdots]
    simp only [andThen, follow, List.append_assoc]

end Course

/-- The course of segments. -/
def course (segs : List String) : Course :=
  segs.foldl Course.step ⟨0, []⟩

theorem course_concat (segs : List String) (seg : String) :
    course (segs ++ [seg]) = (course segs).step seg := by
  unfold course
  rw [List.foldl_append]
  rfl

/-- Segments behind segments lead on from where those lead. -/
theorem course_append (xs ys : List String) :
    course (xs ++ ys) = (course xs).andThen (course ys) := by
  induction ys using List.reverseRecOn with
  | nil =>
    rw [List.append_nil]
    simp [course, Course.andThen, Course.follow]
  | append_singleton ys seg ih =>
    rw [← List.append_assoc, course_concat, ih, Course.andThen_step, ← course_concat]

theorem down_course_append (xs ys : List String) :
    (course (xs ++ ys)).down = (course ys).follow (course xs).down := by
  rw [course_append]
  rfl

theorem course_append_of_idle (xs : List String) {ys : List String}
    (h : ∀ s ∈ ys, s = "" ∨ s = ".") : course (xs ++ ys) = course xs := by
  induction ys using List.reverseRecOn with
  | nil => rw [List.append_nil]
  | append_singleton ys seg ih =>
    rw [← List.append_assoc, course_concat,
      ih fun s hs => h s (List.mem_append_left _ hs),
      Course.step_of_idle (h seg (List.mem_append_right _ List.mem_cons_self))]

theorem course_idle_append {xs : List String} (h : ∀ s ∈ xs, s = "" ∨ s = ".")
    (ys : List String) : course (xs ++ ys) = course ys := by
  have hidle := course_append_of_idle [] h
  rw [List.nil_append] at hidle
  rw [course_append, hidle]
  simp [course, Course.andThen, Course.follow]

theorem course_idle_cons {s : String} (h : s = "" ∨ s = ".") (ys : List String) :
    course (s :: ys) = course ys := by
  rw [← List.singleton_append]
  exact course_idle_append (fun t ht => List.mem_singleton.1 ht ▸ h) ys

/-- Names lead down along themselves. -/
theorem course_append_names (xs : List String) {names : List String}
    (h : ∀ s ∈ names, IsName s) :
    course (xs ++ names) = ⟨(course xs).up, (course xs).down ++ names⟩ := by
  induction names using List.reverseRecOn with
  | nil => simp
  | append_singleton names name ih =>
    have hname := h name (List.mem_append_right _ List.mem_cons_self)
    rw [← List.append_assoc, course_concat, ih fun s hs => h s (List.mem_append_left _ hs),
      Course.step_of_name hname.ne_empty hname.ne_dot hname.ne_dots, List.append_assoc]

theorem course_names {names : List String} (h : ∀ s ∈ names, IsName s) :
    course names = ⟨0, names⟩ :=
  course_append_names [] h

theorem course_append_name (xs : List String) {name : String} (h : IsName name) :
    course (xs ++ [name]) = ⟨(course xs).up, (course xs).down ++ [name]⟩ :=
  course_append_names xs fun _ hs => List.mem_singleton.1 hs ▸ h

theorem course_name {name : String} (h : IsName name) : course [name] = ⟨0, [name]⟩ :=
  course_append_name [] h

theorem course_dots (n : Nat) : course (List.replicate n "..") = ⟨n, []⟩ := by
  induction n with
  | zero => rfl
  | succ n ih => rw [List.replicate_succ', course_concat, ih, Course.step_dots_of_nil rfl]

/-- A course leads down along segments that name something. -/
theorem mem_down {segs : List String} {s : String} (h : s ∈ (course segs).down) :
    s ∈ segs ∧ s ≠ "" ∧ s ≠ "." ∧ s ≠ ".." := by
  induction segs using List.reverseRecOn with
  | nil => cases h
  | append_singleton segs seg ih =>
    have hold (h : s ∈ (course segs).down) : s ∈ segs ++ [seg] ∧ s ≠ "" ∧ s ≠ "." ∧ s ≠ ".." :=
      ⟨List.mem_append_left _ (ih h).1, (ih h).2⟩
    rw [course_concat] at h
    rcases Course.segment_cases seg with hidle | rfl | ⟨hne, hdot, hdots⟩
    · rw [Course.step_of_idle hidle] at h
      exact hold h
    · refine hold ?_
      unfold Course.step at h
      rw [if_neg (by decide), if_pos rfl] at h
      split at h
      · cases h
      · exact List.dropLast_subset _ h
    · rw [Course.step_of_name hne hdot hdots] at h
      rcases List.mem_append.1 h with h | h
      · exact hold h
      · rw [List.mem_singleton.1 h]
        exact ⟨List.mem_append_right _ List.mem_cons_self, hne, hdot, hdots⟩

theorem isName_of_mem_down {segs : List String} (hsegs : ∀ s ∈ segs, '/' ∉ s.toList) {s : String}
    (h : s ∈ (course segs).down) : IsName s := by
  obtain ⟨hmem, hne, hdot, hdots⟩ := mem_down h
  exact ⟨hne, hdot, hdots, hsegs s hmem⟩

end Metamodel.Path

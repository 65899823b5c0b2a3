import Metamodel.Proofs.Artifact.File

/-!
# Module specifiers

A specifier leads from the directory of a file to a module (`resolve_specifier`), also below other
names than those from which it was made (`resolvedSegments_specifier`). It is known as relative by
its start, with two exceptions (`isDotted_specifier_iff`).
-/

namespace Metamodel

open Path

/-- The path starts where it stands, or one level above. -/
def Path.IsDotted (path : String) : Prop :=
  ∃ rest, path = "./" ++ rest ∨ path = "../" ++ rest

theorem Path.isDotted_iff {path : String} :
    IsDotted path ↔
      ∃ s rest, segments path = s :: rest ∧ rest ≠ [] ∧ (s = "." ∨ s = "..") := by
  constructor
  · rintro ⟨tail, rfl | rfl⟩
    · exact ⟨".", segments tail, segments_dot_slash tail, segments_ne_nil tail, Or.inl rfl⟩
    · exact ⟨"..", segments tail, segments_dots_slash tail, segments_ne_nil tail, Or.inr rfl⟩
  · rintro ⟨s, rest, hsegments, hrest, hs⟩
    obtain ⟨t, rest, rfl⟩ := List.exists_cons_of_ne_nil hrest
    have hpath : path = s ++ "/" ++ ofSegments (t :: rest) := by
      rw [← ofSegments_segments path, hsegments, ofSegments_cons_cons]
    have hdot : "./" = "." ++ "/" := by decide
    have hdots : "../" = ".." ++ "/" := by decide
    refine ⟨ofSegments (t :: rest), ?_⟩
    rw [hpath, hdot, hdots]
    exact hs.imp (congrArg fun s => s ++ "/" ++ ofSegments (t :: rest))
      (congrArg fun s => s ++ "/" ++ ofSegments (t :: rest))

namespace Derivation

/-- The segments of the path from the directory of a file to a module. -/
def stepsTo (file module : String) : List String :=
  relativeSegments (resolvedSegments [directory file]) (resolvedSegments [module])

variable {file module : String}

theorem mem_stepsTo {s : String} (h : s ∈ stepsTo file module) : s = ".." ∨ IsName s :=
  (mem_relativeSegments h).imp_right isName_of_mem_resolvedSegments

theorem noSlash_of_mem_stepsTo {s : String} (h : s ∈ stepsTo file module) : '/' ∉ s.toList := by
  rcases mem_stepsTo h with rfl | hname
  · decide
  · exact hname.noSlash

theorem specifier_eq (file module : String) :
    specifier file module =
      if (ofSegments (stepsTo file module)).toList.head? = some '.' then
        ofSegments (stepsTo file module)
      else "./" ++ ofSegments (stepsTo file module) := by
  unfold specifier
  simp only [beq_iff_eq]
  rfl

theorem segments_specifier (h : stepsTo file module ≠ []) :
    segments (specifier file module) =
      if (ofSegments (stepsTo file module)).toList.head? = some '.' then stepsTo file module
      else "." :: stepsTo file module := by
  have hsteps : segments (ofSegments (stepsTo file module)) = stepsTo file module :=
    segments_ofSegments h fun s hs => noSlash_of_mem_stepsTo hs
  rw [specifier_eq]
  split
  · exact hsteps
  · rw [segments_dot_slash, hsteps]

theorem specifier_of_nil (h : stepsTo file module = []) : specifier file module = "./" := by
  rw [specifier_eq, h]
  rfl

theorem course_specifier (file module : String) :
    course (segments (specifier file module)) = course (stepsTo file module) := by
  by_cases h : stepsTo file module = []
  · rw [specifier_of_nil h, h]
    rfl
  · rw [segments_specifier h]
    split
    · rfl
    · rw [course_idle_cons (Or.inr rfl)]

theorem isAbsolute_specifier (file module : String) :
    isAbsolute (specifier file module) = false := by
  rw [specifier_eq]
  split
  · rename_i h
    rw [isAbsolute, h]
    rfl
  · rw [isAbsolute_append (by decide)]
    rfl

/-- A specifier leads to its module below any names, if it is read where its file lies below them. -/
theorem resolvedSegments_specifier {base : String} {names : List String}
    (h : resolvedSegments [base] = names ++ resolvedSegments [directory file]) :
    resolvedSegments [base, specifier file module] = names ++ resolvedSegments [module] := by
  rw [resolvedSegments_pair (isAbsolute_specifier file module), course_specifier, h]
  exact follow_relativeSegments names _ fun s hs => isName_of_mem_resolvedSegments hs

theorem resolve_specifier (file module : String) :
    resolve [directory file, specifier file module] = resolve [module] := by
  rw [resolve_eq_resolve_iff, ← List.nil_append (resolvedSegments [module])]
  exact resolvedSegments_specifier (List.nil_append _).symm

theorem isDotted_specifier_iff_steps :
    IsDotted (specifier file module) ↔ stepsTo file module ≠ [".."] ∧
      ∀ s, (stepsTo file module).head? = some s → s = ".." ∨ s.toList.head? ≠ some '.' := by
  cases hsteps : stepsTo file module with
  | nil =>
    rw [specifier_of_nil hsteps]
    simp only [ne_eq, reduceCtorEq, not_false_eq_true, List.head?_nil, false_imp_iff, implies_true,
      and_self, iff_true]
    exact ⟨"", Or.inl String.append_empty.symm⟩
  | cons s rest =>
    have hmem : s ∈ stepsTo file module := hsteps ▸ List.mem_cons_self
    have hne : s ≠ "" ∧ s ≠ "." := by
      rcases mem_stepsTo hmem with rfl | hname
      · decide
      · exact ⟨hname.ne_empty, hname.ne_dot⟩
    have hnil : stepsTo file module ≠ [] := hsteps ▸ List.cons_ne_nil s rest
    have hsegments := segments_specifier hnil
    rw [hsteps, head?_ofSegments_cons hne.1] at hsegments
    rw [isDotted_iff, hsegments, List.head?_cons]
    by_cases hdot : s.toList.head? = some '.'
    · rw [if_pos hdot]
      constructor
      · rintro ⟨_, _, heq, hrest, hs⟩
        obtain ⟨rfl, rfl⟩ := List.cons_eq_cons.1 heq
        have hdots : s = ".." := hs.resolve_left hne.2
        refine ⟨fun h => hrest (List.cons_eq_cons.1 h).2, fun s' hs' => Or.inl ?_⟩
        rw [← Option.some.inj hs', hdots]
      · rintro ⟨hrest, hall⟩
        have hdots : s = ".." := (hall s rfl).resolve_right fun h => h hdot
        refine ⟨s, rest, rfl, ?_, Or.inr hdots⟩
        rintro rfl
        exact hrest (by rw [hdots])
    · rw [if_neg hdot]
      constructor
      · rintro -
        refine ⟨?_, fun s' hs' => Or.inr (Option.some.inj hs' ▸ hdot)⟩
        intro h
        rw [(List.cons_eq_cons.1 h).1] at hdot
        exact hdot (by decide)
      · rintro -
        exact ⟨".", s :: rest, rfl, List.cons_ne_nil _ _, Or.inl rfl⟩

/-- A specifier is known as relative by its start, unless the module is the directory above the file,
or lies below that of the file under a name that starts with a dot. -/
theorem isDotted_specifier_iff :
    IsDotted (specifier file module) ↔
      (∀ last, resolvedSegments [directory file] ≠ resolvedSegments [module] ++ [last]) ∧
        ∀ s rest, resolvedSegments [module] = resolvedSegments [directory file] ++ s :: rest →
          s.toList.head? ≠ some '.' := by
  have hdots : ".." ∉ resolvedSegments [module] := fun h =>
    (isName_of_mem_resolvedSegments h).ne_dots rfl
  rw [isDotted_specifier_iff_steps, stepsTo, Ne, relativeSegments_eq_dots_iff hdots, not_exists]
  refine and_congr_right fun _ => ⟨fun h s rest htarget => ?_, fun h s hhead => ?_⟩
  · have hs : s ≠ ".." := by
      rintro rfl
      exact hdots (htarget ▸ List.mem_append_right _ List.mem_cons_self)
    exact (h s ((head?_relativeSegments_iff hs).2 ⟨rest, htarget⟩)).resolve_left hs
  · by_cases hs : s = ".."
    · exact Or.inl hs
    · obtain ⟨rest, htarget⟩ := (head?_relativeSegments_iff hs).1 hhead
      exact Or.inr (h s rest htarget)

theorem specifier_of_dots (h : stepsTo file module = [".."]) : specifier file module = ".." := by
  rw [specifier_eq, h]
  rfl

end Derivation

end Metamodel

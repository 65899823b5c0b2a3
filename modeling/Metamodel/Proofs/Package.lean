import Metamodel.Package
import Metamodel.Proofs.Path.Resolution

/-!
# Directories of packages

The directory of a package is its name with slashes for the dots (`toList_packageDirectory`). It
leads down along the names between them, never up (`course_packageDirectory`); a dot or slash at
the start of the name makes it a path from the root. Packages of other names can have the same
directory (`SameDirectory`), but not when their names are proper (`sameDirectory_iff_eq`).
-/

namespace Metamodel

open Path

/-- The names along which the directory of a package lies. -/
def packageParts (packageName : String) : List String :=
  (segments (packageDirectory packageName)).filter (· ≠ "")

/-- The packages have one directory. -/
def SameDirectory (p q : String) : Prop :=
  isAbsolute (packageDirectory p) = isAbsolute (packageDirectory q) ∧
    packageParts p = packageParts q

/-- The package is unnamed, or the names between its dots are not empty and hold no slash. -/
def IsProperPackage (p : String) : Prop :=
  p = "" ∨ ∀ s ∈ Text.splitText '.' p, s ≠ "" ∧ '/' ∉ s.toList

variable {p q : String}

theorem SameDirectory.refl (p : String) : SameDirectory p p := ⟨rfl, rfl⟩

theorem SameDirectory.symm (h : SameDirectory p q) : SameDirectory q p := ⟨h.1.symm, h.2.symm⟩

theorem toList_packageDirectory (p : String) :
    (packageDirectory p).toList = p.toList.map fun c => if c = '.' then '/' else c := by
  unfold packageDirectory
  split
  · rename_i h
    rw [h]
    rfl
  · rw [toList_ofSegments, Text.map_toList_splitText, Text.join_split]

theorem packageDirectory_eq_empty_iff : packageDirectory p = "" ↔ p = "" := by
  rw [← String.toList_eq_nil_iff, toList_packageDirectory, List.map_eq_nil_iff,
    String.toList_eq_nil_iff]

theorem dot_notMem_of_mem_segments {s : String} (h : s ∈ segments (packageDirectory p)) :
    '.' ∉ s.toList := by
  intro hdot
  have hchar := subset_of_mem_segments h hdot
  rw [toList_packageDirectory, List.mem_map] at hchar
  obtain ⟨c, -, hc⟩ := hchar
  split at hc
  · exact absurd hc (by decide)
  · contradiction

theorem isName_of_mem_segments {s : String} (h : s ∈ segments (packageDirectory p)) (hs : s ≠ "") :
    IsName s where
  ne_empty := hs
  ne_dot := by
    rintro rfl
    exact dot_notMem_of_mem_segments h (by decide)
  ne_dots := by
    rintro rfl
    exact dot_notMem_of_mem_segments h (by decide)
  noSlash := notMem_slash h

theorem isName_of_mem_packageParts {s : String} (h : s ∈ packageParts p) : IsName s := by
  obtain ⟨hmem, hs⟩ := List.mem_filter.1 h
  exact isName_of_mem_segments hmem (by simpa using hs)

theorem dot_notMem_of_mem_packageParts {s : String} (h : s ∈ packageParts p) : '.' ∉ s.toList :=
  dot_notMem_of_mem_segments (List.mem_filter.1 h).1

/-- The directory of a package lies below where it starts, along its parts. -/
theorem course_packageDirectory (p : String) :
    course (segments (packageDirectory p)) = ⟨0, packageParts p⟩ := by
  have hcourse := course_flatMap_filter (segments (packageDirectory p))
  have hself : (segments (packageDirectory p)).flatMap segments = segments (packageDirectory p) := by
    rw [← segments_ofSegments_flatMap (segments_ne_nil _), ofSegments_segments]
  have hparts : (packageParts p).flatMap segments = packageParts p := by
    have hsegments : ∀ s ∈ packageParts p, segments s = [s] := fun s hs =>
      segments_of_notMem (isName_of_mem_packageParts hs).noSlash
    rw [List.flatMap_congr hsegments, List.flatMap_singleton']
  rw [hself] at hcourse
  rw [← hcourse, ← packageParts, hparts]
  exact course_names fun s hs => isName_of_mem_packageParts hs

theorem isAbsolute_packageDirectory_iff :
    isAbsolute (packageDirectory p) = true ↔
      p.toList.head? = some '.' ∨ p.toList.head? = some '/' := by
  rw [isAbsolute, beq_iff_eq, toList_packageDirectory, List.head?_map]
  cases p.toList.head? with
  | none => simp
  | some c =>
    simp only [Option.map_some, Option.some.injEq]
    by_cases hc : c = '.' <;> simp [hc]

/-! ## Proper names -/

theorem splitText_ne_nil (sep : Char) (s : String) : Text.splitText sep s ≠ [] := by
  rw [Text.splitText, Ne, List.map_eq_nil_iff]
  exact Text.split_ne_nil _ _

theorem IsProperPackage.packageParts_eq (h : IsProperPackage p) (hne : p ≠ "") :
    packageParts p = Text.splitText '.' p := by
  have hproper := h.resolve_left hne
  rw [packageParts, packageDirectory, if_neg hne,
    segments_ofSegments (splitText_ne_nil _ _) fun s hs => (hproper s hs).2, List.filter_eq_self]
  intro s hs
  simpa using (hproper s hs).1

/-- Proper packages have directories of their own. -/
theorem sameDirectory_iff_eq (hp : IsProperPackage p) (hq : IsProperPackage q) :
    SameDirectory p q ↔ p = q := by
  constructor
  · rintro ⟨-, hparts⟩
    by_cases hpe : p = ""
    · by_cases hqe : q = ""
      · rw [hpe, hqe]
      · rw [hq.packageParts_eq hqe, hpe] at hparts
        exact absurd hparts.symm (splitText_ne_nil _ _)
    · by_cases hqe : q = ""
      · rw [hp.packageParts_eq hpe, hqe] at hparts
        exact absurd hparts (splitText_ne_nil _ _)
      · rw [hp.packageParts_eq hpe, hq.packageParts_eq hqe] at hparts
        exact Text.splitText_injective '.' hparts
  · rintro rfl
    exact .refl p

end Metamodel

import Metamodel.Declaration.Json
import Metamodel.Proofs.Artifact.File
import Metamodel.Proofs.Run.Access

/-!
# Files below the output directory

A file lies below every output directory exactly when neither its package nor its class leads out
(`isBelow_iff`). Class names of declarations are free, and a package can start with a dot, so that
a run can write elsewhere (`exists_file_outside`).
-/

namespace Metamodel

namespace Path

/-- The path lies strictly below the directory. -/
def IsBelow (dir path : String) : Prop :=
  ∃ rest, rest ≠ [] ∧ resolvedSegments [path] = resolvedSegments [dir] ++ rest

theorem EndsIn.down_ne_nil {p name : String} (h : EndsIn p name) :
    (course (segments p)).down ≠ [] := by
  have hdown := h.resolvedSegments_directory
  rw [resolvedSegments_singleton] at hdown
  rw [hdown]
  exact List.append_ne_nil_of_right_ne_nil _ (List.cons_ne_nil _ _)

/-- Files lie below all directories when their paths neither start at the root nor lead upwards. -/
theorem EndsIn.forall_isBelow_iff {p name : String} (h : EndsIn p name) :
    (∀ out, isAbsolute out = true → IsBelow out (resolve [out, p])) ↔
      isAbsolute p = false ∧ climb p = 0 := by
  constructor
  · intro hall
    by_contra hout
    -- such a path leads to one place from both of these directories
    have hsame : resolvedSegments ["/a", p] = resolvedSegments ["/b", p] := by
      cases habs : isAbsolute p with
      | true =>
        rw [resolvedSegments_pair_of_isAbsolute habs, resolvedSegments_pair_of_isAbsolute habs]
      | false =>
        have hclimb : climb p ≠ 0 := fun hzero => hout ⟨habs, hzero⟩
        have hnone : 1 - (course (segments p)).up = 0 :=
          Nat.sub_eq_zero_of_le (Nat.one_le_iff_ne_zero.2 hclimb)
        rw [resolvedSegments_pair habs, resolvedSegments_pair habs, Course.follow, Course.follow]
        have ha : resolvedSegments ["/a"] = ["a"] := by decide
        have hb : resolvedSegments ["/b"] = ["b"] := by decide
        rw [ha, hb, List.length_singleton, List.length_singleton, hnone, List.take_zero,
          List.take_zero]
    obtain ⟨rest, -, ha⟩ := hall "/a" (by decide)
    obtain ⟨rest', -, hb⟩ := hall "/b" (by decide)
    rw [resolvedSegments_resolve, hsame] at ha
    rw [resolvedSegments_resolve, ha] at hb
    exact absurd (List.head_eq_of_cons_eq hb) (by decide)
  · rintro ⟨habs, hclimb⟩ out -
    refine ⟨(course (segments p)).down, h.down_ne_nil, ?_⟩
    rw [resolvedSegments_resolve, resolvedSegments_pair habs, Course.follow_of_up_eq_zero hclimb]

end Path

open Path

/-- Neither the package nor the name of the file leads out of the output directory. -/
structure Artifact.IsContained (a : Artifact) : Prop where
  noDot : a.packageName.toList.head? ≠ some '.'
  noSlash : a.packageName.toList.head? ≠ some '/'
  unnamed : a.packageName = "" → isAbsolute a.baseName = false
  climb_le : climb (a.baseName ++ ".ts") ≤ (packageParts a.packageName).length

namespace Artifact

variable {a : Artifact}

theorem isContained_iff :
    a.IsContained ↔ isAbsolute (packageFile a.packageName a.baseName) = false ∧
      climb (packageFile a.packageName a.baseName) = 0 := by
  have hbase : isAbsolute (a.baseName ++ ".ts") = isAbsolute a.baseName := by
    by_cases h : a.baseName = ""
    · rw [h]
      rfl
    · exact isAbsolute_append h _
  have hclimb : isAbsolute (packageFile a.packageName a.baseName) = false →
      climb (packageFile a.packageName a.baseName) =
        climb (a.baseName ++ ".ts") - (packageParts a.packageName).length := by
    intro habs
    rw [climb, course_packageFile, habs]
    rfl
  have habs : isAbsolute (packageFile a.packageName a.baseName) = false ↔
      a.packageName.toList.head? ≠ some '.' ∧ a.packageName.toList.head? ≠ some '/' ∧
        (a.packageName = "" → isAbsolute a.baseName = false) := by
    rw [isAbsolute_packageFile, hbase]
    by_cases h : a.packageName = ""
    · rw [if_pos h, h]
      simp
    · rw [if_neg h, ← Bool.not_eq_true, isAbsolute_packageDirectory_iff]
      simp [h]
  constructor
  · intro h
    have hrelative := habs.2 ⟨h.noDot, h.noSlash, h.unnamed⟩
    exact ⟨hrelative, (hclimb hrelative).trans (Nat.sub_eq_zero_of_le h.climb_le)⟩
  · rintro ⟨hrelative, hzero⟩
    obtain ⟨hdot, hslash, hunnamed⟩ := habs.1 hrelative
    rw [hclimb hrelative] at hzero
    exact ⟨hdot, hslash, hunnamed, Nat.le_of_sub_eq_zero hzero⟩

/-- Classes whose names hold no slash are contained in their packages. -/
theorem isContained_of_noSlash (hname : '/' ∉ a.baseName.toList)
    (hdot : a.packageName.toList.head? ≠ some '.')
    (hslash : a.packageName.toList.head? ≠ some '/') : a.IsContained := by
  refine ⟨hdot, hslash, fun _ => isAbsolute_of_notMem hname, ?_⟩
  have hfile := isName_file hname
  rw [climb, segments_of_notMem hfile.noSlash, course_name hfile]
  exact Nat.zero_le _

end Artifact

namespace Run

/-- A file of a run lies strictly below the output directory, whichever that is, exactly when
neither its package nor its name leads out. -/
theorem isBelow_iff {s : DeclarationSource} {config : Config} {outDir : String} {a : Artifact}
    (ha : a ∈ (process s config outDir).artifacts) :
    (∀ out, isAbsolute out = true → IsBelow out (resolve [out, a.fileName])) ↔ a.IsContained := by
  obtain ⟨-, ha⟩ := mem_artifacts_process_iff.1 ha
  obtain ⟨last, hlast⟩ := exists_endsIn_packageFile a.packageName a.baseName
  rw [Artifact.fileName_eq ha, hlast.forall_isBelow_iff, Artifact.isContained_iff]

theorem isBelow_order :
    ∃ a ∈ (Sample.run Sample.declarations).artifacts, a.fileName = "shop/GeneratedOrder.ts" ∧
      ∀ out, isAbsolute out = true → IsBelow out (resolve [out, a.fileName]) := by
  have hfile : ((Sample.run Sample.declarations).artifacts.any fun a =>
      a.fileName == "shop/GeneratedOrder.ts" && a.packageName == "shop" &&
        a.baseName == "GeneratedOrder") = true := by decide +kernel
  obtain ⟨a, ha, horder⟩ := List.any_eq_true.1 hfile
  simp only [Bool.and_eq_true, beq_iff_eq] at horder
  obtain ⟨⟨hname, hpackage⟩, hbase⟩ := horder
  refine ⟨a, ha, hname, (isBelow_iff ha).2 (Artifact.isContained_of_noSlash ?_ ?_ ?_)⟩
  · rw [hbase]
    decide
  · rw [hpackage]
    decide
  · rw [hpackage]
    decide

end Run

namespace Sample

/-- A declaration set with a superclass in a package whose name starts with a dot. -/
def hiddenSet : Json :=
  .object
    [("schemaVersion", .string "1.0"),
      ("declarations", .array [.object
        [("packageName", .string ".etc"), ("simpleName", .string "Base"),
          ("qualifiedName", .string ".etc.Base"), ("declarationKind", .string "CLASS"),
          ("annotations", .array [.object [("name", .string "Superclass")]])]])]

theorem parse_hiddenSet : parseDeclarationSet hiddenSet none = .ok hiddenSet := by
  have hvalid : Declaration.setProblems hiddenSet = [] := by
    simp [Declaration.setProblems, hiddenSet, Schema.problems, Schema.recordProblems,
      Schema.memberProblems, Declaration.records, List.lookup_cons, declarationSetVersion,
      DeclarationKind.all, DeclarationKind.text]
  unfold parseDeclarationSet
  rw [hvalid]

end Sample

/-- The class of a package that starts with a dot is written below the root, wherever the output
goes. -/
theorem exists_file_outside :
    ∃ v, parseDeclarationSet v none = .ok v ∧
      ∃ a ∈ (Sample.run (Declaration.listOfSet v)).artifacts,
        resolve ["/work/out", a.fileName] = "/etc/Base_.ts" ∧
          ¬ IsBelow "/work/out" (resolve ["/work/out", a.fileName]) := by
  refine ⟨Sample.hiddenSet, Sample.parse_hiddenSet, ?_⟩
  have hfile : ((Sample.run (Declaration.listOfSet Sample.hiddenSet)).artifacts.any fun a =>
      resolve ["/work/out", a.fileName] == "/etc/Base_.ts") = true := by decide +kernel
  obtain ⟨a, ha, hetc⟩ := List.any_eq_true.1 hfile
  rw [beq_iff_eq] at hetc
  refine ⟨a, ha, hetc, ?_⟩
  rintro ⟨rest, -, hbelow⟩
  have hroot : resolvedSegments ["/etc/Base_.ts"] = ["etc", "Base_.ts"] := by decide +kernel
  have hout : resolvedSegments ["/work/out"] = ["work", "out"] := by decide +kernel
  rw [hetc, hroot, hout] at hbelow
  exact absurd (List.head_eq_of_cons_eq hbelow) (by decide)

end Metamodel

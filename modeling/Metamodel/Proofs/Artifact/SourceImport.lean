import Metamodel.Proofs.Artifact.Linking
import Metamodel.Proofs.Entity.Naming

/-!
# Imports of declaring types

The files of a node import the type that declares it by a path that is made below the root and read
below the project. It leads to the source exactly when output and source leave the project by the
same number of levels, if at all (`leadsToSource_iff`); and it is known as relative unless the source
lies in the directory of the file or below, under a name that starts with a dot.
-/

namespace Metamodel

open Path

namespace Derivation

/-! ## Modules of sources -/

/-- Only an ending is dropped. -/
theorem exists_ending (file : String) :
    ∃ ending, file.toList = (dropSourceEnding file).toList ++ ending := by
  unfold dropSourceEnding
  cases hfound : sourceEndings.findSome? (Naming.after? · file.toList.reverse) with
  | none =>
    simp only [hfound]
    exact ⟨[], (List.append_nil _).symm⟩
  | some rest =>
    obtain ⟨word, -, hword⟩ := List.exists_of_findSome?_eq_some hfound
    rw [Naming.after?_eq_some_iff] at hword
    have hfile : file.toList = rest.reverse ++ word.reverse := by
      rw [← List.reverse_append, ← hword, List.reverse_reverse]
    simp only [hfound, String.toList_ofList]
    cases hdeclared : Naming.after? "d.".toList rest with
    | none => exact ⟨word.reverse, hfile⟩
    | some inner =>
      rw [Naming.after?_eq_some_iff] at hdeclared
      refine ⟨"d.".toList.reverse ++ word.reverse, ?_⟩
      rw [hfile, hdeclared, List.reverse_append, List.append_assoc, Option.getD_some]

theorem isAbsolute_dropSourceEnding {file : String} (h : isAbsolute file = false) :
    isAbsolute (dropSourceEnding file) = false := by
  obtain ⟨ending, hfile⟩ := exists_ending file
  unfold isAbsolute at h ⊢
  cases hmodule : (dropSourceEnding file).toList with
  | nil => rfl
  | cons c cs =>
    rw [hfile, hmodule] at h
    exact h

theorem sourceModule_of_file {e : Entity} {l : Location} (hl : e.source = some l)
    (hfile : l.file ≠ "") : sourceModule e = dropSourceEnding l.file := by
  unfold sourceModule
  rw [hl, Option.filter_some, if_pos (by simpa using hfile)]

end Derivation

/-! ## Below a root -/

section Root

variable (root dir : String)

/-- A path that is put behind a root leads to where it leads by itself, below what is left of the
root. -/
theorem Path.resolvedSegments_join_root (file : String) :
    resolvedSegments [join [root, dir, file]] =
      (resolvedSegments [root]).take
        ((resolvedSegments [root]).length - climb (dir ++ "/" ++ file)) ++
      resolvedSegments [join [dir, file]] := by
  have hparts : [dir, file].flatMap segments = segments dir ++ segments file := by
    simp
  rw [resolvedSegments_join_cons, resolvedSegments_join, hparts, climb, segments_append_slash,
    Course.follow]

theorem Path.EndsIn.resolvedSegments_directory_root {file name : String} (h : EndsIn file name) :
    resolvedSegments [directory (join [root, dir, file])] =
      (resolvedSegments [root]).take
        ((resolvedSegments [root]).length - climb (dir ++ "/" ++ file)) ++
      resolvedSegments [directory (join [dir, file])] := by
  have hroot := (h.join [root, dir]).resolvedSegments_directory
  have hdir := (h.join [dir]).resolvedSegments_directory
  simp only [List.cons_append, List.nil_append] at hroot hdir
  rw [resolvedSegments_join_root, hdir, ← List.append_assoc] at hroot
  exact (List.append_cancel_right hroot).symm

end Root

theorem take_length_sub_eq_iff {α : Type} {xs : List α} {m n : Nat} :
    xs.take (xs.length - m) = xs.take (xs.length - n) ↔ xs.length - m = xs.length - n := by
  constructor
  · intro h
    have hlength := congrArg List.length h
    simp only [List.length_take] at hlength
    omega
  · intro h
    rw [h]

namespace Derivation

variable {g : Graph} {o : DeriveOptions} {e : Entity} {a : Artifact}

/-- Every file of a node imports the type that declares it. -/
theorem exists_brings_sourceRequest (ha : a ∈ nodeArtifacts g o e) :
    ∃ c typeOnly, a.fileName = outputFile e c ∧
      Import.Brings a.imports (sourceRequest o e c typeOnly) := by
  rcases mem_nodeArtifacts_iff.1 ha with ⟨-, rfl⟩ | rfl
  · refine ⟨e.implementationClass, e.isInterface, rfl, Import.brings_collect_iff.2 ?_⟩
    exact List.mem_append_right _ (List.mem_singleton.2 rfl)
  · refine ⟨e.metadataClass, true, rfl, Import.brings_collect_iff.2 ?_⟩
    refine List.mem_append_left _ (List.mem_append_left _ ?_)
    simp [sourceRequest]

/-- A file of a node imports the declaring type by a relative path. Read from where the file lies in
the project, the path leads to the source exactly when output and source lie the same number of
levels above the project, as far as there are any. It starts with a dot and a slash, or two dots and
a slash, unless the source is the directory above the file or lies below that of the file under a
name that starts with a dot. -/
theorem leadsToSource_iff (ha : a ∈ nodeArtifacts g o e) {l : Location} (hl : e.source = some l)
    (hfile : l.file ≠ "") (hrelative : isAbsolute l.file = false) (root : String) :
    ∃ c typeOnly, a.fileName = outputFile e c ∧
      Import.Brings a.imports (sourceRequest o e c typeOnly) ∧
      (resolve [directory (join [root, o.outDir, a.fileName]),
          (sourceRequest o e c typeOnly).module] = resolve [root, dropSourceEnding l.file] ↔
        (resolvedSegments [root]).length - climb (o.outDir ++ "/" ++ a.fileName) =
          (resolvedSegments [root]).length - climb (dropSourceEnding l.file)) ∧
      (IsDotted (sourceRequest o e c typeOnly).module ↔
        (∀ last, resolvedSegments [directory (join [o.outDir, a.fileName])] ≠
          resolvedSegments [dropSourceEnding l.file] ++ [last]) ∧
        ∀ s rest, resolvedSegments [dropSourceEnding l.file] =
          resolvedSegments [directory (join [o.outDir, a.fileName])] ++ s :: rest →
            s.toList.head? ≠ some '.') := by
  obtain ⟨c, typeOnly, hname, hbrings⟩ := exists_brings_sourceRequest ha
  obtain ⟨last, hlast⟩ := exists_endsIn_packageFile e.packageName c
  have hmodule : (sourceRequest o e c typeOnly).module =
      specifier (join [o.outDir, a.fileName]) (dropSourceEnding l.file) := by
    rw [hname, ← sourceModule_of_file hl hfile, sourceRequest]
  have hends : EndsIn a.fileName last := hname ▸ hlast
  refine ⟨c, typeOnly, hname, hbrings, ?_, ?_⟩
  · have hsource := resolvedSegments_pair (p := root) (isAbsolute_dropSourceEnding hrelative)
    rw [Course.follow, ← resolvedSegments_singleton] at hsource
    rw [hmodule, resolve_eq_resolve_iff,
      resolvedSegments_specifier (hends.resolvedSegments_directory_root root o.outDir), hsource,
      List.append_cancel_right_eq]
    exact take_length_sub_eq_iff
  · rw [hmodule]
    exact isDotted_specifier_iff

end Derivation

/-! ## Sources of a project -/

namespace Sample

/-- A type of the package `shop` that is declared in the file. -/
def declaredIn (file : String) : Entity :=
  { mapped .superclass "Order" [] with
    packageName := "shop"
    source := some ⟨file, none, none⟩ }

/-- The metadata of a type that is declared in the file, for an output directory. -/
def metadataOf (file outDir : String) : Artifact :=
  .metadata (Derivation.metadata (Graph.assemble [] [declaredIn file] [])
    ⟨"runtime", outDir, true⟩ (declaredIn file))

end Sample

namespace Derivation

theorem leadsToSource_order :
    ∃ r, Import.Brings (Sample.metadataOf "src/shop/Order.ts" "generated").imports r ∧
      r.name = "Order" ∧ IsDotted r.module ∧
      resolve [directory (join ["/work/project", "generated", "shop/Order_.ts"]), r.module] =
        resolve ["/work/project", "src/shop/Order"] := by
  have ha : Sample.metadataOf "src/shop/Order.ts" "generated" ∈ nodeArtifacts
      (Graph.assemble [] [Sample.declaredIn "src/shop/Order.ts"] []) ⟨"runtime", "generated", true⟩
      (Sample.declaredIn "src/shop/Order.ts") := mem_nodeArtifacts_iff.2 (Or.inr rfl)
  obtain ⟨c, typeOnly, -, hbrings, hleads, hdotted⟩ :=
    leadsToSource_iff ha rfl (by decide) (by decide) "/work/project"
  have hname : (Sample.metadataOf "src/shop/Order.ts" "generated").fileName = "shop/Order_.ts" := by
    decide +kernel
  have hmodule : dropSourceEnding "src/shop/Order.ts" = "src/shop/Order" := by decide +kernel
  have hdirectory : resolvedSegments [directory (join ["generated", "shop/Order_.ts"])] =
      ["generated", "shop"] := by decide +kernel
  have hsource : resolvedSegments ["src/shop/Order"] = ["src", "shop", "Order"] := by decide +kernel
  rw [hname, hmodule] at hleads hdotted
  refine ⟨_, hbrings, rfl, hdotted.2 ?_, hleads.2 (by decide +kernel)⟩
  rw [hdirectory, hsource]
  constructor
  · intro last h
    exact absurd (List.head_eq_of_cons_eq h) (by decide)
  · intro s rest h
    exact absurd (List.head_eq_of_cons_eq h) (by decide)

/-- From an output directory beside the project, the import misses the source by the name of the
project; and a source in a hidden directory is not imported by a relative path. -/
theorem exists_lost_source :
    (Import.Brings (Sample.metadataOf "src/shop/Order.ts" "../out").imports
        ⟨"../../src/shop/Order", "Order", true⟩ ∧
      resolve [directory (join ["/work/project", "../out", "shop/Order_.ts"]),
        "../../src/shop/Order"] = "/work/src/shop/Order") ∧
    Import.Brings (Sample.metadataOf "shop/.hidden/Order.ts" ".").imports
      ⟨".hidden/Order", "Order", true⟩ ∧ ¬ IsDotted ".hidden/Order" := by
  refine ⟨⟨Import.brings_collect_iff.2 (by decide +kernel), by decide +kernel⟩,
    Import.brings_collect_iff.2 (by decide +kernel), ?_⟩
  rw [isDotted_iff]
  rintro ⟨s, rest, hsegments, -, hs⟩
  have hhidden : segments ".hidden/Order" = [".hidden", "Order"] := by decide +kernel
  rw [hhidden, List.cons_eq_cons] at hsegments
  rw [← hsegments.1] at hs
  exact absurd hs (by decide)

end Derivation

end Metamodel

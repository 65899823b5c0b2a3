import Metamodel.Proofs.Package

/-!
# Source files and their packages

The package of a file is spelled from the names of its directories, with dots between them. Reading
the package back, at its dots, gives the names cut at theirs, and those of a backslash are cut before
(`packageDirectory_packageOfFile`). So the directory comes back exactly when there is nothing to cut
(`packageDirectory_eq_directory_iff`), and directories whose names are cut into the same parts share
their package (`packageOfFile_eq_iff`).
-/

namespace Metamodel

open Path

/-! ## Names of packages -/

/-- The names between the dots of a package; the unnamed package has none. -/
def packageNames (packageName : String) : List String :=
  if packageName = "" then [] else Text.splitText '.' packageName

theorem packageDirectory_eq_ofSegments (p : String) :
    packageDirectory p = ofSegments (packageNames p) := by
  unfold packageDirectory packageNames
  split <;> rfl

theorem packageNames_injective : Function.Injective packageNames := by
  intro p q h
  unfold packageNames at h
  by_cases hp : p = "" <;> by_cases hq : q = ""
  · rw [hp, hq]
  · rw [if_pos hp, if_neg hq] at h
    exact absurd h.symm (splitText_ne_nil _ _)
  · rw [if_neg hp, if_pos hq] at h
    exact absurd h (splitText_ne_nil _ _)
  · rw [if_neg hp, if_neg hq] at h
    exact Text.splitText_injective '.' h

theorem splitText_eq_singleton_empty {sep : Char} {s : String} (h : Text.splitText sep s = [""]) :
    s = "" := by
  have hempty : Text.splitText sep "" = [""] := rfl
  exact Text.splitText_injective sep (h.trans hempty.symm)

/-- Names with dots between them are read back cut at their own dots. -/
theorem packageNames_intercalate {names : List String} (h : ∀ s ∈ names, s ≠ "") :
    packageNames (".".intercalate names) = names.flatMap (Text.splitText '.') := by
  by_cases hne : names = []
  · rw [hne]
    rfl
  have hsplit : Text.splitText '.' (".".intercalate names) =
      names.flatMap (Text.splitText '.') := by
    rw [Text.splitText, String.toList_intercalate, Text.intercalate_eq_join,
      show ".".toList = ['.'] from rfl, Text.split_join_flatMap _ (by simpa using hne),
      List.flatMap_map, List.map_flatMap]
    rfl
  rw [packageNames, if_neg, hsplit]
  intro hempty
  rw [hempty] at hsplit
  -- only one empty name is cut into one empty part
  obtain ⟨s, rest, rfl⟩ := List.exists_cons_of_ne_nil hne
  obtain ⟨part, parts, hparts⟩ := List.exists_cons_of_ne_nil (splitText_ne_nil '.' s)
  rw [List.flatMap_cons, hparts, List.cons_append, show Text.splitText '.' "" = [""] from rfl] at hsplit
  obtain ⟨hpart, hrest⟩ := List.cons_eq_cons.1 hsplit
  rw [← hpart, (List.append_eq_nil_iff.1 hrest.symm).1] at hparts
  exact h s List.mem_cons_self (splitText_eq_singleton_empty hparts)

theorem qualify_eq_qualify_iff {p q name : String} : qualify p name = qualify q name ↔ p = q := by
  refine ⟨fun h => ?_, fun h => by rw [h]⟩
  have hlength (p : String) : (qualify p name).toList.length =
      (if p = "" then 0 else p.toList.length + 1) + name.toList.length := by
    unfold qualify
    split
    · rw [Nat.zero_add]
    · simp only [String.toList_append, List.length_append]
      rfl
  have hlengths := (hlength p).symm.trans ((congrArg (·.toList.length) h).trans (hlength q))
  by_cases hp : p = "" <;> by_cases hq : q = ""
  · rw [hp, hq]
  · rw [if_pos hp, if_neg hq] at hlengths
    omega
  · rw [if_neg hp, if_pos hq] at hlengths
    omega
  · unfold qualify at h
    rw [if_neg hp, if_neg hq] at h
    exact (String.append_left_inj _).1 ((String.append_left_inj _).1 h)

/-! ## Source files -/

/-- A file of a project: the names of the directories above it, and its own. -/
structure SourcePath where
  directories : List String
  name : String
  isName : ∀ s ∈ directories ++ [name], IsName s
  /-- other systems take a backslash for a slash -/
  noBackslash : '\\' ∉ name.toList

namespace SourcePath

/-- The path of the file in the project. -/
def path (f : SourcePath) : String :=
  ofSegments (f.directories ++ [f.name])

/-- The path of its directory in the project, which is empty at the root. -/
def directory (f : SourcePath) : String :=
  ofSegments f.directories

/-- The directories as a package spells them: backslashes are slashes. -/
def spelled (f : SourcePath) : List String :=
  (f.directories.flatMap (Text.splitText '\\')).filter (· ≠ "")

/-- The directories as they are read off a package: cut at their dots, too. -/
def parts (f : SourcePath) : List String :=
  f.spelled.flatMap (Text.splitText '.')

/-- The names of the directories hold nothing at which they are cut. -/
def IsPlain (f : SourcePath) : Prop :=
  ∀ d ∈ f.directories, '.' ∉ d.toList ∧ '\\' ∉ d.toList

variable (f : SourcePath)

theorem isName_of_mem {d : String} (h : d ∈ f.directories) : IsName d :=
  f.isName d (List.mem_append_left _ h)

theorem isName_name : IsName f.name :=
  f.isName f.name (by simp)

theorem directory_eq_empty_iff : f.directory = "" ↔ f.directories = [] :=
  ofSegments_eq_empty_iff fun _ hs => (f.isName_of_mem hs).ne_empty

end SourcePath

/-! ## Backslashes -/

theorem toList_withSlashes (p : String) :
    (withSlashes p).toList = p.toList.map fun c => if c = '\\' then '/' else c := by
  rw [withSlashes, String.toList_ofList]

theorem withSlashes_of_notMem {p : String} (h : '\\' ∉ p.toList) : withSlashes p = p := by
  rw [← String.toList_inj, toList_withSlashes]
  refine (List.map_congr_left fun c hc => if_neg ?_).trans (List.map_id _)
  rintro rfl
  exact h hc

theorem withSlashes_append (p q : String) : withSlashes (p ++ q) = withSlashes p ++ withSlashes q := by
  rw [← String.toList_inj]
  simp only [toList_withSlashes, String.toList_append, List.map_append]

theorem withSlashes_ofSegments (segs : List String) :
    withSlashes (ofSegments segs) = ofSegments (segs.map withSlashes) := by
  induction segs with
  | nil => rfl
  | cons s segs ih =>
    cases segs with
    | nil => rfl
    | cons t segs =>
      rw [List.map_cons, List.map_cons, ofSegments_cons_cons, ofSegments_cons_cons,
        withSlashes_append, withSlashes_append, ih]
      rfl

theorem withSlashes_eq_ofSegments (s : String) :
    withSlashes s = ofSegments (Text.splitText '\\' s) := by
  rw [← String.toList_inj, toList_withSlashes, toList_ofSegments, Text.map_toList_splitText,
    Text.join_split]

theorem segments_withSlashes {s : String} (h : '/' ∉ s.toList) :
    segments (withSlashes s) = Text.splitText '\\' s := by
  rw [withSlashes_eq_ofSegments]
  refine segments_ofSegments (splitText_ne_nil _ _) fun t ht hslash => h ?_
  obtain ⟨cs, hcs, rfl⟩ := List.mem_map.1 ht
  rw [String.toList_ofList] at hslash
  exact Text.subset_of_mem_split hcs hslash

namespace SourcePath

variable (f : SourcePath)

theorem segments_withSlashes_directory (hne : f.directories ≠ []) :
    segments (withSlashes f.directory) = f.directories.flatMap (Text.splitText '\\') := by
  rw [directory, withSlashes_ofSegments, segments_ofSegments_flatMap (by simpa using hne),
    List.flatMap_map]
  exact List.flatMap_congr fun d hd => segments_withSlashes (f.isName_of_mem hd).noSlash

theorem withSlashes_directory_ne_dot (hne : f.directories ≠ []) :
    withSlashes f.directory ≠ "." := by
  intro hdot
  have hsegments := f.segments_withSlashes_directory hne
  rw [hdot, show segments "." = ["."] by decide] at hsegments
  obtain ⟨d, rest, hdirectories⟩ := List.exists_cons_of_ne_nil hne
  obtain ⟨part, parts, hparts⟩ := List.exists_cons_of_ne_nil (splitText_ne_nil '\\' d)
  rw [hdirectories, List.flatMap_cons, hparts, List.cons_append] at hsegments
  obtain ⟨hpart, hrest⟩ := List.cons_eq_cons.1 hsegments
  rw [← hpart, (List.append_eq_nil_iff.1 hrest.symm).1] at hparts
  have hd : d = "." := Text.splitText_injective '\\' (hparts.trans (by decide))
  exact (f.isName_of_mem (hdirectories ▸ List.mem_cons_self)).ne_dot hd

theorem withSlashes_path (hne : f.directories ≠ []) :
    withSlashes f.path = withSlashes f.directory ++ "/" ++ f.name := by
  rw [path, ofSegments_concat hne, withSlashes_append, withSlashes_append,
    withSlashes_of_notMem f.noBackslash]
  rfl

/-- The package of a file has the names of its directories, spelled with slashes, between dots. -/
theorem packageOfFile_path : packageOfFile f.path = ".".intercalate f.spelled := by
  unfold packageOfFile
  by_cases hne : f.directories = []
  · have hpath : f.path = f.name := by
      rw [path, hne]
      rfl
    rw [hpath, withSlashes_of_notMem f.noBackslash, directory_of_notMem f.isName_name.noSlash,
      if_pos rfl, spelled, hne]
    rfl
  · have hempty : withSlashes f.directory ≠ "" := by
      rw [Ne, ← String.toList_eq_nil_iff, toList_withSlashes, List.map_eq_nil_iff,
        String.toList_eq_nil_iff, directory_eq_empty_iff]
      exact hne
    rw [f.withSlashes_path hne, directory_concat f.isName_name.ne_empty f.isName_name.noSlash,
      if_neg hempty, spelled, ← f.segments_withSlashes_directory hne]
    split
    · -- the directory is a backslash, of which nothing is left
      rename_i hroot
      rw [hroot]
      rfl
    · rw [if_neg (f.withSlashes_directory_ne_dot hne)]

theorem ne_empty_of_mem_spelled {s : String} (h : s ∈ f.spelled) : s ≠ "" := by
  simpa using (List.mem_filter.1 h).2

/-- What is read back of a package. -/
theorem packageNames_packageOfFile : packageNames (packageOfFile f.path) = f.parts := by
  rw [packageOfFile_path, packageNames_intercalate fun _ => f.ne_empty_of_mem_spelled, parts]

theorem packageDirectory_packageOfFile :
    packageDirectory (packageOfFile f.path) = ofSegments f.parts := by
  rw [packageDirectory_eq_ofSegments, packageNames_packageOfFile]

theorem packageOfFile_eq_iff (g : SourcePath) :
    packageOfFile f.path = packageOfFile g.path ↔ f.parts = g.parts := by
  rw [← packageNames_packageOfFile, ← packageNames_packageOfFile, packageNames_injective.eq_iff]

/-! ## Plain directories -/

theorem subset_of_mem_splitText {sep : Char} {s t : String} (h : t ∈ Text.splitText sep s) :
    t.toList ⊆ s.toList := by
  obtain ⟨cs, hcs, rfl⟩ := List.mem_map.1 h
  rw [String.toList_ofList]
  exact Text.subset_of_mem_split hcs

theorem notMem_of_mem_splitText {sep : Char} {s t : String} (h : t ∈ Text.splitText sep s) :
    sep ∉ t.toList := by
  obtain ⟨cs, hcs, rfl⟩ := List.mem_map.1 h
  rw [String.toList_ofList]
  exact Text.notMem_of_mem_split hcs

theorem splitText_of_notMem {sep : Char} {s : String} (h : sep ∉ s.toList) :
    Text.splitText sep s = [s] := by
  rw [Text.splitText, Text.split_of_notMem h, List.map_singleton, String.ofList_toList]

variable {f}

/-- Parts hold nothing at which names are cut. -/
theorem of_mem_parts {s : String} (h : s ∈ f.parts) :
    '.' ∉ s.toList ∧ '\\' ∉ s.toList ∧ '/' ∉ s.toList := by
  obtain ⟨t, ht, hs⟩ := List.mem_flatMap.1 h
  obtain ⟨d, hd, htd⟩ := List.mem_flatMap.1 (List.mem_filter.1 ht).1
  refine ⟨notMem_of_mem_splitText hs, fun hback => ?_, fun hslash => ?_⟩
  · exact notMem_of_mem_splitText htd (subset_of_mem_splitText hs hback)
  · exact (f.isName_of_mem hd).noSlash
      (subset_of_mem_splitText htd (subset_of_mem_splitText hs hslash))

theorem parts_eq_iff : f.parts = f.directories ↔ f.IsPlain := by
  constructor
  · intro h d hd
    obtain ⟨hdot, hback, -⟩ := of_mem_parts (h ▸ hd)
    exact ⟨hdot, hback⟩
  · intro h
    have hspelled : f.spelled = f.directories := by
      rw [spelled, List.flatMap_congr fun d hd => splitText_of_notMem (h d hd).2,
        List.flatMap_singleton', List.filter_eq_self]
      intro d hd
      simpa using (f.isName_of_mem hd).ne_empty
    rw [parts, hspelled, List.flatMap_congr fun d hd => splitText_of_notMem (h d hd).1,
      List.flatMap_singleton']

/-- The directory of its package is the directory of a file exactly when nothing is cut. -/
theorem packageDirectory_eq_directory_iff :
    packageDirectory (packageOfFile f.path) = f.directory ↔ f.IsPlain := by
  rw [packageDirectory_packageOfFile, ← parts_eq_iff, directory]
  refine ⟨fun h => ?_, fun h => by rw [h]⟩
  by_cases hne : f.directories = []
  · rw [parts, spelled, hne]
    rfl
  · have hparts : f.parts ≠ [] := by
      intro hnil
      rw [hnil] at h
      exact hne (f.directory_eq_empty_iff.1 h.symm)
    have hsegments := congrArg segments h
    rwa [segments_ofSegments hparts fun s hs => (of_mem_parts hs).2.2,
      segments_ofSegments hne fun s hs => (f.isName_of_mem hs).noSlash] at hsegments

theorem directory_eq_iff {g : SourcePath} :
    f.directory = g.directory ↔ f.directories = g.directories := by
  refine ⟨fun h => ?_, fun h => by rw [directory, h, directory]⟩
  by_cases hf : f.directories = []
  · rw [f.directory_eq_empty_iff.2 hf] at h
    rw [hf, g.directory_eq_empty_iff.1 h.symm]
  · have hg : g.directories ≠ [] := fun hnil =>
      hf (f.directory_eq_empty_iff.1 (h.trans (g.directory_eq_empty_iff.2 hnil)))
    have hsegments := congrArg segments h
    rwa [directory, segments_ofSegments hf fun s hs => (f.isName_of_mem hs).noSlash, directory,
      segments_ofSegments hg fun s hs => (g.isName_of_mem hs).noSlash] at hsegments

/-- Files of plain directories share their package exactly when they share their directory. -/
theorem packageOfFile_eq_iff_directory_eq {g : SourcePath} (hf : f.IsPlain) (hg : g.IsPlain) :
    packageOfFile f.path = packageOfFile g.path ↔ f.directory = g.directory := by
  rw [packageOfFile_eq_iff, parts_eq_iff.2 hf, parts_eq_iff.2 hg, directory_eq_iff]

end SourcePath

end Metamodel

import Metamodel.Proofs.Run.Files
import Metamodel.Proofs.SourcePath
import Metamodel.Source.Reading.Project

/-!
# A run over a source tree

Declarations that are read from source files are named for the packages of these
(`Source.Program.standsIn_declarations`). While the directories have plain names, packages tell them
apart and lead back to them, so that a run mirrors its sources (`Run.mirrors_of_plain`): declarations
of one simple name in different directories have names of their own, a declaration gives way only to
one in its directory, and files are generated where the sources lie.
-/

namespace Metamodel

open Path

namespace SourcePath

variable {f g : SourcePath}

theorem segments_path (f : SourcePath) : segments f.path = f.directories ++ [f.name] :=
  segments_ofSegments (by simp) fun s hs => (f.isName s hs).noSlash

theorem directories_eq_of_path_eq (h : f.path = g.path) : f.directories = g.directories := by
  have hsegments := congrArg segments h
  rw [segments_path, segments_path] at hsegments
  exact (List.append_inj' hsegments rfl).1

theorem IsPlain.of_path_eq (hf : f.IsPlain) (h : f.path = g.path) : g.IsPlain := by
  unfold IsPlain at hf ⊢
  rwa [← directories_eq_of_path_eq h]

end SourcePath

/-- The declaration is read from the file: it stands there and is named for its package. -/
structure Declaration.StandsIn (d : Declaration) (f : SourcePath) : Prop where
  source : ∃ l, d.source = some l ∧ l.file = f.path
  packageName : d.packageName = packageOfFile f.path
  qualifiedName : ∀ q, d.qualifiedName = some q → q = qualify d.packageName d.simpleName

/-- The source files of a program lie in directories with plain names. -/
def Source.Program.IsPlain (p : Source.Program) : Prop :=
  ∀ file ∈ p.scanned, ∃ f : SourcePath, file.2 = f.path ∧ f.IsPlain

/-- Every declaration stands in a file whose directories have plain names. -/
def DeclarationSource.IsOfPlainFiles (s : DeclarationSource) : Prop :=
  ∀ d ∈ s.declarations, ∃ f, d.StandsIn f ∧ f.IsPlain

namespace Source.Program

variable {p : Program}

theorem mem_scanned_of_mem_typeDeclarations {x : String × String × TypeDeclaration}
    (h : x ∈ p.typeDeclarations) : (x.1, x.2.1) ∈ p.scanned := by
  obtain ⟨file, hfile, hx⟩ := List.mem_flatMap.1 h
  obtain ⟨st, -, hst⟩ := List.mem_filterMap.1 hx
  split at hst
  · cases hst
    exact hfile
  · cases hst

theorem names_declaration (c : ReadingContext) (d : TypeDeclaration) :
    (p.declaration c d).packageName = packageOfFile c.file ∧
      (p.declaration c d).simpleName = d.name.getD "" ∧
      (p.declaration c d).qualifiedName = d.name.map (qualify (packageOfFile c.file)) :=
  ⟨rfl, rfl, rfl⟩

theorem standsIn_declaration {c : ReadingContext} {f : SourcePath} (hfile : c.file = f.path)
    (d : TypeDeclaration) : (p.declaration c d).StandsIn f := by
  obtain ⟨hpackage, hsimple, hqualified⟩ := p.names_declaration c d
  refine ⟨⟨c.location d.head.position, rfl, hfile⟩, by rw [hpackage, hfile], fun q hq => ?_⟩
  rw [hqualified] at hq
  obtain ⟨name, hname, rfl⟩ := Option.map_eq_some_iff.1 hq
  rw [hpackage, hsimple, hname, Option.getD_some]

theorem standsIn_declarations (hp : p.IsPlain) (catalog : Catalog) :
    (DeclarationSource.ofDeclarations p.declarations catalog).IsOfPlainFiles := by
  intro d hd
  obtain ⟨⟨file, path, t⟩, hx, rfl⟩ := List.mem_map.1 hd
  obtain ⟨f, hpath, hplain⟩ := hp _ (mem_scanned_of_mem_typeDeclarations hx)
  exact ⟨f, standsIn_declaration hpath t, hplain⟩

end Source.Program

namespace Run

variable {s : DeclarationSource} {config : Config} {outDir : String}

/-! ## Candidates -/

theorem mem_addCandidate_of_mem {found : List Declaration} {d : Declaration} (h : d ∈ found)
    (d' : Declaration) : d ∈ addCandidate found d' := by
  obtain ⟨heq, -⟩ | ⟨heq, -⟩ := addCandidate_cases found d'
  · rwa [heq]
  · rw [heq]
    exact List.mem_append_left _ h

theorem mem_foldl_addCandidate_of_mem {found : List Declaration} {d : Declaration} (h : d ∈ found)
    (ds : List Declaration) : d ∈ ds.foldl addCandidate found := by
  induction ds generalizing found with
  | nil => exact h
  | cons d' ds ih => exact ih (mem_addCandidate_of_mem h d')

/-- What is not taken to the candidates gives way to one of its name. -/
theorem mem_foldl_addCandidate_or {ds : List Declaration} {d : Declaration} (h : d ∈ ds)
    (found : List Declaration) :
    d ∈ ds.foldl addCandidate found ∨ ∃ d' ∈ ds.foldl addCandidate found, ∃ q,
      d.knownName? = some q ∧ d'.knownName? = some q := by
  induction ds generalizing found with
  | nil => cases h
  | cons d' ds ih =>
    rw [List.foldl_cons]
    rcases List.mem_cons.1 h with rfl | h
    · obtain ⟨-, q, hq, other, hother, hsame⟩ | ⟨heq, -⟩ := addCandidate_cases found d
      · have hkept := mem_foldl_addCandidate_of_mem (mem_addCandidate_of_mem hother d) ds
        exact Or.inr ⟨other, hkept, q, hq, hsame⟩
      · have hnew : d ∈ addCandidate found d := by
          rw [heq]
          exact List.mem_append_right _ List.mem_cons_self
        exact Or.inl (mem_foldl_addCandidate_of_mem hnew ds)
    · exact ih h (addCandidate found d')

/-- A declaration with the marker is a candidate, or gives way to one of its name. -/
theorem mem_candidates_or {marker : AnnotationKind} {d : Declaration} (hd : d ∈ s.declarations)
    (hmark : hasMark (s.typeMarks d) marker = true) :
    d ∈ candidates s marker ∨ ∃ d' ∈ candidates s marker, ∃ q,
      d.knownName? = some q ∧ d'.knownName? = some q :=
  mem_foldl_addCandidate_or (List.mem_filter.2 ⟨hd, hmark⟩) []

/-! ## The tree -/

/-- The run tells the directories of its sources apart, and generates files in them. -/
structure Mirrors (s : DeclarationSource) (config : Config) (outDir : String) : Prop where
  /-- in different directories, a simple name stands for different types -/
  apart : ∀ d ∈ s.declarations, ∀ d' ∈ s.declarations, ∀ f f', d.StandsIn f → d'.StandsIn f' →
    d.simpleName = d'.simpleName → f.directory ≠ f'.directory →
      ∀ q, d.knownName? = some q → d'.knownName? ≠ some q
  /-- a declaration does not give way to one of its simple name in another directory -/
  kept : ∀ marker, ∀ d ∈ s.declarations, hasMark (s.typeMarks d) marker = true →
    d ∈ candidates s marker ∨ ∃ d' ∈ candidates s marker, d.knownName? = d'.knownName? ∧
      ∀ f f', d.StandsIn f → d'.StandsIn f' → d.simpleName = d'.simpleName →
        f.directory = f'.directory
  /-- the files of a node lie in the directory of its source -/
  files : ∀ e ∈ (process s config outDir).graph.nodes, ∃ d ∈ s.declarations,
    d.knownName? = some e.qualifiedName ∧ ∀ f, d.StandsIn f →
      ∀ a ∈ (process s config outDir).artifacts, a.packageName = e.packageName →
        '/' ∉ a.baseName.toList → a.fileName = ofSegments (f.directories ++ [a.baseName ++ ".ts"])

section Plain

variable (h : s.IsOfPlainFiles)
include h

theorem isPlain_of_standsIn {d : Declaration} (hd : d ∈ s.declarations) {f : SourcePath}
    (hf : d.StandsIn f) : f.IsPlain := by
  obtain ⟨g, hg, hplain⟩ := h d hd
  obtain ⟨l, hl, hfile⟩ := hf.source
  obtain ⟨l', hl', hfile'⟩ := hg.source
  rw [hl, Option.some.injEq] at hl'
  exact hplain.of_path_eq (by rw [← hfile', ← hl', hfile])

theorem directory_eq_of_knownName?_eq {d d' : Declaration} (hd : d ∈ s.declarations)
    (hd' : d' ∈ s.declarations) {f f' : SourcePath} (hf : d.StandsIn f) (hf' : d'.StandsIn f')
    (hsimple : d.simpleName = d'.simpleName) {q : String} (hq : d.knownName? = some q)
    (hq' : d'.knownName? = some q) : f.directory = f'.directory := by
  have hqualified := hf.qualifiedName q (Option.filter_eq_some_iff.1 hq).1
  have hqualified' := hf'.qualifiedName q (Option.filter_eq_some_iff.1 hq').1
  rw [hqualified, ← hsimple, qualify_eq_qualify_iff, hf.packageName, hf'.packageName] at hqualified'
  exact (SourcePath.packageOfFile_eq_iff_directory_eq (isPlain_of_standsIn h hd hf)
    (isPlain_of_standsIn h hd' hf')).1 hqualified'

theorem mirrors_of_isOfPlainFiles (config : Config) (outDir : String) :
    Mirrors s config outDir where
  apart d hd d' hd' f f' hf hf' hsimple hne q hq hq' :=
    hne (directory_eq_of_knownName?_eq h hd hd' hf hf' hsimple hq hq')
  kept marker d hd hmark := by
    refine (mem_candidates_or hd hmark).imp_right ?_
    rintro ⟨d', hd', q, hq, hq'⟩
    refine ⟨d', hd', hq.trans hq'.symm, fun f f' hf hf' hsimple => ?_⟩
    exact directory_eq_of_knownName?_eq h hd (mem_declarations_of_mem_candidates hd') hf hf' hsimple
      hq hq'
  files e he := by
    obtain ⟨kind, hmem⟩ := exists_kind_of_mem_nodes he
    obtain ⟨d, b, hd, rfl, hb⟩ := exists_buildEntity_of_mem_builtOf hmem
    obtain ⟨members, hbuilt⟩ := isBuilt_of_buildEntity hb
    have hd := mem_declarations_of_mem_candidates hd
    refine ⟨d, hd, hbuilt.named, fun f hf a ha hpackage hbase => ?_⟩
    have hplain := isPlain_of_standsIn h hd hf
    rw [Artifact.fileName_eq (mem_artifacts_process_iff.1 ha).2, hpackage,
      (names_of_buildEntity hb).1, hf.packageName, packageFile,
      SourcePath.packageDirectory_eq_directory_iff.2 hplain, SourcePath.directory]
    refine join_ofSegments_name fun t ht => ?_
    rcases List.mem_append.1 ht with ht | ht
    · exact f.isName_of_mem ht
    · rw [List.mem_singleton.1 ht]
      refine isName_append_ending ?_
      simpa [String.toList_append] using hbase

end Plain

/-- The directory of its package is that of a file exactly when it has a plain name, names of packages
are shared by files whose directories are cut into the same parts, and a run over plain directories
mirrors them. -/
theorem mirrors_of_plain {p : Source.Program} (hp : p.IsPlain) (catalog : Catalog) (config : Config)
    (outDir : String) :
    (∀ f : SourcePath, packageDirectory (packageOfFile f.path) = f.directory ↔ f.IsPlain) ∧
      (∀ (f g : SourcePath) (name : String),
        qualify (packageOfFile f.path) name = qualify (packageOfFile g.path) name ↔
          f.parts = g.parts) ∧
      Mirrors (.ofDeclarations p.declarations catalog) config outDir :=
  ⟨fun _ => SourcePath.packageDirectory_eq_directory_iff,
    fun f g _ => qualify_eq_qualify_iff.trans (f.packageOfFile_eq_iff g),
    mirrors_of_isOfPlainFiles (Source.Program.standsIn_declarations hp catalog) config outDir⟩

end Run

/-! ## Two trees -/

namespace Sample

/-- A text with the class `Item`. -/
def itemText : Source.SourceText :=
  ⟨[.type ⟨⟨default, [], [], []⟩, .class, some "Item", [], [], [], []⟩], true, []⟩

/-- A program with the text in each of some files. -/
def programOf (files : List String) : Source.Program :=
  ⟨default, files.map fun f => ("/work/" ++ f, f), files.map fun f => ("/work/" ++ f, itemText)⟩

/-- The file of the text in a directory. -/
def itemFile (directory : String) (h : IsName directory) : SourcePath where
  directories := [directory]
  name := "Item.ts"
  isName s hs := by
    rcases List.mem_pair.1 hs with rfl | rfl
    · exact h
    · exact ⟨by decide, by decide, by decide, by decide⟩
  noBackslash := by decide

end Sample

namespace Run

theorem mirrors_shop :
    (Sample.programOf ["shop/Item.ts", "store/Item.ts"]).IsPlain ∧
      Mirrors (.ofDeclarations (Sample.programOf ["shop/Item.ts", "store/Item.ts"]).declarations
        (.create true)) .default "out" := by
  have hshop : IsName "shop" := ⟨by decide, by decide, by decide, by decide⟩
  have hstore : IsName "store" := ⟨by decide, by decide, by decide, by decide⟩
  have hplain : (Sample.programOf ["shop/Item.ts", "store/Item.ts"]).IsPlain := by
    intro file hfile
    rcases List.mem_pair.1 hfile with rfl | rfl
    · exact ⟨Sample.itemFile "shop" hshop, show "shop/Item.ts" = ofSegments ["shop", "Item.ts"] by decide,
        by simp [SourcePath.IsPlain, Sample.itemFile]⟩
    · exact ⟨Sample.itemFile "store" hstore, show "store/Item.ts" = ofSegments ["store", "Item.ts"] by decide,
        by simp [SourcePath.IsPlain, Sample.itemFile]⟩
  exact ⟨hplain, (mirrors_of_plain hplain _ _ _).2.2⟩

/-- A directory with a dot is not found again, and its types are taken for those of another. -/
theorem exists_cut_directory :
    packageDirectory (packageOfFile "v1.0/Item.ts") = "v1/0" ∧
      (Sample.programOf ["shop.store/Item.ts", "shop/store/Item.ts"]).declarations.map
          (fun d => (d.knownName?, d.source.map (·.file))) =
        [(some "shop.store.Item", some "shop.store/Item.ts"),
          (some "shop.store.Item", some "shop/store/Item.ts")] := by
  decide +kernel

end Run

end Metamodel

import Metamodel.Proofs.Artifact.Agreement
import Metamodel.Proofs.Package
import Metamodel.Proofs.Text.Collation

/-!
# Files of artifacts

Each artifact lies in the directory of its package under a name of its own (`fileName_eq`). The
file of a class whose name holds no slash lies there and nowhere else (`course_packageFile_of_name`);
other names can lead out of the directory.
-/

namespace Metamodel

/-! ## Identifiers -/

namespace Naming

variable {name : String}

theorem isIdentifierChar_of_mem (h : isIdentifier name = true) {c : Char} (hc : c ∈ name.toList) :
    isIdentifierChar c = true := by
  unfold isIdentifier at h
  cases hname : name.toList with
  | nil =>
    rw [hname] at hc
    cases hc
  | cons d ds =>
    simp only [hname, Bool.and_eq_true] at h
    rw [hname] at hc
    rcases List.mem_cons.1 hc with rfl | hc
    · have hstart := h.1
      simp only [isIdentifierStart, Bool.or_eq_true] at hstart
      simp only [isIdentifierChar, Char.isAlphanum, Bool.or_eq_true]
      exact hstart.imp_left fun hstart => hstart.imp_left Or.inl
    · exact List.all_eq_true.1 h.2 c hc

theorem isIdentifier_append (h : isIdentifier name = true) {tail : String}
    (htail : tail.toList.all isIdentifierChar = true) : isIdentifier (name ++ tail) = true := by
  unfold isIdentifier at h ⊢
  rw [String.toList_append]
  cases hname : name.toList with
  | nil =>
    rw [hname] at h
    cases h
  | cons c cs =>
    simp only [hname, Bool.and_eq_true] at h
    simp only [List.cons_append, List.all_append, Bool.and_eq_true]
    exact ⟨h.1, h.2, htail⟩

theorem noSlash_of_isIdentifier (h : isIdentifier name = true) : '/' ∉ name.toList := fun hmem =>
  absurd (isIdentifierChar_of_mem h hmem) (by decide)

theorem isName_of_isIdentifier (h : isIdentifier name = true) : Path.IsName name where
  ne_empty := by
    rintro rfl
    cases h
  ne_dot := by
    rintro rfl
    cases h
  ne_dots := by
    rintro rfl
    cases h
  noSlash := noSlash_of_isIdentifier h

end Naming

/-! ## Files of packages -/

open Path

/-- The path of a file of a package. -/
def packageFile (packageName name : String) : String :=
  join [packageDirectory packageName, name ++ ".ts"]

variable {p name : String}

/-- What ends like a source file names something. -/
theorem isName_append_ending {last : String} (h : '/' ∉ (last ++ ".ts").toList) :
    IsName (last ++ ".ts") := by
  have hlast : (last ++ ".ts").toList.getLast? = some 's' := by
    rw [String.toList_append]
    exact List.getLast?_append_of_ne_nil _ (by decide)
  refine ⟨?_, ?_, ?_, h⟩ <;>
  · intro heq
    rw [heq] at hlast
    exact absurd hlast (by decide)

theorem exists_endsIn_ending (name : String) : ∃ last, EndsIn (name ++ ".ts") (last ++ ".ts") := by
  obtain ⟨front, last, -, happend⟩ := segments_append_of_notMem name (show '/' ∉ ".ts".toList by decide)
  have hmem : last ++ ".ts" ∈ segments (name ++ ".ts") := by
    rw [happend]
    exact List.mem_append_right _ List.mem_cons_self
  refine ⟨last, isName_append_ending (notMem_slash hmem), ?_⟩
  rw [happend, List.getLast?_concat]

theorem exists_endsIn_packageFile (p name : String) : ∃ last, EndsIn (packageFile p name) last := by
  obtain ⟨last, hlast⟩ := exists_endsIn_ending name
  exact ⟨last ++ ".ts", hlast.join [packageDirectory p]⟩

theorem isAbsolute_packageFile (p name : String) :
    isAbsolute (packageFile p name) =
      if p = "" then isAbsolute (name ++ ".ts") else isAbsolute (packageDirectory p) := by
  obtain ⟨last, hlast⟩ := exists_endsIn_ending name
  unfold packageFile
  split
  · rename_i h
    rw [packageDirectory_eq_empty_iff.2 h, join_empty_cons, isAbsolute_join_cons hlast.ne_empty]
  · rename_i h
    exact isAbsolute_join_cons (mt packageDirectory_eq_empty_iff.1 h) _

/-- The levels that a path leads up from where it starts. -/
def Path.climb (path : String) : Nat :=
  (course (segments path)).up

theorem course_packageFile (p name : String) :
    course (segments (packageFile p name)) =
      ⟨if isAbsolute (packageFile p name) then 0
        else climb (name ++ ".ts") - (packageParts p).length,
        (course (segments (name ++ ".ts"))).follow (packageParts p)⟩ := by
  have hparts : [packageDirectory p, name ++ ".ts"].flatMap segments =
      segments (packageDirectory p) ++ segments (name ++ ".ts") := by
    simp
  unfold packageFile
  rw [course_join, hparts, course_append, course_packageDirectory]
  simp only [Course.andThen, Nat.zero_add]
  rfl

section Slashless

variable (h : '/' ∉ name.toList)
include h

theorem isName_file : IsName (name ++ ".ts") := by
  refine isName_append_ending ?_
  rw [String.toList_append, List.mem_append, not_or]
  exact ⟨h, by decide⟩

/-- The file of a name without slashes lies in the directory of its package. -/
theorem course_packageFile_of_name (p : String) :
    course (segments (packageFile p name)) = ⟨0, packageParts p ++ [name ++ ".ts"]⟩ := by
  have hname := isName_file h
  have hcourse : course (segments (name ++ ".ts")) = ⟨0, [name ++ ".ts"]⟩ := by
    rw [segments_of_notMem hname.noSlash, course_name hname]
  rw [course_packageFile, climb, hcourse]
  simp [Course.follow]

theorem endsIn_packageFile (p : String) : EndsIn (packageFile p name) (name ++ ".ts") :=
  (EndsIn.of_isName (isName_file h)).join [packageDirectory p]

theorem isAbsolute_packageFile_of_name (p : String) :
    isAbsolute (packageFile p name) = isAbsolute (packageDirectory p) := by
  rw [isAbsolute_packageFile, isAbsolute_of_notMem (isName_file h).noSlash]
  split
  · rename_i hp
    rw [packageDirectory_eq_empty_iff.2 hp]
    rfl
  · rfl

end Slashless

/-- Files of names without slashes are the same only where directories and names are. -/
theorem packageFile_eq_iff {p q name name' : String} (h : '/' ∉ name.toList)
    (h' : '/' ∉ name'.toList) :
    packageFile p name = packageFile q name' ↔ SameDirectory p q ∧ name = name' := by
  constructor
  · intro heq
    have habs := congrArg isAbsolute heq
    have hcourse := congrArg (fun path => (course (segments path)).down) heq
    rw [isAbsolute_packageFile_of_name h, isAbsolute_packageFile_of_name h'] at habs
    simp only [course_packageFile_of_name h, course_packageFile_of_name h'] at hcourse
    obtain ⟨hparts, hname⟩ := List.append_inj' hcourse rfl
    exact ⟨⟨habs, hparts⟩, String.append_left_inj _ |>.1 (List.singleton_inj.1 hname)⟩
  · rintro ⟨⟨habs, hparts⟩, rfl⟩
    have hname := EndsIn.of_isName (isName_file h)
    refine (hname.behind [packageDirectory p]).normalize_eq_normalize
      (hname.behind [packageDirectory q]) ?_ ?_
    · show isAbsolute (packageFile p name) = isAbsolute (packageFile q name)
      rw [isAbsolute_packageFile_of_name h, isAbsolute_packageFile_of_name h, habs]
    · show course (segments (packageFile p name)) = course (segments (packageFile q name))
      rw [course_packageFile_of_name h, course_packageFile_of_name h, hparts]

/-! ## The files of a graph -/

namespace Artifact

/-- The package in whose directory the file lies. -/
def packageName : Artifact → String
  | .implementation m => m.packageName
  | .metadata m => m.packageName
  | .registry m => m.packageName

/-- The class that the file declares; a registry declares none. -/
def className? : Artifact → Option String
  | .implementation m => some m.className
  | .metadata m => some m.className
  | .registry _ => none

/-- The name of the file without its ending. -/
def baseName (a : Artifact) : String :=
  a.className?.getD "Models"

def imports : Artifact → List Import
  | .implementation m => m.imports
  | .metadata m => m.imports
  | .registry m => m.imports

end Artifact

namespace Derivation

variable {g : Graph} {o : DeriveOptions}

/-- The registry of a package, if it has entities. -/
def packageRegistry (g : Graph) (o : DeriveOptions) (packageName : String) : RegistryArtifact :=
  registry o packageName (((g.nodes.map (metadata g o)).filter (·.entityKind == .entity)).filter
    (·.packageName == packageName))

/-- A registry is that of the package of an entity. -/
theorem registry_mem_artifacts_iff {r : RegistryArtifact} :
    .registry r ∈ g.artifacts o ↔ o.generateModel = true ∧
      ∃ e ∈ g.nodes, e.kind = .entity ∧ r = packageRegistry g o e.packageName := by
  have hregistries : r ∈ registries o (g.nodes.map (metadata g o)) ↔
      ∃ e ∈ g.nodes, e.kind = .entity ∧ r = packageRegistry g o e.packageName := by
    unfold registries
    simp only [List.mem_map, Text.mem_collated_iff, List.mem_eraseDups, List.mem_filter]
    constructor
    · rintro ⟨_, ⟨_, ⟨⟨e, he, rfl⟩, hkind⟩, rfl⟩, rfl⟩
      exact ⟨e, he, eq_of_beq hkind, rfl⟩
    · rintro ⟨e, he, hkind, rfl⟩
      exact ⟨_, ⟨_, ⟨⟨e, he, rfl⟩, beq_iff_eq.2 hkind⟩, rfl⟩, rfl⟩
  rw [mem_artifacts_iff, ← hregistries]
  constructor
  · rintro (⟨e, -, hr⟩ | ⟨hmodel, _, hr, heq⟩)
    · rcases mem_nodeArtifacts_iff.1 hr with ⟨-, heq⟩ | heq <;> cases heq
    · cases heq
      exact ⟨hmodel, hr⟩
  · rintro ⟨hmodel, hr⟩
    exact Or.inr ⟨hmodel, r, hr, rfl⟩

theorem mem_artifacts_cases {a : Artifact} (h : a ∈ g.artifacts o) :
    (∃ e ∈ g.nodes, e.hasImplementation = true ∧ a = .implementation (implementation o e)) ∨
      (∃ e ∈ g.nodes, a = .metadata (metadata g o e)) ∨
      o.generateModel = true ∧
        ∃ e ∈ g.nodes, e.kind = .entity ∧ a = .registry (packageRegistry g o e.packageName) := by
  cases a with
  | implementation i =>
    obtain ⟨e, he, himpl, rfl⟩ := implementation_mem_artifacts_iff.1 h
    exact Or.inl ⟨e, he, himpl, rfl⟩
  | metadata m =>
    obtain ⟨e, he, rfl⟩ := metadata_mem_artifacts_iff.1 h
    exact Or.inr (Or.inl ⟨e, he, rfl⟩)
  | registry r =>
    obtain ⟨hmodel, e, he, hkind, rfl⟩ := registry_mem_artifacts_iff.1 h
    exact Or.inr (Or.inr ⟨hmodel, e, he, hkind, rfl⟩)

end Derivation

/-- The classes that are generated for the type have identifiers as names. -/
structure Entity.HasClassNames (e : Entity) : Prop where
  metadata : Naming.isIdentifier e.metadataClass = true
  implementation : e.hasImplementation = true → Naming.isIdentifier e.implementationClass = true

/-- Every file lies in its package under its name. -/
theorem Artifact.fileName_eq {g : Graph} {o : DeriveOptions} {a : Artifact}
    (h : a ∈ g.artifacts o) : a.fileName = packageFile a.packageName a.baseName := by
  rcases Derivation.mem_artifacts_cases h with
    ⟨e, -, -, rfl⟩ | ⟨e, -, rfl⟩ | ⟨-, e, -, -, rfl⟩ <;> rfl

end Metamodel

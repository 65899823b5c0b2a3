import Mathlib.Data.List.Forall2
import Metamodel.Annotation.Mark
import Metamodel.Declaration.Basic

/-!
# The two vocabularies

Eight native names have an alias in the standard vocabulary. Declarations are renamed when some of
their annotations, or of their members' annotations, are written under the other of the two names.
Renamed declarations are equal in native terms (`Declaration.toNative`), and marks in native terms
have the kinds and values of those that are written (`marksOf_toNative`).
-/

namespace Metamodel

namespace Catalog

/-- The native names that have an alias in the standard vocabulary, with the alias. -/
def aliases : List (String × String) :=
  [("Superclass", "MappedSuperclass"), ("Embedded", "Embeddable"), ("Key", "Id"),
    ("Generated", "GeneratedValue"), ("PreInsert", "PrePersist"), ("PostInsert", "PostPersist"),
    ("PreDelete", "PreRemove"), ("PostDelete", "PostRemove")]

/-- One name is the alias of the other. -/
def AreAliases (a b : String) : Prop :=
  (a, b) ∈ aliases ∨ (b, a) ∈ aliases

/-- The native name that an alias stands for; any other name stands for itself. -/
def nativeName (name : String) : String :=
  ((aliases.find? (·.2 == name)).map (·.1)).getD name

/-! ## Native names -/

theorem nativeName_cases (name : String) :
    nativeName name = name ∨ (nativeName name, name) ∈ aliases := by
  unfold nativeName
  cases hfound : aliases.find? (·.2 == name) with
  | none => exact Or.inl rfl
  | some p =>
    right
    have hname : p.2 = name := eq_of_beq (List.find?_some (p := fun q : String × String => q.2 == name) hfound)
    rw [← hname]
    exact List.mem_of_find?_eq_some hfound

/-- Both names of a pair have the same native name. -/
theorem nativeName_of_mem {p : String × String} (hp : p ∈ aliases) :
    nativeName p.1 = p.1 ∧ nativeName p.2 = p.1 := by
  have hall : ∀ p ∈ aliases, nativeName p.1 = p.1 ∧ nativeName p.2 = p.1 := by decide
  exact hall p hp

/-- A native name has one alias only. -/
theorem alias_unique {name a b : String} (ha : (name, a) ∈ aliases) (hb : (name, b) ∈ aliases) :
    a = b := by
  have hall : ∀ p ∈ aliases, ∀ q ∈ aliases, p.1 = q.1 → p.2 = q.2 := by decide
  exact hall _ ha _ hb rfl

theorem ne_of_mem_aliases {p : String × String} (hp : p ∈ aliases) : p.1 ≠ p.2 := by
  have hall : ∀ p ∈ aliases, p.1 ≠ p.2 := by decide
  exact hall p hp

theorem nativeName_eq_iff {a b : String} :
    nativeName a = nativeName b ↔ a = b ∨ AreAliases a b := by
  constructor
  · intro h
    rcases nativeName_cases a with ha | ha
    · rcases nativeName_cases b with hb | hb
      · left
        rw [← ha, h, hb]
      · right
        left
        rw [← h, ha] at hb
        exact hb
    · rcases nativeName_cases b with hb | hb
      · right
        right
        rw [h, hb] at ha
        exact ha
      · left
        rw [h] at ha
        exact alias_unique ha hb
  · rintro (rfl | h | h)
    · rfl
    · exact (nativeName_of_mem h).1.trans (nativeName_of_mem h).2.symm
    · exact (nativeName_of_mem h).2.trans (nativeName_of_mem h).1.symm

/-- Whether a name is written or its alias, the catalog gives the kind; only aliases are no native
names. -/
theorem lookup?_of_mem {p : String × String} (hp : p ∈ aliases) :
    ∃ kind, (create true).lookup? p.1 = some ⟨p.1, kind, .native⟩ ∧
      (create true).lookup? p.2 = some ⟨p.2, kind, .standard⟩ := by
  have hall : ∀ p ∈ aliases, ((create true).lookup? p.1).any (fun e =>
      (create true).lookup? p.1 == some ⟨p.1, e.kind, .native⟩ &&
        (create true).lookup? p.2 == some ⟨p.2, e.kind, .standard⟩) = true := by decide
  obtain ⟨e, -, he⟩ := (Option.any_eq_true _ _).1 (hall p hp)
  rw [Bool.and_eq_true, beq_iff_eq, beq_iff_eq] at he
  exact ⟨e.kind, he⟩

end Catalog

open Catalog (AreAliases nativeName)

/-! ## Renaming -/

/-- The annotations give the same values under the same name, or under a name and its alias. -/
structure Annotation.Renamed (a a' : Annotation) : Prop where
  name : a.name = a'.name ∨ AreAliases a.name a'.name
  values : a.values = a'.values

/-- The members differ at most in the names of annotations. -/
structure Member.Renamed (m m' : Member) : Prop where
  annotations : Option.Rel (List.Forall₂ Annotation.Renamed) m.annotations m'.annotations
  rest : { m with annotations := none } = { m' with annotations := none }

/-- The declarations differ at most in the names of annotations, their own or their members'. -/
structure Declaration.Renamed (d d' : Declaration) : Prop where
  annotations : Option.Rel (List.Forall₂ Annotation.Renamed) d.annotations d'.annotations
  members : Option.Rel (List.Forall₂ Member.Renamed) d.members d'.members
  rest : { d with annotations := none, members := none } =
    { d' with annotations := none, members := none }

/-- The annotation under its native name. -/
def Annotation.toNative (a : Annotation) : Annotation :=
  { a with name := nativeName a.name }

/-- The member with native names for its annotations. -/
def Member.toNative (m : Member) : Member :=
  { m with annotations := m.annotations.map (List.map Annotation.toNative) }

/-- The declaration with native names for all annotations. -/
def Declaration.toNative (d : Declaration) : Declaration :=
  { d with
    annotations := d.annotations.map (List.map Annotation.toNative)
    members := d.members.map (List.map Member.toNative) }

/-- Items correspond if and only if they have the same images, and so do lists of them. -/
theorem forall₂_iff_map_eq {α β : Type} {R : α → α → Prop} {f : α → β}
    (hf : ∀ x y, R x y ↔ f x = f y) {xs ys : List α} :
    List.Forall₂ R xs ys ↔ xs.map f = ys.map f := by
  have hR : R = fun x y => f x = f y := funext fun x => funext fun y => propext (hf x y)
  have hmap := @List.forall₂_map_right_iff _ _ _ (fun x y => f x = y) f xs ys
  rw [hR, ← hmap, ← @List.forall₂_map_left_iff _ _ _ Eq f, List.forall₂_eq_eq_eq]

theorem rel_iff_map_eq {α β : Type} {R : α → α → Prop} {f : α → β}
    (hf : ∀ x y, R x y ↔ f x = f y) {xs ys : Option (List α)} :
    Option.Rel (List.Forall₂ R) xs ys ↔ xs.map (List.map f) = ys.map (List.map f) := by
  cases xs with
  | none =>
    cases ys with
    | none => exact ⟨fun _ => rfl, fun _ => .none⟩
    | some ys => exact ⟨(nomatch ·), (nomatch ·)⟩
  | some xs =>
    cases ys with
    | none => exact ⟨(nomatch ·), (nomatch ·)⟩
    | some ys =>
      rw [Option.map_some, Option.map_some, Option.some.injEq, ← forall₂_iff_map_eq hf]
      exact ⟨fun h => by cases h; assumption, .some⟩

theorem Annotation.renamed_iff {a a' : Annotation} : a.Renamed a' ↔ a.toNative = a'.toNative := by
  unfold Annotation.toNative
  simp only [Catalog.nativeName_eq_iff, Annotation.mk.injEq]
  exact ⟨fun h => ⟨h.name, h.values⟩, fun h => ⟨h.1, h.2⟩⟩

theorem Member.renamed_iff {m m' : Member} : m.Renamed m' ↔ m.toNative = m'.toNative := by
  have hannotations := @rel_iff_map_eq _ _ _ Annotation.toNative
    (fun _ _ => Annotation.renamed_iff) m.annotations m'.annotations
  constructor
  · intro h
    have hrest := h.rest
    unfold Member.toNative
    rw [hannotations.1 h.annotations]
    exact congrArg (fun m₀ : Member => { m₀ with
      annotations := m'.annotations.map (List.map Annotation.toNative) }) hrest
  · intro h
    refine ⟨hannotations.2 ?_, ?_⟩
    · exact congrArg Member.annotations h
    · exact congrArg (fun m₀ : Member => { m₀ with annotations := none }) h

/-- Declarations are renamed exactly when they are the same in native terms. -/
theorem Declaration.renamed_iff {d d' : Declaration} :
    d.Renamed d' ↔ d.toNative = d'.toNative := by
  have hannotations := @rel_iff_map_eq _ _ _ Annotation.toNative
    (fun _ _ => Annotation.renamed_iff) d.annotations d'.annotations
  have hmembers := @rel_iff_map_eq _ _ _ Member.toNative
    (fun _ _ => Member.renamed_iff) d.members d'.members
  constructor
  · intro h
    have hrest := h.rest
    unfold Declaration.toNative
    rw [hannotations.1 h.annotations, hmembers.1 h.members]
    exact congrArg (fun d₀ : Declaration => { d₀ with
      annotations := d'.annotations.map (List.map Annotation.toNative)
      members := d'.members.map (List.map Member.toNative) }) hrest
  · intro h
    refine ⟨hannotations.2 ?_, hmembers.2 ?_, ?_⟩
    · exact congrArg Declaration.annotations h
    · exact congrArg Declaration.members h
    · exact congrArg (fun d₀ : Declaration => { d₀ with annotations := none, members := none }) h

theorem Declaration.forall₂_renamed_iff {ds ds' : List Declaration} :
    List.Forall₂ Declaration.Renamed ds ds' ↔
      ds.map Declaration.toNative = ds'.map Declaration.toNative :=
  forall₂_iff_map_eq (R := Declaration.Renamed) (f := Declaration.toNative) fun _ _ => renamed_iff

/-! ## Marks -/

/-- The mark under its native name. -/
def Mark.toNative (m : Mark) : Mark :=
  { m with
    name := nativeName m.name
    dialect := if nativeName m.name = m.name then m.dialect else .native }

namespace Mark

variable (m : Mark) (key : String)

@[simp] theorem keys_toNative : m.toNative.keys = m.keys := rfl

@[simp] theorem getString?_toNative : m.toNative.getString? key = m.getString? key := rfl

@[simp] theorem getBoolean?_toNative : m.toNative.getBoolean? key = m.getBoolean? key := rfl

@[simp] theorem getType?_toNative : m.toNative.getType? key = m.getType? key := rfl

@[simp] theorem givenName?_toNative : m.toNative.givenName? = m.givenName? := rfl

end Mark

/-- The marks of annotations in native terms are their marks in native terms. -/
theorem marksOf_toNative (as : List Annotation) :
    marksOf (.create true) (as.map Annotation.toNative) =
      (marksOf (.create true) as).map Mark.toNative := by
  unfold marksOf
  rw [List.filterMap_map, List.map_filterMap]
  refine List.filterMap_congr fun a _ => ?_
  show ((Catalog.create true).lookup? (nativeName a.name)).map
      (fun e => (⟨nativeName a.name, e.kind, e.dialect, a.values.getD []⟩ : Mark)) =
    (((Catalog.create true).lookup? a.name).map fun e =>
      (⟨a.name, e.kind, e.dialect, a.values.getD []⟩ : Mark)).map Mark.toNative
  unfold Mark.toNative
  rcases Catalog.nativeName_cases a.name with hsame | halias
  · rw [Option.map_map]
    simp only [hsame, Function.comp_def, if_true]
  · obtain ⟨kind, hnative, hstandard⟩ := Catalog.lookup?_of_mem halias
    rw [hnative, hstandard]
    simp only [Option.map_some, if_neg (Catalog.ne_of_mem_aliases halias)]

@[simp] theorem hasMark_toNative (marks : List Mark) (kind : AnnotationKind) :
    hasMark (marks.map Mark.toNative) kind = hasMark marks kind := by
  unfold hasMark
  rw [List.any_map]
  rfl

@[simp] theorem findMark?_toNative (marks : List Mark) (kind : AnnotationKind) :
    findMark? (marks.map Mark.toNative) kind = (findMark? marks kind).map Mark.toNative := by
  unfold findMark?
  rw [List.find?_map]
  rfl

end Metamodel

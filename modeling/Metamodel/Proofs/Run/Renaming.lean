import Metamodel.Proofs.Annotation.Alias
import Metamodel.Proofs.Run.Build

/-!
# Builds in native terms

A build asks of marks only their kinds and values. So a declaration in native terms is built as the
one that is written: it gives the same entity and the same findings, and when it cannot be built,
the reason is the same but for the name of the annotation (`buildEntity_toNative`).
-/

namespace Metamodel

/-! ## Members -/

section Members

variable (m : Member)

theorem getD_map_map {α β : Type} (f : α → β) (xs : Option (List α)) :
    (xs.map (List.map f)).getD [] = (xs.getD []).map f := by
  cases xs <;> rfl

theorem marks_toNative :
    m.toNative.marks (.create true) = (m.marks (.create true)).map Mark.toNative := by
  unfold Member.marks
  rw [← marksOf_toNative, ← getD_map_map]
  rfl

theorem declaredCardinalities_toNative (marks : List Mark) :
    declaredCardinalities (marks.map Mark.toNative) = declaredCardinalities marks := by
  unfold declaredCardinalities
  refine List.filter_congr fun c _ => ?_
  exact hasMark_toNative marks c.mark

theorem toProperty_toNative (name : String) (marks : List Mark) :
    m.toNative.toProperty name (marks.map Mark.toNative) = m.toProperty name marks := by
  unfold Member.toProperty
  simp only [hasMark_toNative, declaredCardinalities_toNative, findMark?_toNative,
    Option.bind_map, Function.comp_def, Mark.givenName?_toNative, Mark.getBoolean?_toNative,
    Mark.getString?_toNative]
  rfl

theorem extractProperty?_toNative (owner : Owner) :
    extractProperty? (.create true) m.toNative owner = extractProperty? (.create true) m owner := by
  unfold extractProperty?
  rw [marks_toNative]
  simp only [hasMark_toNative, toProperty_toNative]
  rfl

theorem listeners_toNative :
    m.toNative.listeners (.create true) = m.listeners (.create true) := by
  unfold Member.listeners
  rw [marks_toNative]
  simp only [hasMark_toNative]
  rfl

theorem addMember_toNative (owner : Owner) (location : Option Location)
    (acc : List Property × List Diagnostic) :
    addMember (.create true) owner location acc m.toNative =
      addMember (.create true) owner location acc m := by
  unfold addMember keptFindings
  rw [extractProperty?_toNative, marks_toNative]
  simp only [declaredCardinalities_toNative]
  rfl

theorem ownProperties_toNative (owner : Owner) (location : Option Location)
    (members : List Member) :
    ownProperties (.create true) owner location (members.map Member.toNative) =
      ownProperties (.create true) owner location members := by
  unfold ownProperties
  rw [List.foldl_map]
  simp only [addMember_toNative]

theorem flatMap_listeners_toNative (members : List Member) :
    (members.map Member.toNative).flatMap (·.listeners (.create true)) =
      members.flatMap (·.listeners (.create true)) := by
  rw [List.flatMap_map]
  exact List.flatMap_congr fun m _ => listeners_toNative m

end Members

/-! ## Types -/

/-- The error with the native name of the annotation. -/
def BuildError.toNative : BuildError → BuildError
  | .missingName kind simpleName location => .missingName kind simpleName location
  | .unresolvedReference mark key entity type location =>
    .unresolvedReference (Catalog.nativeName mark) key entity type location
  | .supply failure => .supply failure

theorem unresolvedReference?_toNative (marks : List Mark) :
    unresolvedReference? (marks.map Mark.toNative) =
      (unresolvedReference? marks).map fun r => (Catalog.nativeName r.1, r.2) := by
  unfold unresolvedReference?
  rw [List.findSome?_map, List.map_findSome?]
  refine congrArg (List.findSome? · marks) (funext fun mark => ?_)
  show mark.toNative.keys.findSome? _ = Option.map _ (mark.keys.findSome? _)
  rw [Mark.keys_toNative, List.map_findSome?]
  refine congrArg (List.findSome? · mark.keys) (funext fun key => ?_)
  show ((mark.toNative.getType? key).filter _).map _ = Option.map _ (Option.map _ _)
  rw [Mark.getType?_toNative, Option.map_map]
  rfl

theorem tableNameOf_toNative (marks : List Mark) (simpleName : String) (keepsPrefix : Bool)
    (prefixes : List String) :
    tableNameOf (marks.map Mark.toNative) simpleName keepsPrefix prefixes =
      tableNameOf marks simpleName keepsPrefix prefixes := by
  unfold tableNameOf
  simp only [findMark?_toNative, Option.bind_map, Function.comp_def, Mark.givenName?_toNative]

theorem typeMarks_toNative {s s' : DeclarationSource} (hs : s.catalog = .create true)
    (hs' : s'.catalog = .create true) (d : Declaration) :
    s'.typeMarks d.toNative = (s.typeMarks d).map Mark.toNative := by
  unfold DeclarationSource.typeMarks
  rw [hs, hs', ← marksOf_toNative, ← getD_map_map]
  rfl

/-- Two sources of which the second has the declarations of the first in native terms. -/
structure DeclarationSource.IsNative (s s' : DeclarationSource) : Prop where
  catalog : s.catalog = .create true
  catalog' : s'.catalog = .create true
  declarations : s'.declarations = s.declarations.map Declaration.toNative
  members : ∀ d, s'.members d.toNative = (s.members d).map (List.map Member.toNative)

namespace DeclarationSource.IsNative

variable {s s' : DeclarationSource} (h : IsNative s s')

include h

theorem headings_eq : s'.headings = s.headings := by
  unfold DeclarationSource.headings
  rw [h.declarations, List.filterMap_map]
  rfl

/-- The ancestry of a declaration does not depend on annotations. -/
theorem ancestry_eq (d : Declaration) (own : String) :
    Ancestry.of s' d.toNative own = Ancestry.of s d own := by
  have hsupers : d.toNative.supers = d.supers := rfl
  refine Ancestry.of_congr (fun _ => True) (fun ref _ => ?_) (fun _ _ _ _ _ _ => trivial) hsupers
    (fun _ _ => trivial) own
  rw [DeclarationSource.heading?_eq_find?, DeclarationSource.heading?_eq_find?, h.headings_eq]

/-- In native terms a declaration is built as it is written, or fails for the same reason. -/
theorem buildEntity_toNative {c c' : Context} (hc : c.source = s) (hc' : c'.source = s')
    (hprefixes : c.config.classPrefixes = c'.config.classPrefixes) {kind : EntityKind}
    (hlookup : kind = .entity → c'.ancestor? = c.ancestor?) (d : Declaration) :
    buildEntity c' d.toNative kind = (buildEntity c d kind).mapError BuildError.toNative := by
  have hknown : d.toNative.knownName? = d.knownName? := rfl
  have hmarks := typeMarks_toNative h.catalog h.catalog' d
  unfold buildEntity
  simp only [hc, hc', hknown, hmarks, h.catalog, h.catalog', h.members, hprefixes,
    unresolvedReference?_toNative]
  cases d.knownName? with
  | none => rfl
  | some name =>
    cases unresolvedReference? (s.typeMarks d) with
    | some ref => rfl
    | none =>
      cases s.members d with
      | error failure => rfl
      | ok members =>
        simp only [Option.map_none, Except.map, Except.mapError, bind, Except.bind,
          hasMark_toNative, findMark?_toNative, Option.bind_map, Function.comp_def,
          Mark.getString?_toNative, Mark.getBoolean?_toNative, ownProperties_toNative,
          flatMap_listeners_toNative, tableNameOf_toNative, h.ancestry_eq]
        -- only the build of an entity looks for ancestors
        by_cases hkind : kind = .entity
        · rw [hlookup hkind]
          rfl
        · simp only [beq_false_of_ne hkind]
          rfl

end DeclarationSource.IsNative

end Metamodel

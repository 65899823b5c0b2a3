import Mathlib.Data.List.DropRight
import Metamodel.Proofs.Run.Identifiers
import Metamodel.Proofs.Run.Remarks
import Metamodel.Proofs.Run.ToMany
import Metamodel.Proofs.Text.Split

/-!
# What messages are about

A run has a fixed set of things to say about a declaration while it is built (`BuildFinding`) and about
a node when the graph is checked (`NodeFinding`). Each finding is about the type it was made for. Its
message names that type at a place that depends on the code alone, so that it can be read off
(`subject?`), as long as names hold no blanks. Only the warning about a reserved table name does not
name the type.
-/

namespace Metamodel

/-! ## Forms -/

/-- What can be found about a declaration of a name while it is built. -/
inductive BuildFinding (s : DeclarationSource) (d : Declaration) (name : String) :
    Diagnostic → Prop where
  | reference {mark : Mark} {key : String} (hmark : mark ∈ s.typeMarks d) (hkey : key ∈ mark.keys)
      (type : String) : BuildFinding s d name
        ⟨.unresolvedAnnotationReference, .error, mark.name ++ "." ++ key ++ " of " ++ name ++
          " refers to unresolved type " ++ type, some name, none, d.source⟩
  | failure (reason : String) : BuildFinding s d name
      ⟨.internalError, .error, "Unexpected failure processing " ++ name ++ ": " ++ reason, some name,
        none, d.source⟩
  | identifier (given : String) : BuildFinding s d name
      ⟨.invalidEntityName, .error, "Invalid class identifier " ++ given ++ " on " ++ name, some name,
        none, d.source⟩
  | several (m : Member) {p : Property} (hp : p.IsNamed) (hmember : s.HasMember d p.memberName) :
      BuildFinding s d name (multipleFinding s.catalog name d.source m p)
  | type (place : Option Location) {p : Property} (hp : p.IsNamed)
      (hmember : s.HasMember d p.memberName) :
      BuildFinding s d name (unresolvedFinding name place p)
  | dropped {m : Member} (hmember : s.HasMember d m.name) (p : Property) :
      BuildFinding s d name (droppedFinding name d.source m p)
  | supertype (ancestor : String) : BuildFinding s d name (unresolvedSupertype name d.source ancestor)

/-- What can be found about a node. -/
inductive NodeFinding (e : Entity) : Diagnostic → Prop where
  | missingKey : NodeFinding e (Graph.nodeFinding e .missingKey .error
      ("Entity " ++ e.qualifiedName ++ " must have at least one key property"))
  | multipleVersion (names : String) : NodeFinding e (Graph.nodeFinding e .multipleVersion .error
      ("Entity " ++ e.qualifiedName ++ " declares more than one version property (" ++ names ++ ")"))
  | toMany {p : Property} (hp : p ∈ e.properties) : NodeFinding e (OwnedProperty.toManyFinding ⟨e, p⟩)
  | empty : NodeFinding e (Graph.nodeFinding e .emptyEntity .warning
      (e.qualifiedName ++ " declares no properties"))
  | loneKey (only : Property) : NodeFinding e ⟨.loneGeneratedKey, .warning,
      e.qualifiedName ++ " has only a generated key property " ++ only.name ++
        "; nothing else is persisted", some e.qualifiedName, some only.name, e.source⟩
  | reservedTable (h : isReservedName e.tableName = true) : NodeFinding e
      (Graph.nodeFinding e .reservedTableName .warning
        ("Table or view name " ++ e.tableName ++ " may need to be escaped"))

theorem BuildFinding.entity_eq {s : DeclarationSource} {d : Declaration} {name : String}
    {f : Diagnostic} (h : BuildFinding s d name f) : f.entity = some name := by
  cases h <;> rfl

theorem NodeFinding.entity_eq {e : Entity} {f : Diagnostic} (h : NodeFinding e f) :
    f.entity = some e.qualifiedName := by
  cases h <;> rfl

/-! ## Findings of a run have these forms -/

theorem exists_mark_of_unresolvedReference? {marks : List Mark} {mark key type : String}
    (h : unresolvedReference? marks = some (mark, key, type)) :
    ∃ m ∈ marks, m.name = mark ∧ key ∈ m.keys := by
  obtain ⟨m, hm, hfound⟩ := List.exists_of_findSome?_eq_some h
  obtain ⟨key', hkey', hvalue⟩ := List.exists_of_findSome?_eq_some hfound
  obtain ⟨type', -, htriple⟩ := Option.map_eq_some_iff.1 hvalue
  obtain ⟨rfl, rfl, -⟩ := Prod.mk.inj htriple |>.imp_right Prod.mk.inj
  exact ⟨m, hm, rfl, hkey'⟩

/-- What is said of a member is said of a property of the declaration. -/
theorem buildFinding_of_mem_memberFindings {s : DeclarationSource} {d : Declaration}
    {members : List Member} (hmembers : s.members d = .ok members) {owner : Owner} {name : String}
    {x : (Member × Property) × Bool} (hx : x.1 ∈ owner.mapped s.catalog members) {f : Diagnostic}
    (hf : f ∈ memberFindings s.catalog name d.source x) : BuildFinding s d name f := by
  obtain ⟨hm, hextract⟩ := mem_mapped_iff.1 hx
  have hof := isOf_of_extractProperty? hextract
  have hmember := DeclarationSource.hasMember_of_isOf hmembers hm hof
  unfold memberFindings at hf
  split at hf
  · rw [keptFindings_eq] at hf
    rcases List.mem_append.1 hf with hf | hf
    · rw [Graph.eq_of_mem_ite hf]
      exact .several x.1.1 hof.isNamed hmember
    · rw [Graph.eq_of_mem_ite hf]
      exact .type _ hof.isNamed hmember
  · rw [List.mem_singleton.1 hf]
    rw [hof.memberName_eq] at hmember
    exact .dropped hmember x.1.2

namespace Run

variable {s : DeclarationSource} {config : Config} {outDir : String}

/-- What is said of a declaration that cannot be built. -/
theorem buildFinding_rejection {kind : EntityKind} {d : Declaration} {name : String}
    (hname : d.knownName? = some name) {e : BuildError} (h : s.obstacle? kind d = some e) :
    BuildFinding s d name (rejection d e) := by
  rcases DeclarationSource.obstacle_cases h with
    ⟨hnone, -⟩ | ⟨own, mark, key, type, hown, href, rfl⟩ | ⟨own, failure, hown, -, -, rfl⟩
  · rw [hname] at hnone
    cases hnone
  · obtain rfl := Option.some.inj (hname.symm.trans hown)
    obtain ⟨m, hm, rfl, hkey⟩ := exists_mark_of_unresolvedReference? href
    exact .reference hm hkey type
  · have hlabel : d.label = name := by
      rw [Declaration.label, hname]
    have hfinding : rejection d (.supply failure) = ⟨.internalError, .error,
        "Unexpected failure processing " ++ name ++ ": " ++ failure.message, some name, none,
        d.source⟩ := by
      rw [rejection, hlabel]
      rfl
    rw [hfinding]
    exact .failure _

theorem buildFinding_of_mem_findings {kind : EntityKind} {d : Declaration} {name : String}
    (hname : d.knownName? = some name) {f : Diagnostic}
    (hf : f ∈ findings (build s config).context kind d) : BuildFinding s d name f := by
  unfold findings at hf
  cases hb : buildEntity (build s config).context d kind with
  | error e =>
    rw [hb] at hf
    rw [List.mem_singleton.1 hf]
    have hobstacle := buildEntity_eq_error_iff.1 hb
    rw [source_build] at hobstacle
    exact buildFinding_rejection hname hobstacle
  | ok b =>
    rw [hb] at hf
    obtain ⟨members, hbuilt⟩ := isBuilt_of_buildEntity hb
    obtain rfl := Option.some.inj (hname.symm.trans hbuilt.named)
    have hmembers := members_of_isBuilt hbuilt
    change f ∈ b.diagnostics at hf
    rw [hbuilt.diagnostics_eq hb, source_build] at hf
    rcases List.mem_append.1 hf with hf | hf
    · rcases List.mem_append.1 hf with hf | hf
      · obtain ⟨given, -, rfl⟩ := List.mem_map.1 hf
        exact .identifier given
      · obtain ⟨x, hx, hf⟩ := List.mem_flatMap.1 hf
        have hmapped := List.mem_map_of_mem (f := Prod.fst) hx
        rw [map_fst_flagFirsts] at hmapped
        exact buildFinding_of_mem_memberFindings hmembers hmapped hf
    · obtain ⟨ancestor, rfl⟩ := exists_of_mem_supertypeFindings hf
      exact .supertype ancestor

end Run

theorem nodeFinding_of_mem_nodeFindings {g : Graph} {e : Entity} {f : Diagnostic}
    (hf : f ∈ g.nodeFindings e) : NodeFinding e f := by
  simp only [Graph.nodeFindings, List.mem_append] at hf
  rcases hf with ((((h | h) | h) | h) | h) | h
  · rw [Graph.eq_of_mem_ite h]
    exact .missingKey
  · rw [Graph.eq_of_mem_ite h]
    exact .multipleVersion _
  · obtain ⟨p, hp, rfl⟩ := List.mem_map.1 h
    exact .toMany (List.mem_of_mem_filter hp)
  · rw [Graph.eq_of_mem_ite h]
    exact .empty
  · unfold Graph.loneGeneratedKey at h
    split at h
    · rw [Graph.eq_of_mem_ite h]
      exact .loneKey _
    · cases h
  · unfold Graph.reservedTableName at h
    split at h
    · rw [List.mem_singleton.1 h]
      exact .reservedTable (by assumption)
    · cases h

/-! ## Reading messages -/

/-- The words of a message. -/
def wordsOf (message : String) : List (List Char) :=
  Text.split ' ' message.toList

/-- The type that a message of a code names, when names hold no blanks. -/
def subject? (code : DiagnosticCode) (words : List (List Char)) : Option (List Char) :=
  match code with
  | .unresolvedAnnotationReference => words[2]?
  | .internalError => words[3]?.map List.dropLast
  | .invalidEntityName => words.getLast?
  | .multipleCardinality | .duplicateMember => words[3]?
  | .unresolvedType =>
    if words.head? = some "Supertype".toList then words.reverse[3]?
    else words.reverse[3]?.map fun word => (word.rdropWhile (· ≠ '.')).dropLast
  | .missingKey | .multipleVersion => words[1]?
  | .toManyNotCollection => words[4]?
  | .emptyEntity | .loneGeneratedKey => words[0]?
  | _ => none

/-- Names in messages hold no blanks, and members are named by identifiers. -/
structure DeclarationSource.IsPlain (s : DeclarationSource) : Prop where
  names : ∀ d ∈ s.declarations, ∀ name, d.knownName? = some name → ' ' ∉ name.toList
  marks : ∀ d ∈ s.declarations, ∀ m ∈ s.typeMarks d, ' ' ∉ m.name.toList ∧
    ∀ key ∈ m.keys, ' ' ∉ key.toList
  members : s.NamesMembers fun name => Naming.isIdentifier name = true

theorem notMem_of_isIdentifier {name : String} (h : Naming.isIdentifier name = true) :
    ' ' ∉ name.toList ∧ '.' ∉ name.toList := by
  refine ⟨fun hmem => ?_, fun hmem => ?_⟩
  · exact absurd (Naming.isIdentifierChar_of_mem h hmem) (by decide)
  · exact absurd (Naming.isIdentifierChar_of_mem h hmem) (by decide)

/-- Words behind which a message goes on. -/
def sentence (words : List (List Char)) (rest : List Char) : List Char :=
  words.foldr (fun word text => word ++ ' ' :: text) rest

theorem split_sentence {words : List (List Char)} {rest : List Char} (h : ∀ word ∈ words, ' ' ∉ word) :
    Text.split ' ' (sentence words rest) = words ++ Text.split ' ' rest := by
  induction words with
  | nil => rfl
  | cons word words ih =>
    obtain ⟨hword, hwords⟩ := List.forall_mem_cons.1 h
    rw [List.cons_append, ← ih hwords]
    exact Text.split_append_cons hword _

/-- The word behind some words of a message. -/
theorem getElem?_wordsOf {message : String} {words : List (List Char)} {word rest : List Char}
    (h : message.toList = sentence words (word ++ ' ' :: rest)) (hwords : ∀ word ∈ words, ' ' ∉ word)
    (hword : ' ' ∉ word) : (wordsOf message)[words.length]? = some word := by
  rw [wordsOf, h, split_sentence hwords, Text.split_append_cons hword,
    List.getElem?_append_right (Nat.le_refl _), Nat.sub_self]
  rfl

/-- A message that ends in what cannot be done with a name. -/
theorem wordsOf_unresolved {message : String} {front word : List Char}
    (h : message.toList = front ++ ' ' :: (word ++ ' ' :: "cannot be resolved".toList))
    (hword : ' ' ∉ word) :
    wordsOf message = Text.split ' ' front ++
      [word, "cannot".toList, "be".toList, "resolved".toList] := by
  rw [wordsOf, h, Text.split_append_sep, Text.split_append_cons hword]
  rfl

theorem getElem?_reverse_unresolved (words : List (List Char)) (word : List Char) :
    (words ++ [word, "cannot".toList, "be".toList, "resolved".toList]).reverse[3]? = some word := by
  rw [List.reverse_append]
  rfl

/-- A qualified member without the member. -/
theorem dropLast_rdropWhile_dot {name member : List Char} (h : '.' ∉ member) :
    ((name ++ '.' :: member).rdropWhile (· ≠ '.')).dropLast = name := by
  have hmember : ∀ c ∈ member.reverse, decide (c ≠ '.') = true := by
    intro c hc
    refine decide_eq_true ?_
    rintro rfl
    exact h (List.mem_reverse.1 hc)
  rw [List.rdropWhile, List.reverse_append, List.reverse_cons, List.append_assoc,
    List.dropWhile_append_of_pos hmember, List.singleton_append,
    List.dropWhile_cons_of_neg (by simp), List.reverse_cons, List.reverse_reverse,
    List.dropLast_concat]

/-- The message of a finding that is made while a declaration is built names the declaration. -/
theorem subject_of_buildFinding {s : DeclarationSource} (hs : s.IsPlain) {d : Declaration}
    (hd : d ∈ s.declarations) {name : String} (hname : d.knownName? = some name) {f : Diagnostic}
    (h : BuildFinding s d name f) : subject? f.code (wordsOf f.message) = some name.toList := by
  have hplain := hs.names d hd name hname
  have hproperty {p : Property} (hp : p.IsNamed) (hmember : s.HasMember d p.memberName) :
      ' ' ∉ p.name.toList ∧ '.' ∉ p.name.toList :=
    notMem_of_isIdentifier (hp.isIdentifier_name (hs.members d hd _ hmember))
  cases h with
  | @reference mark key hmark hkey type =>
    obtain ⟨hm, hk⟩ := hs.marks d hd mark hmark
    have hfirst : ' ' ∉ mark.name.toList ++ '.' :: key.toList := by
      simpa using ⟨hm, hk key hkey⟩
    have htext : (mark.name ++ "." ++ key ++ " of " ++ name ++ " refers to unresolved type " ++
        type).toList = sentence [mark.name.toList ++ '.' :: key.toList, "of".toList]
          (name.toList ++ ' ' :: ("refers to unresolved type ".toList ++ type.toList)) := by
      simp [sentence]
    refine getElem?_wordsOf htext ?_ hplain
    simp only [List.forall_mem_cons]
    exact ⟨hfirst, by decide, List.forall_mem_nil _⟩
  | failure reason =>
    have htext : ("Unexpected failure processing " ++ name ++ ": " ++ reason).toList =
        sentence ["Unexpected".toList, "failure".toList, "processing".toList]
          ((name.toList ++ [':']) ++ ' ' :: reason.toList) := by
      simp [sentence]
    have hword := getElem?_wordsOf htext (by decide) (by simpa using hplain)
    exact (congrArg (Option.map List.dropLast) hword).trans (congrArg some List.dropLast_concat)
  | identifier given =>
    have htext : ("Invalid class identifier " ++ given ++ " on " ++ name).toList =
        ("Invalid class identifier ".toList ++ given.toList ++ " on".toList) ++
          ' ' :: name.toList := by
      simp
    rw [wordsOf, htext, Text.split_append_sep, Text.split_of_notMem hplain]
    simp only [subject?, List.getLast?_concat]
  | @several m p hp hmember =>
    have htext : (multipleFinding s.catalog name d.source m p).message.toList =
        sentence ["Property".toList, p.name.toList, "of".toList]
          (name.toList ++ ' ' :: ("declares several relationships (".toList ++
            (", ".intercalate ((m.relationships s.catalog).map Cardinality.text)).toList ++
              ")".toList)) := by
      simp [multipleFinding, sentence]
    refine getElem?_wordsOf htext ?_ hplain
    simp only [List.forall_mem_cons]
    exact ⟨by decide, (hproperty hp hmember).1, by decide, List.forall_mem_nil _⟩
  | @type place p hp hmember =>
    obtain ⟨hblank, hdot⟩ := hproperty hp hmember
    have htext : (unresolvedFinding name place p).message.toList =
        ("Type".toList ++ ' ' :: (p.type.name.toList ++ " of".toList)) ++
          ' ' :: ((name.toList ++ '.' :: p.name.toList) ++
            ' ' :: "cannot be resolved".toList) := by
      simp [unresolvedFinding]
    have hword : ' ' ∉ name.toList ++ '.' :: p.name.toList := by
      simpa using ⟨hplain, hblank⟩
    rw [wordsOf_unresolved htext hword, Text.split_append_cons (by decide)]
    simp only [unresolvedFinding, subject?]
    rw [if_neg (by simp), getElem?_reverse_unresolved, Option.map_some, dropLast_rdropWhile_dot hdot]
  | @dropped m hmember p =>
    have hm := (notMem_of_isIdentifier (hs.members d hd _ hmember)).1
    have htext : (droppedFinding name d.source m p).message.toList =
        sentence ["Member".toList, m.name.toList, "of".toList]
          (name.toList ++ ' ' :: ("maps to existing property ".toList ++ p.name.toList ++
            "; first declaration kept".toList)) := by
      simp [droppedFinding, sentence]
    refine getElem?_wordsOf htext ?_ hplain
    simp only [List.forall_mem_cons]
    exact ⟨by decide, hm, by decide, List.forall_mem_nil _⟩
  | supertype ancestor =>
    have htext : (unresolvedSupertype name d.source ancestor).message.toList =
        ("Supertype".toList ++ ' ' :: (ancestor.toList ++ " of".toList)) ++
          ' ' :: (name.toList ++ ' ' :: "cannot be resolved".toList) := by
      simp [unresolvedSupertype]
    rw [wordsOf_unresolved htext hplain, Text.split_append_cons (by decide)]
    simp only [unresolvedSupertype, subject?]
    rw [if_pos (by simp), getElem?_reverse_unresolved]

theorem blank_notMem_cardinality (c : Option Cardinality) :
    ' ' ∉ ((c.map Cardinality.text).getD "").toList := by
  cases c with
  | none => decide
  | some c => cases c <;> decide

/-- So does the message of a finding about a node, except for the warning about its table. -/
theorem subject_of_nodeFinding {e : Entity} (hname : ' ' ∉ e.qualifiedName.toList)
    (hproperties : ∀ p ∈ e.properties, ' ' ∉ p.name.toList) {f : Diagnostic}
    (h : NodeFinding e f) (hcode : f.code ≠ .reservedTableName) :
    subject? f.code (wordsOf f.message) = some e.qualifiedName.toList := by
  have hfirst : ∀ word ∈ ["Entity".toList], ' ' ∉ word := by decide
  cases h with
  | missingKey =>
    have htext : ("Entity " ++ e.qualifiedName ++ " must have at least one key property").toList =
        sentence ["Entity".toList]
          (e.qualifiedName.toList ++ ' ' :: "must have at least one key property".toList) := by
      simp [sentence]
    exact getElem?_wordsOf htext hfirst hname
  | multipleVersion names =>
    have htext : ("Entity " ++ e.qualifiedName ++ " declares more than one version property (" ++
        names ++ ")").toList = sentence ["Entity".toList] (e.qualifiedName.toList ++
          ' ' :: ("declares more than one version property (".toList ++ names.toList ++
            ")".toList)) := by
      simp [sentence]
    exact getElem?_wordsOf htext hfirst hname
  | @toMany p hp =>
    have htext : (OwnedProperty.toManyFinding ⟨e, p⟩).message.toList =
        sentence [((p.cardinality.map Cardinality.text).getD "").toList, "property".toList,
          p.name.toList, "of".toList] (e.qualifiedName.toList ++
            ' ' :: ("must be a collection type, not ".toList ++ p.declaredTypeName.toList)) := by
      simp [OwnedProperty.toManyFinding, sentence]
    refine getElem?_wordsOf htext ?_ hname
    simp only [List.forall_mem_cons]
    exact ⟨blank_notMem_cardinality p.cardinality, by decide, hproperties p hp, by decide,
      List.forall_mem_nil _⟩
  | empty =>
    have htext : (e.qualifiedName ++ " declares no properties").toList =
        sentence [] (e.qualifiedName.toList ++ ' ' :: "declares no properties".toList) := by
      simp [sentence]
    exact getElem?_wordsOf htext (List.forall_mem_nil _) hname
  | loneKey only =>
    have htext : (e.qualifiedName ++ " has only a generated key property " ++ only.name ++
        "; nothing else is persisted").toList = sentence [] (e.qualifiedName.toList ++
          ' ' :: ("has only a generated key property ".toList ++ only.name.toList ++
            "; nothing else is persisted".toList)) := by
      simp [sentence]
    exact getElem?_wordsOf htext (List.forall_mem_nil _) hname
  | reservedTable h => exact absurd rfl hcode

end Metamodel

import Metamodel.Proofs.Artifact.Access
import Metamodel.Proofs.Artifact.Members
import Metamodel.Proofs.Graph.Assembly
import Metamodel.Proofs.Value.Equality

/-!
# Generated equality

A generated class compares two of its instances, and hashes one, by expressions that read the same
properties (`Derivation.exists_paths`). So its equality is an equivalence relation too, and equal
instances have equal hashes, whatever the properties are (`hashCode_congr`).
-/

namespace Metamodel

/-- What a program holds at one moment. -/
structure Store where
  /-- the objects that are values, by identity -/
  memory : Nat → Value
  /-- the value that an instance of a generated class gives for a path -/
  read : Nat → String → Value
  heldIn_read : ∀ i path, (read i path).HeldIn memory

/-- What an expression reads of the instance with the given name. -/
def path? (name expression : String) : Option String :=
  (Naming.after? name.toList expression.toList).map String.ofList

/-- The value of an expression in a method of an instance that may be given another. -/
def Store.evaluate (s : Store) (this : Nat) (other : Option Nat) (expression : String) : Value :=
  match path? "this." expression with
  | some path => s.read this path
  | none =>
    match other, path? "other." expression with
    | some i, some path => s.read i path
    | _, _ => .undefined

/-- A comparison of what two expressions give. -/
structure Comparison where
  left : String
  right : String

def Comparison.text (c : Comparison) : String :=
  "valueEquals(" ++ c.left ++ ", " ++ c.right ++ ")"

/-- Whether the values of the expressions are equal. -/
def Comparison.holds (c : Comparison) (s : Store) (this other : Nat) : Bool :=
  (s.evaluate this (some other) c.left).equals (s.evaluate this (some other) c.right)

namespace ImplementationArtifact

open Rendering (otherExpression)

variable (i : ImplementationArtifact)

/-- The comparisons that equality is made of. -/
def comparisons : List Comparison :=
  i.equalityExpressions.map fun e => ⟨e, otherExpression e⟩

/-- The method that compares an instance with anything. -/
def equalsLines : List String :=
  ["  equals(other: unknown): boolean \x7b",
    "    if (other === this) return true;",
    "    if (!(other instanceof " ++ i.className ++ ")) return false;",
    if i.comparisons.isEmpty then "    return false;"
    else "    return " ++ " && ".intercalate (i.comparisons.map Comparison.text) ++ ";",
    "  \x7d"]

/-- What the method gives for two instances of the class. -/
def equals (s : Store) (this other : Nat) : Bool :=
  other == this || (!i.comparisons.isEmpty && i.comparisons.all (·.holds s this other))

/-- The method that hashes an instance. -/
def hashCodeLines : List String :=
  ["  hashCode(): number \x7b",
    "    return hashValues([" ++ ", ".intercalate i.equalityExpressions ++ "]);",
    "  \x7d"]

/-- What the method gives for an instance. -/
def hashCode (s : Store) (this : Nat) : Int :=
  Hash.ofValues (i.equalityExpressions.map (s.evaluate this none))

/-- The expressions read the paths of the instance itself. -/
def Compares (paths : List String) : Prop :=
  i.equalityExpressions = paths.map ("this." ++ ·)

end ImplementationArtifact

/-! ## Expressions -/

section Expressions

variable {i : ImplementationArtifact} {s : Store} {paths : List String}

theorem otherExpression_this (path : String) :
    Rendering.otherExpression ("this." ++ path) = "other." ++ path := by
  have hprefix : "this.".toList.isPrefixOf ("this." ++ path).toList = true := by
    rw [List.isPrefixOf_iff_prefix, String.toList_append]
    exact List.prefix_append _ _
  rw [Rendering.otherExpression, if_pos hprefix, String.toList_append]
  exact congrArg ("other." ++ ·) (String.ofList_toList)

theorem path?_append (name path : String) : path? name (name ++ path) = some path := by
  have hafter : Naming.after? name.toList (name ++ path).toList = some path.toList :=
    Naming.after?_eq_some_iff.2 String.toList_append
  rw [path?, hafter, Option.map_some, String.ofList_toList]

theorem path?_this_other (path : String) : path? "this." ("other." ++ path) = none := by
  rw [path?, String.toList_append]
  rfl

theorem evaluate_this (s : Store) (this : Nat) (other : Option Nat) (path : String) :
    s.evaluate this other ("this." ++ path) = s.read this path := by
  unfold Store.evaluate
  rw [path?_append]

theorem evaluate_other (s : Store) (this other : Nat) (path : String) :
    s.evaluate this (some other) ("other." ++ path) = s.read other path := by
  unfold Store.evaluate
  rw [path?_this_other, path?_append]

/-- Instances are equal when they are one, or when they are compared by something and give equal
values for all of it. -/
theorem equals_iff_of_compares (h : i.Compares paths) (this other : Nat) :
    i.equals s this other = true ↔ this = other ∨
      paths ≠ [] ∧ ∀ path ∈ paths, (s.read this path).equals (s.read other path) = true := by
  have hcomparisons : i.comparisons = paths.map fun path => ⟨"this." ++ path, "other." ++ path⟩ := by
    unfold ImplementationArtifact.comparisons
    rw [h, List.map_map]
    apply List.map_congr_left
    intro path _
    rw [Function.comp_apply, otherExpression_this]
  have hholds (path : String) :
      (⟨"this." ++ path, "other." ++ path⟩ : Comparison).holds s this other =
        (s.read this path).equals (s.read other path) := by
    rw [Comparison.holds, evaluate_this, evaluate_other]
  rw [ImplementationArtifact.equals, hcomparisons, List.all_map, Bool.or_eq_true, beq_iff_eq]
  apply or_congr eq_comm
  simp [hholds]

theorem hashCode_of_compares (h : i.Compares paths) (this : Nat) :
    i.hashCode s this = Hash.ofValues (paths.map (s.read this)) := by
  unfold ImplementationArtifact.hashCode
  rw [h, List.map_map]
  congr 1
  apply List.map_congr_left
  intro path _
  apply evaluate_this

/-- Equality of instances is an equivalence relation. -/
theorem equivalence_of_compares (s : Store) (h : i.Compares paths) :
    Equivalence fun a b => i.equals s a b = true := by
  simp only [equals_iff_of_compares h]
  constructor
  · intro a
    exact Or.inl rfl
  · rintro a b (rfl | ⟨hne, hab⟩)
    · exact Or.inl rfl
    · refine Or.inr ⟨hne, fun path hpath => ?_⟩
      exact Value.equals_symm (s.heldIn_read a path) (s.heldIn_read b path) (hab path hpath)
  · rintro a b c (rfl | ⟨hne, hab⟩) hbc
    · exact hbc
    rcases hbc with rfl | ⟨-, hbc⟩
    · exact Or.inr ⟨hne, hab⟩
    · refine Or.inr ⟨hne, fun path hpath => ?_⟩
      exact Value.equals_trans (s.heldIn_read a path) (s.heldIn_read b path)
        (s.heldIn_read c path) (hab path hpath) (hbc path hpath)

theorem hashCode_congr (h : i.Compares paths) {a b : Nat} (hab : i.equals s a b = true) :
    i.hashCode s a = i.hashCode s b := by
  rw [hashCode_of_compares h, hashCode_of_compares h]
  rcases (equals_iff_of_compares h a b).1 hab with rfl | ⟨-, hall⟩
  · rfl
  have hheld (j : Nat) : ∀ v ∈ paths.map (s.read j), v.HeldIn s.memory := by
    intro v hv
    obtain ⟨path, -, rfl⟩ := List.mem_map.1 hv
    exact s.heldIn_read j path
  apply Hash.ofValues_congr (hheld a) (hheld b)
  rw [List.forall₂_map_left_iff, List.forall₂_map_right_iff, List.forall₂_same]
  exact hall

end Expressions

/-! ## Derived classes -/

section Printed

open Rendering

variable {i : ImplementationArtifact}

theorem hasLines_of_mem_methods {m : ClassMember} {lines : List String} (hm : m ∈ i.methods)
    (hlines : lines <+: m.lines) : HasLines (implementation i) lines := by
  refine ⟨_, implementation_eq i, ?_⟩
  apply List.infix_append_of_infix_left
  apply List.infix_append_of_infix_right
  obtain ⟨before, after, hmethods⟩ := List.append_of_mem hm
  rw [hmethods, List.flatMap_append, List.flatMap_cons]
  apply List.infix_append_of_infix_right
  apply List.infix_append_of_infix_left
  exact hlines.isInfix

theorem hasLines_equalsLines : HasLines (implementation i) i.equalsLines := by
  have hm : i.equalsMember ∈ i.methods := List.mem_append_right _ List.mem_cons_self
  apply hasLines_of_mem_methods hm
  have hlines : i.equalsMember.lines = i.equalsLines ++ [""] := by
    unfold ImplementationArtifact.equalsMember ImplementationArtifact.equalsLines
      ImplementationArtifact.comparisons
    rw [List.isEmpty_map, List.map_map]
    rfl
  exact hlines ▸ List.prefix_append _ _

theorem hasLines_hashCodeLines : HasLines (implementation i) i.hashCodeLines := by
  have hm : i.hashCodeMember ∈ i.methods :=
    List.mem_append_right _ (List.mem_cons_of_mem _ List.mem_cons_self)
  apply hasLines_of_mem_methods hm
  exact List.prefix_append _ [""]

end Printed

namespace Derivation

/-- What a class compares are properties of the instance. -/
theorem exists_path (e : Entity) (p : Property) :
    ∃ path, (accessor e p).readExpression = "this." ++ path := by
  show ∃ path, (if e.isInterface then "this." ++ ("$" ++ p.name ++ "_value")
    else if p.memberKind == .method then "this." ++ p.memberName ++ "()"
    else "this." ++ p.name) = "this." ++ path
  split
  · exact ⟨_, rfl⟩
  split
  · exact ⟨_, String.append_assoc ..⟩
  · exact ⟨_, rfl⟩

theorem exists_paths (o : DeriveOptions) (e : Entity) :
    ∃ paths, (implementation o e).Compares paths := by
  choose path hpath using exists_path e
  have hmap (ps : List Property) : ps.map (fun p => (accessor e p).readExpression) =
      (ps.map path).map ("this." ++ ·) := by
    rw [List.map_map]
    exact List.map_congr_left fun p _ => hpath p
  exact ⟨_, hmap _⟩

end Derivation

/-! ## The contract of equality and hashes -/

namespace Sample

/-- All instances give the same instant, each by a date of its own. -/
def simultaneous : Store where
  memory i := .date (some 0) i
  read i _ := .date (some 0) i
  heldIn_read i _ j hj := by
    cases hj
    rfl

def purchasesOnly : Graph := Graph.assemble [purchase .entity] [] []

def within : DeriveOptions := ⟨"runtime", "generated", true⟩

end Sample

namespace Graph

/-- Equality of values is an equivalence relation, and lists whose values are equal one by one have
one hash. So it is with the instances of a generated class: its equality is an equivalence
relation, and equal instances have equal hashes. -/
theorem equality_contract (g : Graph) (o : DeriveOptions) :
    (∀ memory, Equivalence fun v w : { v : Value // v.HeldIn memory } => v.1.equals w.1 = true) ∧
      (∀ memory vs ws, (∀ v ∈ vs, v.HeldIn memory) → (∀ w ∈ ws, w.HeldIn memory) →
        List.Forall₂ (fun v w => v.equals w = true) vs ws → Hash.ofValues vs = Hash.ofValues ws) ∧
      ∀ i, .implementation i ∈ g.artifacts o →
        HasLines (Rendering.implementation i) i.equalsLines ∧
          HasLines (Rendering.implementation i) i.hashCodeLines ∧
          ∀ s : Store, (Equivalence fun a b => i.equals s a b = true) ∧
            ∀ a b, i.equals s a b = true → i.hashCode s a = i.hashCode s b := by
  refine ⟨Value.equivalence_equals, fun memory vs ws => Hash.ofValues_congr, ?_⟩
  intro i hi
  obtain ⟨e, -, -, rfl⟩ := Derivation.implementation_mem_artifacts_iff.1 hi
  obtain ⟨paths, hpaths⟩ := Derivation.exists_paths o e
  exact ⟨hasLines_equalsLines, hasLines_hashCodeLines, fun s =>
    ⟨equivalence_of_compares s hpaths, fun a b => hashCode_congr hpaths⟩⟩

/-- Two purchases at the same instant are equal. Lists with numbers that are none, and with the same
bytes in two arrays, have one hash. -/
theorem equality_of_purchases :
    let i := Derivation.implementation Sample.within (Sample.purchase .entity)
    .implementation i ∈ Sample.purchasesOnly.artifacts Sample.within ∧
      i.equals Sample.simultaneous 1 2 = true ∧
      i.hashCode Sample.simultaneous 1 = i.hashCode Sample.simultaneous 2 ∧
      Hash.ofValues [.number .nan, .bytes [7] 1] = Hash.ofValues [.number .nan, .bytes [7] 2] := by
  intro i
  have hi : .implementation i ∈ Sample.purchasesOnly.artifacts Sample.within :=
    Derivation.implementation_mem_artifacts_iff.2 ⟨_, List.mem_cons_self, rfl, rfl⟩
  have hequal : i.equals Sample.simultaneous 1 2 = true := by decide +kernel
  obtain ⟨-, hlists, hclasses⟩ := equality_contract Sample.purchasesOnly Sample.within
  refine ⟨hi, hequal, (hclasses i hi).2.2 Sample.simultaneous |>.2 1 2 hequal, ?_⟩
  apply hlists fun j => .bytes [7] j
  · simp [Value.HeldIn, Value.identity?]
  · simp [Value.HeldIn, Value.identity?]
  · exact .cons (by decide) (.cons (by decide) .nil)

end Graph

end Metamodel

import Mathlib.Data.List.Forall2
import Metamodel.Value.Hash

/-!
# Equality and hashes

Values of one memory are equal when they are the same but for the objects that hold dates and bytes
(`equals_iff`): an identity belongs to one object, so that it tells the contents too. Hence equality
is an equivalence relation (`equivalence_equals`), and equal values have equal hashes, one by one and
in lists (`ofValues_congr`).
-/

namespace Metamodel

namespace Value

/-- The identity of the object that holds the value. -/
def identity? : Value → Option Nat
  | .date _ identity | .bytes _ identity | .object _ identity => some identity
  | _ => none

/-- The value is no object, or the one that a memory has under its identity. -/
def HeldIn (memory : Nat → Value) (v : Value) : Prop :=
  ∀ i, v.identity? = some i → memory i = v

/-- What equality goes by: dates with an instant and bytes count without their identity. -/
def content : Value → Value
  | .date instant identity => .date instant (if instant.isSome then 0 else identity)
  | .bytes bs _ => .bytes bs 0
  | v => v

variable {memory : Nat → Value} {v w : Value}

theorem HeldIn.eq_of_identity {i j : Nat} (hv : v.HeldIn memory) (hw : w.HeldIn memory)
    (hvi : v.identity? = some i) (hwj : w.identity? = some j) (h : i = j) : v = w :=
  (hv i hvi).symm.trans (h ▸ hw j hwj)

/-- Values of one memory are equal when their contents are. -/
theorem equals_iff (hv : v.HeldIn memory) (hw : w.HeldIn memory) :
    v.equals w = true ↔ v.content = w.content := by
  cases v with
  | date s i =>
    cases w with
    | date t j =>
      have hsame (h : i = j) : s = t := (date.inj (hv.eq_of_identity hw rfl rfl h)).1
      simp only [equals, content, Bool.or_eq_true, Bool.and_eq_true, beq_iff_eq, date.injEq]
      cases s <;> cases t <;> simp at hsame ⊢ <;> omega
    | _ => simp [equals, content]
  | bytes x i =>
    cases w with
    | bytes y j =>
      have hsame (h : i = j) : x = y := (bytes.inj (hv.eq_of_identity hw rfl rfl h)).1
      simp only [equals, content, Bool.or_eq_true, beq_iff_eq, bytes.injEq, and_true]
      exact or_iff_right_of_imp hsame
    | _ => simp [equals, content]
  | object k i =>
    cases w with
    | object l j =>
      have hsame (h : i = j) : k = l := (object.inj (hv.eq_of_identity hw rfl rfl h)).1
      simp only [equals, content, beq_iff_eq, object.injEq]
      exact (and_iff_right_of_imp hsame).symm
    | _ => simp [equals, content]
  | _ => cases w <;> simp [equals, content]

theorem equals_symm (hv : v.HeldIn memory) (hw : w.HeldIn memory) (h : v.equals w = true) :
    w.equals v = true := by
  rw [equals_iff hw hv]
  exact ((equals_iff hv hw).1 h).symm

theorem equals_trans {u : Value} (hv : v.HeldIn memory) (hw : w.HeldIn memory)
    (hu : u.HeldIn memory) (h : v.equals w = true) (h' : w.equals u = true) :
    v.equals u = true := by
  rw [equals_iff hv hu]
  exact ((equals_iff hv hw).1 h).trans ((equals_iff hw hu).1 h')

/-- Equality is an equivalence relation of the values of a memory. -/
theorem equivalence_equals (memory : Nat → Value) :
    Equivalence fun v w : { v : Value // v.HeldIn memory } => v.1.equals w.1 = true where
  refl v := (equals_iff v.2 v.2).2 rfl
  symm {v w} := equals_symm v.2 w.2
  trans {v w u} := equals_trans v.2 w.2 u.2

end Value

namespace Hash

variable {memory : Nat → Value}

/-- A hash depends on the content alone. -/
theorem ofValue_content (v : Value) : ofValue v.content = ofValue v := by
  cases v <;> rfl

theorem ofValue_congr {v w : Value} (hv : v.HeldIn memory) (hw : w.HeldIn memory)
    (h : v.equals w = true) : ofValue v = ofValue w := by
  rw [← ofValue_content v, (Value.equals_iff hv hw).1 h, ofValue_content]

/-- Lists whose values are equal one by one have one hash. -/
theorem ofValues_congr {vs ws : List Value} (hvs : ∀ v ∈ vs, v.HeldIn memory)
    (hws : ∀ w ∈ ws, w.HeldIn memory) (h : List.Forall₂ (fun v w => v.equals w = true) vs ws) :
    ofValues vs = ofValues ws := by
  have hmap : vs.map ofValue = ws.map ofValue := by
    induction h with
    | nil => rfl
    | @cons v w vs ws hvw _ ih =>
      rw [List.map_cons, List.map_cons, ih (fun v hv => hvs v (List.mem_cons_of_mem _ hv))
        (fun w hw => hws w (List.mem_cons_of_mem _ hw)),
        ofValue_congr (hvs v List.mem_cons_self) (hws w List.mem_cons_self) hvw]
  exact congrArg (ofNumbers 1) hmap

end Hash

end Metamodel

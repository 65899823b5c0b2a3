import Mathlib.Algebra.BigOperators.Fin
import Mathlib.Data.Int.ModEq
import Metamodel.Proofs.Decimal.Whole
import Metamodel.Proofs.Text.Units
import Metamodel.Value.Hash

/-!
# Hashes as integers

The steps of a hash are exact (`combine_eq`): products wrap to 32 bits, and the sums stay in the
range where binary64 numbers are integers. So the hash of a list is the signed 32-bit form of a
polynomial in 31 (`wraps_ofNumbers`), whatever the length of the list.
-/

namespace Metamodel.Hash

open Decimal (Binary64 Magnitude wrap32 significandEnd)

/-! ## Signed 32-bit integers -/

/-- The integer `k` is one of signed 32 bits. -/
structure InRange (k : Int) : Prop where
  lower : -2 ^ 31 ≤ k
  upper : k < 2 ^ 31

/-- The integer `k` is the signed 32-bit form of `n`. -/
structure Wraps (n k : Int) : Prop extends InRange k where
  congruent : k ≡ n [ZMOD 2 ^ 32]

theorem InRange.wraps {k : Int} (h : InRange k) : Wraps k k :=
  ⟨h, rfl⟩

theorem InRange.natAbs_lt {k : Int} (h : InRange k) : k.natAbs < 2 ^ 33 := by
  have := h.lower
  have := h.upper
  omega

theorem inRange_zero : InRange 0 := by constructor <;> decide

theorem inRange_one : InRange 1 := by constructor <;> decide

theorem inRange_wrap32 (n : Int) : InRange (wrap32 n) where
  lower := Int.le_bmod (by decide)
  upper := Int.bmod_lt (by decide)

theorem wraps_wrap32 (n : Int) : Wraps n (wrap32 n) where
  toInRange := inRange_wrap32 n
  congruent := (Int.modEq_iff_dvd.2 Int.dvd_bmod_sub_self).symm

/-- There is one signed 32-bit form. -/
theorem Wraps.unique {n k l : Int} (hk : Wraps n k) (hl : Wraps n l) : k = l := by
  have hdvd := (hk.congruent.trans hl.congruent.symm).dvd
  have := hk.lower
  have := hk.upper
  have := hl.lower
  have := hl.upper
  omega

theorem Wraps.of_modEq {m n k : Int} (h : Wraps n k) (hmn : n ≡ m [ZMOD 2 ^ 32]) : Wraps m k :=
  ⟨h.toInRange, h.congruent.trans hmn⟩

/-! ## One step -/

/-- A step takes an integer of up to 33 bits in without loss. -/
theorem combine_eq (h : Int) {n : Int} (hn : n.natAbs < 2 ^ 33) :
    combine h n = wrap32 (31 * h + n) := by
  have hlower := (inRange_wrap32 (31 * h)).lower
  have hupper := (inRange_wrap32 (31 * h)).upper
  have hexact : (Binary64.ofInt (wrap32 (31 * h)) + Binary64.ofInt n).truncate =
      wrap32 (31 * h) + n := by
    apply Binary64.truncate_ofInt_add_ofInt <;>
      · unfold significandEnd
        omega
  rw [combine, hexact]
  exact Int.bmod_add_bmod

/-! ## Lists of numbers -/

/-- The value of a list of digits in base 31. -/
def polynomial (ns : List Int) : Int :=
  ∑ i : Fin ns.length, 31 ^ (ns.length - 1 - i) * ns[i]

@[simp] theorem polynomial_nil : polynomial [] = 0 := rfl

theorem polynomial_cons (n : Int) (ns : List Int) :
    polynomial (n :: ns) = 31 ^ ns.length * n + polynomial ns := by
  show ∑ i : Fin (ns.length + 1), 31 ^ (ns.length + 1 - 1 - i) * (n :: ns)[i] = _
  rw [Fin.sum_univ_succ]
  apply congrArg (31 ^ ns.length * n + ·)
  apply Finset.sum_congr rfl
  intro i _
  simp [Nat.sub_sub, Nat.add_comm]

/-- The hash of a list goes on from the hash of what stands before it. -/
theorem wraps_ofNumbers {start : Int} {ns : List Int} (hstart : InRange start)
    (hns : ∀ n ∈ ns, n.natAbs < 2 ^ 33) :
    Wraps (31 ^ ns.length * start + polynomial ns) (ofNumbers start ns) := by
  induction ns generalizing start with
  | nil => simpa [ofNumbers] using hstart.wraps
  | cons n ns ih =>
    have hstep := combine_eq start (hns n List.mem_cons_self)
    have hwraps := wraps_wrap32 (31 * start + n)
    rw [← hstep] at hwraps
    have htail := ih hwraps.toInRange fun m hm => hns m (List.mem_cons_of_mem _ hm)
    apply htail.of_modEq
    calc 31 ^ ns.length * combine start n + polynomial ns
        ≡ 31 ^ ns.length * (31 * start + n) + polynomial ns [ZMOD 2 ^ 32] :=
          (hwraps.congruent.mul_left _).add_right _
      _ = 31 ^ (n :: ns).length * start + polynomial (n :: ns) := by
          rw [polynomial_cons, List.length_cons]
          ring

theorem inRange_combine (h n : Int) : InRange (combine h n) :=
  inRange_wrap32 _

theorem inRange_ofNumbers {start : Int} (hstart : InRange start) (ns : List Int) :
    InRange (ofNumbers start ns) := by
  induction ns generalizing start with
  | nil => exact hstart
  | cons n ns ih => exact ih (inRange_combine start n)

/-! ## Values -/

theorem inRange_ofUnits (us : List Nat) : InRange (ofUnits us) :=
  inRange_ofNumbers inRange_zero _

theorem inRange_ofNumber (x : Binary64) : InRange (ofNumber x) := by
  unfold ofNumber
  split
  · apply inRange_wrap32
  · apply inRange_ofUnits

theorem inRange_ofInstant (instant : Option Int) : InRange (ofInstant instant) := by
  unfold ofInstant
  split
  · apply inRange_wrap32
  · apply inRange_ofNumber

theorem inRange_ofValue (v : Value) : InRange (ofValue v) := by
  cases v with
  | undefined => exact inRange_zero
  | null => exact inRange_zero
  | boolean b => cases b <;> constructor <;> decide
  | string s => apply inRange_ofUnits
  | number x => apply inRange_ofNumber
  | bigint n => apply inRange_ofUnits
  | date instant identity => apply inRange_ofInstant
  | bytes content identity => exact inRange_ofNumbers inRange_one _
  | object kind identity => apply inRange_ofUnits

theorem ofNumber_of_toInt? {x : Binary64} {n : Int} (h : x.toInt? = some n) :
    ofNumber x = wrap32 n := by
  rw [ofNumber, h]

/-- A number that is an integer hashes to its signed 32-bit form. -/
theorem wraps_ofNumber {s : Bool} {m : Magnitude} {n : Int}
    (h : (Binary64.finite s m).signedUnits = n * Magnitude.unitsPerOne) :
    Wraps n (ofNumber (.finite s m)) := by
  rw [ofNumber_of_toInt? (Binary64.toInt?_of_units h)]
  apply wraps_wrap32

theorem ofNumber_ofInt {n : Int} (h : InRange n) : ofNumber (Binary64.ofInt n) = n := by
  have hlt : n.natAbs < significandEnd := h.natAbs_lt.trans (by decide)
  obtain ⟨s, m, hm, hunits⟩ := Binary64.exists_ofInt hlt
  rw [hm]
  exact (wraps_ofNumber hunits).unique h.wraps

theorem ofValue_number (x : Binary64) : ofValue (.number x) = ofNumber x := rfl

/-- Bytes hash as the list of their numbers. -/
theorem ofValue_bytes (content : List UInt8) (identity : Nat) :
    ofValue (.bytes content identity) =
      ofValues (content.map fun b => .number (Binary64.ofInt b.toNat)) := by
  show ofNumbers 1 _ = ofNumbers 1 _
  rw [List.map_map]
  congr 1
  apply List.map_congr_left
  intro b _
  have hbyte := b.toNat_lt
  rw [Function.comp_apply, ofValue_number, ofNumber_ofInt]
  constructor <;> omega

theorem ofValues_append (xs ys : List Value) :
    ofValues (xs ++ ys) = ofNumbers (ofValues xs) (ys.map ofValue) := by
  rw [ofValues, List.map_append]
  exact List.foldl_append

theorem inRange_ofValues (vs : List Value) : InRange (ofValues vs) :=
  inRange_ofNumbers inRange_one _

/-- The hash of a list goes on from the hash of its first part, which is all it needs of it. -/
theorem wraps_ofValues_append (xs ys : List Value) :
    Wraps (31 ^ ys.length * ofValues xs + polynomial (ys.map ofValue)) (ofValues (xs ++ ys)) := by
  rw [ofValues_append, ← List.length_map]
  apply wraps_ofNumbers (inRange_ofValues xs)
  intro n hn
  obtain ⟨v, -, rfl⟩ := List.mem_map.1 hn
  exact (inRange_ofValue v).natAbs_lt

theorem wraps_ofValues (vs : List Value) :
    Wraps (31 ^ vs.length + polynomial (vs.map ofValue)) (ofValues vs) := by
  simpa [ofValues, ofNumbers] using wraps_ofValues_append [] vs

theorem wraps_ofUnits {us : List Nat} (h : ∀ u ∈ us, u < 0x10000) :
    Wraps (polynomial (us.map Int.ofNat)) (ofUnits us) := by
  have hunits : ∀ n ∈ us.map Int.ofNat, n.natAbs < 2 ^ 33 := by
    intro n hn
    obtain ⟨u, hu, rfl⟩ := List.mem_map.1 hn
    have := h u hu
    simp
    omega
  simpa [ofUnits] using wraps_ofNumbers inRange_zero hunits

theorem Wraps.eq_iff {n h : Int} (hh : Wraps n h) (k : Int) : k = h ↔ Wraps n k :=
  ⟨fun hk => hk ▸ hh, fun hk => hk.unique hh⟩

/-- Hashing is arithmetic modulo `2 ^ 32`. The hash of a list of values and that of a sequence of
16-bit units are the signed 32-bit forms of polynomials in 31, and the hash of an integer, however
large, is its own; a text hashes as its units and bytes as the list of their numbers. The hash of
two lists in a row comes from that of the first and from the second. -/
theorem hash_eq_iff :
    (∀ vs k, k = ofValues vs ↔ Wraps (31 ^ vs.length + polynomial (vs.map ofValue)) k) ∧
      (∀ us : List Nat, (∀ u ∈ us, u < 0x10000) →
        ∀ k, k = ofUnits us ↔ Wraps (polynomial (us.map Int.ofNat)) k) ∧
      (∀ t : String, ofValue (.string t) = ofUnits (Text.units t.toList) ∧
        ∀ u ∈ Text.units t.toList, u < 0x10000) ∧
      (∀ s m n, (Binary64.finite s m).signedUnits = n * Magnitude.unitsPerOne →
        ∀ k, k = ofValue (.number (.finite s m)) ↔ Wraps n k) ∧
      (∀ content identity, ofValue (.bytes content identity) =
        ofValues (content.map fun b => .number (Binary64.ofInt b.toNat))) ∧
      ∀ xs ys k, k = ofValues (xs ++ ys) ↔
        Wraps (31 ^ ys.length * ofValues xs + polynomial (ys.map ofValue)) k := by
  refine ⟨fun vs => (wraps_ofValues vs).eq_iff, fun us hus => (wraps_ofUnits hus).eq_iff,
    fun t => ⟨rfl, fun u => Text.lt_of_mem_units⟩, ?_, ofValue_bytes,
    fun xs ys => (wraps_ofValues_append xs ys).eq_iff⟩
  intro s m n hn
  rw [ofValue_number]
  exact (wraps_ofNumber hn).eq_iff

/-- Two units, a surrogate without its partner and an `a`, and a number beyond 53 bits. -/
theorem hash_of_units_and_number :
    ofUnits [0xD800, 0x61] = 31 * 0xD800 + 0x61 ∧
      ofValue (.number (.finite true ⟨0x10000000000001, 1084, by decide, by decide, by decide⟩)) =
        -(2 ^ 10) := by
  constructor
  · symm
    rw [hash_eq_iff.2.1 _ (by decide)]
    exact ⟨⟨by decide, by decide⟩, by decide⟩
  · symm
    rw [hash_eq_iff.2.2.2.1 true _ (-((2 ^ 52 + 1) * 2 ^ 10)) (by decide +kernel)]
    exact ⟨⟨by decide, by decide⟩, by decide⟩

end Metamodel.Hash

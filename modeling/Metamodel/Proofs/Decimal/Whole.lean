import Metamodel.Proofs.Decimal.Shortest

/-!
# Whole numbers

Whole numbers of at most 53 bits are binary64 numbers: a quotient that is one is rounded to itself
(`exists_round?_mul`). So integers in that range are kept and added without loss
(`truncate_ofInt_add_ofInt`, `ofNat_add_ofNat`), and a number that is an integer is read as this
integer (`toInt?_of_units`).
-/

namespace Metamodel.Decimal

namespace Magnitude

/-- The number of units in one is a power of two, beyond the 53rd. -/
theorem exists_unitsPerOne : ∃ u, 52 ≤ u ∧ u ≤ 1074 ∧ unitsPerOne = 2 ^ u := by
  unfold unitsPerOne
  -- the power stays a variable, so that nothing computes it
  generalize hu : 1074 = u
  exact ⟨u, by omega, by omega, Nat.one_shiftLeft u⟩

theorem divideToEven_mul (q : Nat) {d : Nat} (hd : 0 < d) : divideToEven (q * d) d = q := by
  unfold divideToEven
  rw [Nat.mul_mod_left, Nat.mul_div_cancel q hd]
  apply if_neg
  simp
  omega

theorem log2_mul_two_pow {k : Nat} (hk : k ≠ 0) (u : Nat) : (k * 2 ^ u).log2 = k.log2 + u := by
  rw [Nat.log2_eq_iff (Nat.mul_ne_zero hk (Nat.two_pow_pos u).ne')]
  constructor
  · rw [Nat.pow_add]
    exact Nat.mul_le_mul_right _ (Nat.log2_self_le hk)
  · rw [Nat.add_right_comm, Nat.pow_add]
    exact Nat.mul_lt_mul_of_pos_right Nat.lt_log2_self (Nat.two_pow_pos u)

/-- A quotient that is a whole number of at most 53 bits is a magnitude. -/
theorem exists_round?_mul {k den : Nat} (hk : k < significandEnd) (hden : 0 < den) :
    ∃ m, round? (k * den) den = some m ∧ m.units = k * unitsPerOne := by
  by_cases hzero : k = 0
  · refine ⟨zero, ?_, ?_⟩
    · simp [round?, hzero, divideToEven, ofParts?, significandEnd, zero]
    · simp [hzero, zero, units]
  obtain ⟨u, hule, hu, hone⟩ := exists_unitsPerOne
  have hlog : k.log2 ≤ 52 := by
    have := (Nat.log2_lt hzero).2 (show k < 2 ^ 53 from hk)
    omega
  -- the significand holds the bits of `k` at its upper end
  obtain ⟨shift, hshift⟩ := Nat.exists_eq_add_of_le hlog
  obtain ⟨scale, hscale⟩ := Nat.exists_eq_add_of_le (show 52 ≤ k.log2 + u by omega)
  have hround : (k * den * unitsPerOne / den).log2 - 52 = scale := by
    rw [Nat.mul_right_comm, Nat.mul_div_cancel _ hden, hone, log2_mul_two_pow hzero]
    omega
  have hpow : 2 ^ shift * 2 ^ scale = unitsPerOne := by
    rw [hone, ← Nat.pow_add, show shift + scale = u by omega]
  have hunits : k * den * unitsPerOne = k * 2 ^ shift * (den <<< scale) := by
    rw [← hpow, Nat.shiftLeft_eq]
    ring
  have hfull : fullSignificand ≤ k * 2 ^ shift := by
    calc fullSignificand = 2 ^ k.log2 * 2 ^ shift := by rw [← Nat.pow_add, ← hshift]; rfl
      _ ≤ k * 2 ^ shift := Nat.mul_le_mul_right _ (Nat.log2_self_le hzero)
  have hlt : k * 2 ^ shift < significandEnd := by
    have hend : 2 ^ (k.log2 + 1) * 2 ^ shift = significandEnd := by
      rw [← Nat.pow_add, Nat.add_right_comm, ← hshift]
      rfl
    rw [← hend]
    apply Nat.mul_lt_mul_of_pos_right Nat.lt_log2_self (Nat.two_pow_pos _)
  have hle : scale ≤ 2045 := by omega
  have hpos : 0 < den <<< scale := by
    rw [Nat.shiftLeft_eq]
    exact Nat.mul_pos hden (Nat.two_pow_pos _)
  refine ⟨⟨k * 2 ^ shift, scale, hlt, hle, Or.inr hfull⟩, ?_, ?_⟩
  · unfold round?
    simp only [hround]
    rw [hunits, divideToEven_mul _ hpos, if_neg (by simpa using hlt.ne)]
    exact dif_pos ⟨hlt, hle, Or.inr hfull⟩
  · show (k * 2 ^ shift) <<< scale = k * unitsPerOne
    rw [Nat.shiftLeft_eq, Nat.mul_assoc, hpow]

end Magnitude

namespace Binary64

open Magnitude

theorem signedUnits_of_units {s : Bool} {m : Magnitude} {k : Nat} (h : m.units = k * unitsPerOne) :
    (finite s m).signedUnits = (if s then -(k : Int) else k) * unitsPerOne := by
  cases s with
  | false =>
    show (m.units : Int) = k * unitsPerOne
    exact_mod_cast h
  | true =>
    show -(m.units : Int) = -(k : Int) * unitsPerOne
    rw [Int.neg_mul]
    exact congrArg Neg.neg (by exact_mod_cast h)

theorem truncate_of_units {s : Bool} {m : Magnitude} {k : Nat} (h : m.units = k * unitsPerOne) :
    (finite s m).truncate = if s then -(k : Int) else k := by
  have hfloor : m.floor = k := by
    rw [floor, h]
    exact Nat.mul_div_cancel k unitsPerOne_pos
  show (if s then -(m.floor : Int) else m.floor) = _
  rw [hfloor]

/-- A finite number whose value is an integer is read as this integer. -/
theorem toInt?_of_units {s : Bool} {m : Magnitude} {n : Int}
    (h : (finite s m).signedUnits = n * unitsPerOne) : (finite s m).toInt? = some n := by
  have hpos : (0 : Int) < unitsPerOne := by exact_mod_cast unitsPerOne_pos
  have hunits : m.units = n.natAbs * unitsPerOne := by
    rw [← Int.natAbs_natCast unitsPerOne, ← Int.natAbs_mul, ← h]
    cases s
    · exact (Int.natAbs_natCast _).symm
    · exact ((Int.natAbs_neg _).trans (Int.natAbs_natCast _)).symm
  have hwhole : m.isWhole = true := by
    rw [Magnitude.isWhole, hunits, Nat.mul_mod_left]
    rfl
  have hsign : (if s then -(n.natAbs : Int) else n.natAbs) = n := by
    rw [signedUnits_of_units hunits] at h
    exact Int.eq_of_mul_eq_mul_right hpos.ne' h
  show (if m.isWhole then some (finite s m).truncate else none) = some n
  rw [if_pos hwhole, truncate_of_units hunits, hsign]

theorem ofRatio_of_round? {num den : Nat} {m : Magnitude} (h : round? num den = some m) (s : Bool) :
    ofRatio s num den = finite s m := by
  -- the function itself is opened: comparing its applied forms would evaluate `round?`
  conv =>
    lhs
    arg 0
    delta ofRatio
  rw [h]

/-- An integer of at most 53 bits is a number. -/
theorem exists_ofInt {n : Int} (h : n.natAbs < significandEnd) :
    ∃ s m, ofInt n = finite s m ∧ (finite s m).signedUnits = n * unitsPerOne := by
  have hsign : (if decide (n < 0) then -(n.natAbs : Int) else n.natAbs) = n := by
    simp only [decide_eq_true_eq]
    split <;> omega
  obtain ⟨m, hround, hunits⟩ := exists_round?_mul h Nat.one_pos
  refine ⟨decide (n < 0), m, ?_, ?_⟩
  · rw [← ofRatio_of_round? hround, Nat.mul_one]
    rfl
  · rw [signedUnits_of_units hunits, hsign]

/-- A decimal without a fraction is read as the integer that it is. -/
theorem ofDecimal_natAbs {n : Int} (h : n.natAbs < significandEnd) :
    ofDecimal (decide (n < 0)) n.natAbs 0 = ofInt n := by
  by_cases hzero : n = 0
  · rw [hzero]
    decide +kernel
  · have hlength : (Nat.toDigits 10 n.natAbs).length ≤ 16 := by
      refine (Nat.length_toDigits_le_iff (by decide) (by decide)).2 (h.trans ?_)
      decide
    have hsmall : ¬((n.natAbs == 0 ||
        decide ((0 : Int) + (Nat.toDigits 10 n.natAbs).length < -400)) = true) := by
      simp [hzero]
    rw [ofDecimal, if_neg hsmall, if_neg (by omega), if_neg (by decide)]
    show ofRatio _ (n.natAbs * tenTo 0) 1 = ofRatio _ n.natAbs 1
    rw [tenTo, Nat.pow_eq, Nat.pow_zero, Nat.mul_one]

/-- The sum of two integers is exact when all three have at most 53 bits. -/
theorem truncate_ofInt_add_ofInt {a b : Int} (ha : a.natAbs < significandEnd)
    (hb : b.natAbs < significandEnd) (hab : (a + b).natAbs < significandEnd) :
    (ofInt a + ofInt b).truncate = a + b := by
  obtain ⟨s, m, hm, hmunits⟩ := exists_ofInt ha
  obtain ⟨t, n, hn, hnunits⟩ := exists_ofInt hb
  obtain ⟨r, hround, hr⟩ := exists_round?_mul hab unitsPerOne_pos
  have hpos : (0 : Int) < unitsPerOne := by exact_mod_cast unitsPerOne_pos
  have hsum : (finite s m).signedUnits + (finite t n).signedUnits = (a + b) * unitsPerOne := by
    rw [hmunits, hnunits, Int.add_mul]
  have hratio (negative : Bool) :
      ofRatio negative ((a + b) * (unitsPerOne : Int)).natAbs unitsPerOne = finite negative r := by
    rw [Int.natAbs_mul, Int.natAbs_natCast]
    exact ofRatio_of_round? hround _
  have hadd : finite s m + finite t n =
      ofRatio (if (a + b) * (unitsPerOne : Int) == 0 then s && t
        else decide ((a + b) * (unitsPerOne : Int) < 0)) ((a + b) * (unitsPerOne : Int)).natAbs
          unitsPerOne := by
    rw [← hsum]
    rfl
  rw [hm, hn, hadd, hratio, truncate_of_units hr]
  by_cases hzero : a + b = 0
  · simp [hzero]
  · have hne : (a + b) * (unitsPerOne : Int) ≠ 0 := Int.mul_ne_zero hzero hpos.ne'
    have hsign : (a + b) * (unitsPerOne : Int) < 0 ↔ a + b < 0 := by
      rw [← Int.zero_mul (unitsPerOne : Int)]
      exact Int.mul_lt_mul_right hpos
    rw [beq_false_of_ne hne]
    simp only [Bool.false_eq_true, if_false, decide_eq_true_eq, hsign]
    split <;> omega

/-- A natural number of at most 53 bits is a number. -/
theorem exists_ofNat {n : Nat} (h : n < significandEnd) :
    ∃ m, ofNat n = finite false m ∧ m.units = n * unitsPerOne := by
  obtain ⟨m, hround, hunits⟩ := exists_round?_mul h Nat.one_pos
  refine ⟨m, ?_, hunits⟩
  rw [← ofRatio_of_round? hround, Nat.mul_one]
  rfl

/-- The sum of two natural numbers is exact when it has at most 53 bits. -/
theorem ofNat_add_ofNat {a b : Nat} (h : a + b < significandEnd) :
    ofNat a + ofNat b = ofNat (a + b) := by
  obtain ⟨m, hm, hmunits⟩ := exists_ofNat (lt_of_le_of_lt (Nat.le_add_right a b) h)
  obtain ⟨n, hn, hnunits⟩ := exists_ofNat (lt_of_le_of_lt (Nat.le_add_left b a) h)
  obtain ⟨k, hk, hkunits⟩ := exists_ofNat h
  obtain ⟨r, hround, hr⟩ := exists_round?_mul h unitsPerOne_pos
  have hsum : (finite false m).signedUnits + (finite false n).signedUnits =
      ((a + b) * unitsPerOne : Nat) := by
    show (m.units : Int) + n.units = _
    rw [hmunits, hnunits, Nat.add_mul, Nat.cast_add]
  have hsign (total : Nat) :
      (if (total : Int) == 0 then false && false else decide ((total : Int) < 0)) = false := by
    split
    · rfl
    · exact decide_eq_false (by omega)
  have hadd : finite false m + finite false n =
      ofRatio false ((a + b) * unitsPerOne) unitsPerOne := by
    show ofRatio (if (finite false m).signedUnits + (finite false n).signedUnits == 0 then
      false && false else decide ((finite false m).signedUnits + (finite false n).signedUnits < 0))
      ((finite false m).signedUnits + (finite false n).signedUnits).natAbs unitsPerOne = _
    rw [hsum, hsign, Int.natAbs_natCast]
  rw [hm, hn, hk, hadd, ofRatio_of_round? hround, eq_of_units_eq (hr.trans hkunits.symm)]

theorem ofNat_end_add_one :
    ofNat (significandEnd - 1) + ofNat 1 = ofNat significandEnd ∧
      ofNat significandEnd + ofNat 1 = ofNat significandEnd := by
  decide +kernel

end Binary64

end Metamodel.Decimal

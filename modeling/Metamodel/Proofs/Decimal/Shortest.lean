import Mathlib.Algebra.Order.Field.Basic
import Mathlib.Data.Rat.Cast.Order
import Mathlib.Tactic.Ring
import Mathlib.Tactic.Linarith
import Mathlib.Tactic.FieldSimp
import Mathlib.Tactic.NormNum
import Metamodel.Decimal.Shortest

/-!
# Decimals that read back

The intervals of numbers that round to different magnitudes have nothing in common
(`eq_of_encloses`), and seventeen digits are enough for one of two neighbouring decimals to lie in
the interval of a magnitude (`exists_withDigits?`). So the shortest digits lie in it too
(`encloses_shortest`) and tell the magnitude (`eq_of_value_shortest`).
-/

namespace Metamodel.Decimal

/-- The number that the decimal stands for. -/
def Digits.value (d : Digits) : ℚ :=
  d.coefficient * 10 ^ d.exponent

theorem tenTo_eq (n : Nat) : tenTo n = 10 ^ n := rfl

theorem digitCount_le_iff {n k : Nat} : digitCount n ≤ k ↔ n < 10 ^ k := by
  unfold digitCount
  obtain rfl | hn := Nat.eq_zero_or_pos n
  · simp
  · rw [if_neg (by simpa using hn.ne')]
    obtain rfl | hk := Nat.eq_zero_or_pos k
    · simp [hn.ne', Nat.toDigits_ne_nil]
    · exact Nat.length_toDigits_le_iff (by decide) hk

theorem Digits.value_eq (d : Digits) : d.value = d.ratio.1 / d.ratio.2 := by
  unfold value ratio
  split
  · rename_i h
    obtain ⟨n, hn⟩ : ∃ n : ℕ, d.exponent = -n := ⟨d.exponent.natAbs, by omega⟩
    simp only [hn, tenTo_eq, Int.natAbs_neg, Int.natAbs_natCast, zpow_neg, zpow_natCast]
    push_cast
    rfl
  · obtain ⟨n, hn⟩ : ∃ n : ℕ, d.exponent = n := ⟨d.exponent.natAbs, by omega⟩
    simp only [hn, tenTo_eq, Int.natAbs_natCast, zpow_natCast]
    push_cast
    rw [div_one]

theorem Digits.ratio_pos (d : Digits) : 0 < d.ratio.2 := by
  unfold ratio
  split
  · exact Nat.pow_pos (by decide)
  · exact Nat.one_pos

namespace Magnitude

theorem unitsPerOne_pos : 0 < unitsPerOne := by decide +kernel

theorem quartersPerOne_pos : 0 < quartersPerOne :=
  Nat.mul_pos (by decide) unitsPerOne_pos

/-- The number of quarters lies in the interval that rounds to the magnitude. -/
def Encloses (m : Magnitude) (q : ℚ) : Prop :=
  if m.significand % 2 = 0 then m.lowerEnd ≤ q ∧ q ≤ m.upperEnd
  else m.lowerEnd < q ∧ q < m.upperEnd

theorem holds_iff {m : Magnitude} {d : Digits} :
    m.holds d = true ↔ m.Encloses (d.value * quartersPerOne) := by
  have hden : (0 : ℚ) < d.ratio.2 := by exact_mod_cast d.ratio_pos
  have hvalue : d.value * quartersPerOne = d.ratio.1 * quartersPerOne / d.ratio.2 := by
    rw [d.value_eq]
    ring
  unfold holds Encloses
  rw [hvalue]
  simp only [beq_iff_eq, le_div_iff₀ hden, div_le_iff₀ hden, lt_div_iff₀ hden, div_lt_iff₀ hden]
  split
  · rw [Bool.and_eq_true, decide_eq_true_eq, decide_eq_true_eq]
    exact_mod_cast Iff.rfl
  · rw [Bool.and_eq_true, decide_eq_true_eq, decide_eq_true_eq]
    exact_mod_cast Iff.rfl

/-! ## Intervals -/

/-- The distance of the lower end in quarters of the magnitude's own unit. -/
def lowerGap (m : Magnitude) : Nat :=
  if m.significand == fullSignificand && m.scale != 0 then 1 else 2

theorem quarters_eq (m : Magnitude) : m.quarters = 4 * m.significand * 2 ^ m.scale := by
  rw [quarters, units, Nat.shiftLeft_eq, Nat.mul_assoc]

theorem lowerGap_le (m : Magnitude) : m.lowerGap ≤ 2 := by
  unfold lowerGap
  split <;> decide

theorem lowerEnd_eq (m : Magnitude) :
    m.lowerEnd = (4 * m.significand - m.lowerGap) * 2 ^ m.scale := by
  rw [lowerEnd, quarters_eq, Nat.shiftLeft_eq, Nat.sub_mul]
  rfl

theorem upperEnd_eq (m : Magnitude) : m.upperEnd = (4 * m.significand + 2) * 2 ^ m.scale := by
  rw [upperEnd, quarters_eq, Nat.shiftLeft_eq, Nat.add_mul]

/-- Of two magnitudes, the greater has no lower scale: with a higher one, the other would have a
full significand. -/
theorem scale_le_of_units_le {m n : Magnitude} (h : m.units ≤ n.units) : m.scale ≤ n.scale := by
  by_contra! hscale
  have hm : fullSignificand ≤ m.significand := m.canonical.resolve_left (by omega)
  have hn : n.significand < 2 * fullSignificand := n.significand_lt
  have hlt : n.units < m.units := by
    rw [units, units, Nat.shiftLeft_eq, Nat.shiftLeft_eq]
    calc n.significand * 2 ^ n.scale
        < 2 * fullSignificand * 2 ^ n.scale :=
          Nat.mul_lt_mul_of_pos_right hn (Nat.two_pow_pos _)
      _ = fullSignificand * 2 ^ (n.scale + 1) := by ring
      _ ≤ m.significand * 2 ^ m.scale :=
          Nat.mul_le_mul hm (Nat.pow_le_pow_right (by decide) hscale)
  omega

theorem eq_of_units_eq {m n : Magnitude} (h : m.units = n.units) : m = n := by
  have hscale : m.scale = n.scale :=
    Nat.le_antisymm (scale_le_of_units_le h.le) (scale_le_of_units_le h.ge)
  have hsignificand : m.significand = n.significand := by
    rw [units, units, Nat.shiftLeft_eq, Nat.shiftLeft_eq, hscale] at h
    exact Nat.eq_of_mul_eq_mul_right (Nat.two_pow_pos _) h
  cases m
  cases n
  simp_all

/-- The interval of a magnitude ends where that of a greater one begins, or before; they touch
between neighbours only, of which one has an odd significand. -/
theorem upperEnd_le_lowerEnd {m n : Magnitude} (h : m.units < n.units) :
    m.upperEnd ≤ n.lowerEnd ∧
      (m.upperEnd = n.lowerEnd → m.significand % 2 = 1 ∨ n.significand % 2 = 1) := by
  have hpos : 0 < 2 ^ m.scale := Nat.two_pow_pos _
  have hgap := n.lowerGap_le
  rw [upperEnd_eq, lowerEnd_eq]
  obtain hscale | hscale := (scale_le_of_units_le h.le).eq_or_lt
  · have hlt : m.significand < n.significand := by
      rw [units, units, Nat.shiftLeft_eq, Nat.shiftLeft_eq, hscale] at h
      exact Nat.lt_of_mul_lt_mul_right h
    rw [← hscale]
    refine ⟨Nat.mul_le_mul_right _ (by omega), fun heq => ?_⟩
    have := Nat.eq_of_mul_eq_mul_right hpos heq
    -- The gap below `n` is the short one only when no significand of its scale is below.
    have hshort : n.lowerGap = 2 := by
      refine if_neg fun hfull => ?_
      rw [Bool.and_eq_true, beq_iff_eq, bne_iff_ne] at hfull
      have := m.canonical.resolve_left (hscale ▸ hfull.2)
      omega
    omega
  · have hfull : fullSignificand ≤ n.significand := n.canonical.resolve_left (by omega)
    have hgap : 4 * fullSignificand - 1 ≤ 4 * n.significand - n.lowerGap := by
      unfold lowerGap
      split
      · omega
      · rename_i h
        rw [Bool.and_eq_true, beq_iff_eq, bne_iff_ne, not_and_or] at h
        omega
    have hm : m.significand < 2 * fullSignificand := m.significand_lt
    have hend : (8 * fullSignificand - 2) * 2 ^ m.scale ≤
        (4 * n.significand - n.lowerGap) * 2 ^ n.scale := by
      calc (8 * fullSignificand - 2) * 2 ^ m.scale
          = (4 * fullSignificand - 1) * 2 ^ (m.scale + 1) := by
            rw [Nat.pow_succ', ← Nat.mul_assoc]
            rfl
        _ ≤ (4 * n.significand - n.lowerGap) * 2 ^ n.scale :=
            Nat.mul_le_mul hgap (Nat.pow_le_pow_right (by decide) hscale)
    refine ⟨(Nat.mul_le_mul_right _ (by omega)).trans hend, fun heq => .inl ?_⟩
    rw [← heq] at hend
    have := Nat.le_of_mul_le_mul_right hend hpos
    have : m.significand = 2 * fullSignificand - 1 := by omega
    rw [this]
    rfl

theorem Encloses.ends {m : Magnitude} {q : ℚ} (h : m.Encloses q) :
    m.lowerEnd ≤ q ∧ q ≤ m.upperEnd := by
  unfold Encloses at h
  split at h
  · exact h
  · exact ⟨h.1.le, h.2.le⟩

theorem Encloses.ends_of_odd {m : Magnitude} {q : ℚ} (h : m.Encloses q)
    (hodd : m.significand % 2 = 1) : m.lowerEnd < q ∧ q < m.upperEnd := by
  rwa [Encloses, if_neg (by omega)] at h

theorem encloses_of_lt {m : Magnitude} {q : ℚ} (hlower : m.lowerEnd < q) (hupper : q < m.upperEnd) :
    m.Encloses q := by
  unfold Encloses
  split
  · exact ⟨hlower.le, hupper.le⟩
  · exact ⟨hlower, hupper⟩

theorem not_units_lt_of_encloses {m n : Magnitude} {q : ℚ} (hm : m.Encloses q)
    (hn : n.Encloses q) : ¬m.units < n.units := by
  intro hlt
  obtain ⟨hle, htouch⟩ := upperEnd_le_lowerEnd hlt
  have hends : (m.upperEnd : ℚ) ≤ n.lowerEnd := by exact_mod_cast hle
  have heq : (m.upperEnd : ℚ) = n.lowerEnd :=
    hends.antisymm (hn.ends.1.trans hm.ends.2)
  obtain hodd | hodd := htouch (by exact_mod_cast heq)
  · have := (hm.ends_of_odd hodd).2
    linarith [hn.ends.1]
  · have := (hn.ends_of_odd hodd).1
    linarith [hm.ends.2]

/-- A number rounds to one magnitude. -/
theorem eq_of_encloses {m n : Magnitude} {q : ℚ} (hm : m.Encloses q) (hn : n.Encloses q) :
    m = n :=
  eq_of_units_eq (Nat.le_antisymm (not_lt.1 (not_units_lt_of_encloses hn hm))
    (not_lt.1 (not_units_lt_of_encloses hm hn)))

theorem quarters_pos {m : Magnitude} (h : m.significand ≠ 0) : 0 < m.quarters := by
  rw [quarters_eq]
  exact Nat.mul_pos (Nat.mul_pos (by decide) (Nat.pos_of_ne_zero h)) (Nat.two_pow_pos _)

/-! ## Digits that read back -/

/-- A unit of the decimal place with the given exponent, in quarters. -/
def place (exponent : Int) : ℚ :=
  10 ^ exponent * quartersPerOne

theorem value_mul_quartersPerOne (d : Digits) :
    d.value * quartersPerOne = d.coefficient * place d.exponent := by
  rw [Digits.value, place, mul_assoc]

theorem below_exponent (m : Magnitude) (exponent : Int) :
    (m.below exponent).exponent = exponent := by
  unfold below
  split <;> rfl

/-- The decimal below is the last one of its length that is not above the magnitude. -/
theorem below_coefficient (m : Magnitude) (exponent : Int) :
    (m.below exponent).coefficient * place exponent ≤ m.quarters ∧
      m.quarters < ((m.below exponent).coefficient + 1) * place exponent := by
  have hQ : 0 < quartersPerOne := quartersPerOne_pos
  have hten (n : Nat) : 0 < 10 ^ n := Nat.pow_pos (by decide)
  unfold below place
  split
  · obtain ⟨n, rfl⟩ : ∃ n : ℕ, exponent = -n := ⟨exponent.natAbs, by omega⟩
    have hten' : (0 : ℚ) < 10 ^ n := by exact_mod_cast hten n
    simp only [tenTo_eq, Int.natAbs_neg, Int.natAbs_natCast, zpow_neg, zpow_natCast]
    rw [inv_mul_eq_div, mul_div_assoc', mul_div_assoc', div_le_iff₀ hten', lt_div_iff₀ hten']
    constructor
    · exact_mod_cast Nat.div_mul_le_self _ _
    · exact_mod_cast Nat.lt_mul_of_div_lt (Nat.lt_succ_self _) hQ
  · obtain ⟨n, rfl⟩ : ∃ n : ℕ, exponent = n := ⟨exponent.natAbs, by omega⟩
    simp only [tenTo_eq, Int.natAbs_natCast, zpow_natCast]
    rw [mul_comm (10 ^ n : ℚ)]
    constructor
    · exact_mod_cast Nat.div_mul_le_self _ _
    · exact_mod_cast Nat.lt_mul_of_div_lt (Nat.lt_succ_self _) (Nat.mul_pos hQ (hten n))

/-- The magnitude reaches the place before its decimal exponent. -/
theorem place_le_quarters {m : Magnitude} (h : m.significand ≠ 0) :
    place (m.decimalExponent - 1) ≤ m.quarters := by
  have hM := quarters_pos h
  have hQ : 0 < quartersPerOne := quartersPerOne_pos
  unfold decimalExponent place
  split
  · rename_i hle
    have hquotient : ¬digitCount (m.quarters / quartersPerOne) ≤ 0 := by
      rw [digitCount_le_iff, Nat.pow_zero, not_lt]
      exact Nat.div_pos hle hQ
    obtain ⟨k, hk⟩ := Nat.exists_eq_succ_of_ne_zero (mt Nat.le_of_eq hquotient)
    have hpow : 10 ^ k ≤ m.quarters / quartersPerOne := by
      rw [← not_lt, ← digitCount_le_iff]
      omega
    have hexponent : (digitCount (m.quarters / quartersPerOne) : Int) - 1 = (k : Int) := by omega
    rw [hexponent, zpow_natCast]
    exact_mod_cast (Nat.le_div_iff_mul_le hQ).1 hpow
  · rename_i hlt
    rw [not_le] at hlt
    set c := (quartersPerOne + m.quarters - 1) / m.quarters with hc
    have hpow : c - 1 < 10 ^ digitCount (c - 1) := digitCount_le_iff.1 le_rfl
    -- The quotient is rounded up.
    have hround : quartersPerOne ≤ c * m.quarters := by
      have := Nat.lt_mul_div_succ (quartersPerOne + m.quarters - 1) hM
      rw [← hc, Nat.mul_add_one, Nat.mul_comm] at this
      omega
    have hten : (0 : ℚ) < 10 ^ digitCount (c - 1) := by positivity
    rw [sub_sub_cancel_left, zpow_neg, zpow_natCast, inv_mul_eq_div, div_le_iff₀ hten]
    have : quartersPerOne ≤ m.quarters * 10 ^ digitCount (c - 1) := by
      calc quartersPerOne ≤ c * m.quarters := hround
        _ ≤ 10 ^ digitCount (c - 1) * m.quarters := Nat.mul_le_mul_right _ (by omega)
        _ = m.quarters * 10 ^ digitCount (c - 1) := Nat.mul_comm _ _
    exact_mod_cast this

/-- The unit of the seventeenth place is narrower than the interval that rounds to the magnitude. -/
theorem place_lt_ends {m : Magnitude} (h : m.significand ≠ 0) :
    place (m.decimalExponent - 17) < m.upperEnd - m.lowerEnd := by
  have hunit : place (m.decimalExponent - 1) = place (m.decimalExponent - 17) * 10 ^ 16 := by
    have : m.decimalExponent - 1 = m.decimalExponent - 17 + 16 := by ring
    rw [place, place, this, zpow_add₀ (by norm_num)]
    norm_num
    ring
  have hle := place_le_quarters h
  rw [hunit] at hle
  have hpos : (0 : ℚ) < 2 ^ m.scale := by positivity
  have hupper : (m.upperEnd : ℚ) = (4 * m.significand + 2) * 2 ^ m.scale := by
    exact_mod_cast m.upperEnd_eq
  have hlower : (m.lowerEnd : ℚ) = (4 * m.significand - m.lowerGap) * 2 ^ m.scale := by
    have := m.lowerGap_le
    rw [lowerEnd_eq]
    push_cast [Nat.cast_sub (show m.lowerGap ≤ 4 * m.significand by omega)]
    rfl
  have hquarters : (m.quarters : ℚ) = 4 * m.significand * 2 ^ m.scale := by
    exact_mod_cast m.quarters_eq
  have hwidth : (4 * m.significand : ℚ) < (2 + m.lowerGap) * 10 ^ 16 := by
    have := m.significand_lt
    have : 4 * m.significand < (2 + m.lowerGap) * 10 ^ 16 := by
      unfold lowerGap
      split
      · rename_i hfull
        rw [Bool.and_eq_true, beq_iff_eq] at hfull
        rw [hfull.1]
        decide
      · unfold significandEnd at this
        omega
    exact_mod_cast this
  rw [hupper, hlower]
  nlinarith

theorem quarters_mem_ends (m : Magnitude) : m.lowerEnd ≤ m.quarters ∧ m.quarters < m.upperEnd := by
  have hpos : 0 < 2 <<< m.scale := by
    rw [Nat.shiftLeft_eq]
    exact Nat.mul_pos (by decide) (Nat.two_pow_pos _)
  exact ⟨Nat.sub_le _ _, Nat.lt_add_of_pos_right hpos⟩

/-- One of the two neighbours with seventeen digits reads back. -/
theorem exists_withDigits? {m : Magnitude} (h : m.significand ≠ 0) :
    ∃ d, m.withDigits? 17 = some d := by
  have hlow := value_mul_quartersPerOne (m.below (m.decimalExponent - 17))
  have hhigh := value_mul_quartersPerOne
    { m.below (m.decimalExponent - 17) with
      coefficient := (m.below (m.decimalExponent - 17)).coefficient + 1 }
  obtain ⟨hbelow, habove⟩ := m.below_coefficient (m.decimalExponent - 17)
  rw [below_exponent] at hlow hhigh
  push_cast at hhigh
  have hlower : (m.lowerEnd : ℚ) ≤ m.quarters := by exact_mod_cast m.quarters_mem_ends.1
  have hupper : (m.quarters : ℚ) < m.upperEnd := by exact_mod_cast m.quarters_mem_ends.2
  have hplace := place_lt_ends h
  rw [← hlow] at hbelow
  rw [← hhigh] at habove
  rw [add_mul, ← hlow, one_mul] at hhigh
  have hhit : m.holds (m.below (m.decimalExponent - 17)) = true ∨
      m.holds { m.below (m.decimalExponent - 17) with
        coefficient := (m.below (m.decimalExponent - 17)).coefficient + 1 } = true := by
    rw [holds_iff, holds_iff]
    obtain hlt | hle := lt_or_ge (m.lowerEnd : ℚ)
      ((m.below (m.decimalExponent - 17)).value * quartersPerOne)
    · exact .inl (encloses_of_lt hlt (hbelow.trans_lt hupper))
    · exact .inr (encloses_of_lt (hlower.trans_lt habove) (by linarith))
  simp only [withDigits?]
  split
  · split <;> simp
  · simp
  · simp
  · simp_all

theorem holds_of_withDigits? {m : Magnitude} {n : Nat} {d : Digits}
    (h : m.withDigits? n = some d) : m.holds d = true := by
  simp only [withDigits?] at h
  split at h
  · split at h <;> simp_all
  · simp_all
  · simp_all
  · simp_all

end Magnitude

theorem Digits.value_strip (d : Digits) : d.strip.value = d.value := by
  fun_induction strip with
  | case1 d h ih =>
    obtain ⟨n, hn⟩ := Nat.dvd_of_mod_eq_zero h.2
    rw [ih, value, value, hn, Nat.mul_div_cancel_left n (by decide), zpow_add₀ (by norm_num)]
    push_cast
    ring
  | case2 => rfl

namespace Magnitude

theorem eq_zero_of_significand {m : Magnitude} (h : m.significand = 0) : m = zero := by
  apply eq_of_units_eq
  rw [units, units, h, Nat.zero_shiftLeft]
  rfl

theorem shortest_zero : shortest zero = ⟨0, 0⟩ := by
  have hfound : zero.withDigits? 1 = some ⟨0, 0⟩ := by decide +kernel
  rw [shortest, List.range_succ_eq_map, List.findSome?_cons, hfound, Option.getD_some, Digits.strip]
  exact dif_neg (by simp)

/-- The shortest digits read back as the magnitude. -/
theorem encloses_shortest (m : Magnitude) : m.Encloses (m.shortest.value * quartersPerOne) := by
  by_cases h : m.significand = 0
  · rw [eq_zero_of_significand h, shortest_zero, Encloses, Digits.value]
    simp [zero, lowerEnd, quarters, units]
  obtain ⟨d, hd⟩ := exists_withDigits? h
  have hsome : ((List.range 17).findSome? fun k => m.withDigits? (k + 1)).isSome = true :=
    List.findSome?_isSome_iff.2 ⟨16, by decide, by rw [hd]; rfl⟩
  obtain ⟨found, hfound⟩ := Option.isSome_iff_exists.1 hsome
  obtain ⟨k, -, hk⟩ := List.exists_of_findSome?_eq_some hfound
  rw [shortest, Digits.value_strip, hfound, Option.getD_some, ← holds_iff]
  exact holds_of_withDigits? hk

/-- The shortest digits tell the magnitude. -/
theorem eq_of_value_shortest {m n : Magnitude} (h : m.shortest.value = n.shortest.value) : m = n :=
  eq_of_encloses (h ▸ m.encloses_shortest) n.encloses_shortest

end Magnitude

end Metamodel.Decimal

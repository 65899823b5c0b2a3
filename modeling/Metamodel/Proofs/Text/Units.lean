import Mathlib.Order.Compare
import Metamodel.Text.Units

/-!
# Texts told by their units

The 16-bit units of a text tell its characters (`units_inj`), so the order by units is an order of
texts: texts that compare as equal are the same.
-/

namespace Metamodel.Text

/-- A character and what follows it can be told from their units. -/
theorem charUnits_append_inj {c d : Char} {us vs : List Nat}
    (h : charUnits c ++ us = charUnits d ++ vs) : c = d ∧ us = vs := by
  have hvalid (c : Char) : c.toNat < 0xD800 ∨ 0xDFFF < c.toNat ∧ c.toNat < 0x110000 := c.valid
  have hc := hvalid c
  have hd := hvalid d
  unfold charUnits at h
  rw [← Char.toNat_inj]
  split at h <;> split at h
  all_goals
    simp only [List.cons_append, List.nil_append, List.cons.injEq] at h
  · exact h
  · omega
  · omega
  · obtain ⟨hhigh, hlow, hrest⟩ := h
    exact ⟨by omega, hrest⟩

theorem units_inj {cs ds : List Char} (h : units cs = units ds) : cs = ds := by
  induction cs generalizing ds with
  | nil =>
    cases ds with
    | nil => rfl
    | cons d ds =>
      have hlength := congrArg List.length h
      rw [units_cons, List.length_append, length_charUnits] at hlength
      simp at hlength
      split at hlength <;> omega
  | cons c cs ih =>
    cases ds with
    | nil =>
      have hlength := congrArg List.length h
      rw [units_cons, List.length_append, length_charUnits] at hlength
      simp at hlength
      split at hlength <;> omega
    | cons d ds =>
      rw [units_cons, units_cons] at h
      obtain ⟨rfl, hrest⟩ := charUnits_append_inj h
      rw [ih hrest]

/-- Units have 16 bits. -/
theorem lt_of_mem_units {cs : List Char} {u : Nat} (h : u ∈ units cs) : u < 0x10000 := by
  obtain ⟨c, -, hu⟩ := List.mem_flatMap.1 h
  have hvalid : c.toNat < 0xD800 ∨ 0xDFFF < c.toNat ∧ c.toNat < 0x110000 := c.valid
  unfold charUnits at hu
  split at hu
  · rw [List.mem_singleton.1 hu]
    assumption
  · simp only [List.mem_cons, List.not_mem_nil, or_false] at hu
    omega

theorem eq_of_compareUnits_eq {a b : String} (h : compareUnits a b = .eq) : a = b :=
  String.toList_inj.1 (units_inj (Std.LawfulEqOrd.eq_of_compare h))

instance : Std.TransCmp compareUnits :=
  inferInstanceAs (Std.TransCmp (compareOn fun s : String => units s.toList))

end Metamodel.Text

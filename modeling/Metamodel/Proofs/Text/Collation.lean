import Mathlib.Data.List.Nodup
import Metamodel.Text.Collation

/-!
# The dictionary order

`collate` is a total order of all texts, since a character is known by its rank and its case
(`rank_inj`). A list sorted by it holds the same items in the same places however they came:
`collated_perm` for texts and `collatedBy_perm` for items with distinct keys.
-/

namespace Metamodel.Text

/-! ## Ranks -/

theorem isUpper_iff {c : Char} : c.isUpper = true ↔ 65 ≤ c.toNat ∧ c.toNat ≤ 90 := by
  show decide (65 ≤ c.val ∧ c.val ≤ 90) = true ↔ _
  simp [UInt32.le_iff_toNat_le, ← Char.toNat_val]

theorem isLower_iff {c : Char} : c.isLower = true ↔ 97 ≤ c.toNat ∧ c.toNat ≤ 122 := by
  show (decide (97 ≤ c.val) && decide (c.val ≤ 122)) = true ↔ _
  simp [UInt32.le_iff_toNat_le, ← Char.toNat_val]

theorem isDigit_iff {c : Char} : c.isDigit = true ↔ 48 ≤ c.toNat ∧ c.toNat ≤ 57 := by
  simp only [Char.isDigit, Bool.and_eq_true, decide_eq_true_eq, UInt32.le_iff_toNat_le]
  rfl

theorem rank_of_isUpper {c : Char} (h : c.isUpper = true) : rank c = 100 + (c.toNat - 65) := by
  rw [rank, if_pos h]

theorem rank_of_isLower {c : Char} (h : c.isLower = true) : rank c = 100 + (c.toNat - 97) := by
  have hup : ¬ c.isUpper = true := by
    rw [isUpper_iff]
    have := isLower_iff.1 h
    omega
  rw [rank, if_neg hup, if_pos h]

/-- A character that is no letter ranks below the letters, or else by its code above them. -/
theorem rank_of_not_letter {c : Char} (hup : ¬ c.isUpper = true) (hlow : ¬ c.isLower = true) :
    (c ∈ lowRanks ∧ rank c = lowRanks.idxOf c ∧ rank c < 100) ∨ rank c = 200 + c.toNat := by
  rw [rank, if_neg hup, if_neg hlow]
  by_cases h : c ∈ lowRanks
  · rw [if_pos h]
    have hlen : lowRanks.length ≤ 100 := by decide
    exact Or.inl ⟨h, rfl, Nat.lt_of_lt_of_le (List.idxOf_lt_length_of_mem h) hlen⟩
  · rw [if_neg h]
    exact Or.inr rfl

/-- Two characters of one rank differ at most in case. -/
theorem rank_inj {c d : Char} (h : rank c = rank d) (hcase : c.isUpper = d.isUpper) : c = d := by
  by_cases hc : c.isUpper = true
  · have hd : d.isUpper = true := hcase ▸ hc
    have := isUpper_iff.1 hc
    have := isUpper_iff.1 hd
    rw [rank_of_isUpper hc, rank_of_isUpper hd] at h
    exact Char.toNat_inj.1 (by omega)
  · have hd : ¬ d.isUpper = true := hcase ▸ hc
    by_cases hcl : c.isLower = true <;> by_cases hdl : d.isLower = true
    · have := isLower_iff.1 hcl
      have := isLower_iff.1 hdl
      rw [rank_of_isLower hcl, rank_of_isLower hdl] at h
      exact Char.toNat_inj.1 (by omega)
    · have := isLower_iff.1 hcl
      rw [rank_of_isLower hcl] at h
      rcases rank_of_not_letter hd hdl with ⟨-, -, hr⟩ | hr <;> omega
    · have := isLower_iff.1 hdl
      rw [rank_of_isLower hdl] at h
      rcases rank_of_not_letter hc hcl with ⟨-, -, hr⟩ | hr <;> omega
    · rcases rank_of_not_letter hc hcl with ⟨hmem, hr, hlt⟩ | hr <;>
        rcases rank_of_not_letter hd hdl with ⟨-, hr', hlt'⟩ | hr'
      · exact (List.idxOf_inj hmem).1 (hr.symm.trans (h.trans hr'))
      · omega
      · omega
      · exact Char.toNat_inj.1 (by omega)

/-! ## The order of texts -/

theorem eq_of_map_rank_eq {cs ds : List Char} (h : cs.map rank = ds.map rank)
    (hcase : cs.map Char.isUpper = ds.map Char.isUpper) : cs = ds := by
  induction cs generalizing ds with
  | nil =>
    cases ds with
    | nil => rfl
    | cons d ds => simp at h
  | cons c cs ih =>
    cases ds with
    | nil => simp at h
    | cons d ds =>
      simp only [List.map_cons, List.cons.injEq] at h hcase
      rw [rank_inj h.1 hcase.1, ih h.2 hcase.2]

theorem eq_of_collate_eq {a b : String} (h : collate a b = .eq) : a = b := by
  unfold collate at h
  rw [Ordering.then_eq_eq] at h
  exact String.toList_inj.1 (eq_of_map_rank_eq (Std.LawfulEqOrd.eq_of_compare h.1)
    (Std.LawfulEqOrd.eq_of_compare h.2))

instance : Std.TransCmp collate :=
  inferInstanceAs (Std.TransCmp (compareLex (compareOn fun s : String => s.toList.map rank)
    (compareOn fun s : String => s.toList.map Char.isUpper)))

instance : Std.LawfulEqCmp collate where
  compare_self := Std.ReflCmp.compare_self
  eq_of_compare := eq_of_collate_eq

/-- Items compared by their keys. -/
theorem transCmp_on {α β : Type} {cmp : β → β → Ordering} [Std.TransCmp cmp] (key : α → β) :
    Std.TransCmp fun a b => cmp (key a) (key b) where
  eq_swap := Std.OrientedCmp.eq_swap
  isLE_trans := Std.TransCmp.isLE_trans

/-! ## Sorting -/

theorem isLE_total {α : Type} {cmp : α → α → Ordering} (hcmp : Std.TransCmp cmp) (a b : α) :
    ((cmp a b).isLE || (cmp b a).isLE) = true := by
  have hswap : cmp b a = (cmp a b).swap := Std.OrientedCmp.eq_swap
  rw [hswap]
  cases cmp a b <;> rfl

theorem pairwise_mergeSort {α : Type} {cmp : α → α → Ordering} (hcmp : Std.TransCmp cmp)
    (xs : List α) :
    (xs.mergeSort fun a b => (cmp a b).isLE).Pairwise fun a b => (cmp a b).isLE = true :=
  List.pairwise_mergeSort (fun _ _ _ => Std.TransCmp.isLE_trans) (isLE_total hcmp) xs

/-- Items that tie keep their order. -/
theorem filter_mergeSort_tie {α : Type} {cmp : α → α → Ordering} (hcmp : Std.TransCmp cmp) (a : α)
    (xs : List α) :
    (xs.mergeSort fun x y => (cmp x y).isLE).filter (cmp a · == .eq) =
      xs.filter (cmp a · == .eq) := by
  have hties : (xs.filter (cmp a · == .eq)).Pairwise fun x y => (cmp x y).isLE = true := by
    refine List.pairwise_of_forall_mem_list fun x hx y hy => ?_
    have hax := eq_of_beq (List.mem_filter.1 hx).2
    have hay := eq_of_beq (List.mem_filter.1 hy).2
    rw [Std.TransCmp.eq_trans (Std.OrientedCmp.eq_symm hax) hay]
    rfl
  have hsublist := (List.sublist_mergeSort (fun _ _ _ => Std.TransCmp.isLE_trans) (isLE_total hcmp) hties
    List.filter_sublist).filter (cmp a · == .eq)
  rw [List.filter_filter] at hsublist
  simp only [Bool.and_self] at hsublist
  exact (hsublist.eq_of_length ((List.mergeSort_perm xs _).filter _).length_eq.symm).symm

/-- Permuted lists sort alike when items that tie are equal. -/
theorem mergeSort_perm_eq {α : Type} {cmp : α → α → Ordering} (hcmp : Std.TransCmp cmp)
    {xs ys : List α} (hp : xs.Perm ys) (htie : ∀ a ∈ xs, ∀ b ∈ xs, cmp a b = .eq → a = b) :
    xs.mergeSort (fun a b => (cmp a b).isLE) = ys.mergeSort fun a b => (cmp a b).isLE := by
  refine List.Perm.eq_of_pairwise ?_ (pairwise_mergeSort hcmp xs) (pairwise_mergeSort hcmp ys)
    ((List.mergeSort_perm xs _).trans (hp.trans (List.mergeSort_perm ys _).symm))
  intro a b ha hb hab hba
  rw [List.mem_mergeSort] at ha hb
  exact htie a ha b (hp.mem_iff.2 hb) (Std.OrientedCmp.isLE_antisymm hab hba)

/-- Distinct texts are sorted strictly. -/
theorem pairwise_lt_collated {xs : List String} (h : xs.Nodup) :
    (collated xs).Pairwise fun a b => collate a b = .lt := by
  have hsorted : (collated xs).Pairwise fun a b => (collate a b).isLE = true :=
    pairwise_mergeSort (transCmp_on id) xs
  have hnodup : (collated xs).Nodup := (List.mergeSort_perm xs _).nodup_iff.2 h
  refine (hsorted.and hnodup).imp fun hab => ?_
  obtain ⟨hle, hne⟩ := hab
  rcases Ordering.isLE_iff_eq_lt_or_eq_eq.1 hle with hlt | heq
  · exact hlt
  · exact absurd (eq_of_collate_eq heq) hne

theorem collatedBy_perm {α : Type} {key : α → String} {xs ys : List α} (hp : xs.Perm ys)
    (h : (xs.map key).Nodup) : collatedBy key xs = collatedBy key ys := by
  refine mergeSort_perm_eq (transCmp_on key) hp fun a ha b hb hab => ?_
  exact List.inj_on_of_nodup_map h ha hb (eq_of_collate_eq hab)

theorem mem_collated_iff {xs : List String} {x : String} : x ∈ collated xs ↔ x ∈ xs :=
  List.mem_mergeSort

theorem collated_perm {xs ys : List String} (hp : xs.Perm ys) : collated xs = collated ys :=
  mergeSort_perm_eq (transCmp_on id) hp fun _ _ _ _ => eq_of_collate_eq

/-- A part of a sorted list is sorted. -/
theorem filter_collated (keep : String → Bool) (xs : List String) :
    (collated xs).filter keep = collated (xs.filter keep) := by
  have hsorted (ys : List String) : (collated ys).Pairwise fun a b => (collate a b).isLE = true :=
    pairwise_mergeSort (transCmp_on id) ys
  refine List.Perm.eq_of_pairwise ?_ ((hsorted xs).filter keep) (hsorted _) ?_
  · intro a b _ _ hab hba
    exact eq_of_collate_eq (Std.OrientedCmp.isLE_antisymm hab hba)
  · exact ((List.mergeSort_perm xs _).filter keep).trans (List.mergeSort_perm _ _).symm

end Metamodel.Text

import Mathlib.Data.List.Basic
import Mathlib.Data.List.Induction
import Metamodel.Proofs.Decimal.Whole
import Metamodel.Proofs.Keyed
import Metamodel.Report.Basic

/-!
# Counts

To increase the number of one name after the other is to count the names (`foldl_increase`): each
that occurs has one number, which tells how often it does, and the numbers add up to the number of
all (`tells_tally`). They are binary64 numbers, so that they are exact up to `2 ^ 53`.
-/

namespace Metamodel

open Decimal

namespace Counts

/-- The number that is reached in `n` steps of one. Beyond `2 ^ 53` a step changes nothing. -/
def counted (n : Nat) : Binary64 :=
  .ofNat (min n significandEnd)

/-- What is found under a name that occurs `n` times: nothing when it does not occur. -/
def occurrences? (n : Nat) : Option Binary64 :=
  if n = 0 then none else some (counted n)

/-- The sum of all numbers. -/
def total (c : Counts) : Binary64 :=
  (c.map (·.2)).foldl (· + ·) (.ofNat 0)

/-- The names in the order in which they first occur, each with its number. -/
def tally (names : List String) : Counts :=
  names.eraseDups.map fun name => (name, counted (names.count name))

/-- The counts tell how often each name occurs, and add up to the number of all. -/
structure Tells (c : Counts) (names : List String) : Prop where
  distinct : (c.map (·.1)).Nodup
  number : ∀ name, c.lookup name = occurrences? (names.count name)
  total : names.length < significandEnd → c.total = .ofNat names.length

/-! ## Steps of one -/

theorem counted_of_lt {n : Nat} (h : n < significandEnd) : counted n = .ofNat n := by
  rw [counted, Nat.min_eq_left h.le]

theorem counted_zero : counted 0 = .ofNat 0 := by
  rw [counted, Nat.zero_min]

theorem counted_add_one (n : Nat) : counted n + .ofNat 1 = counted (n + 1) := by
  unfold counted
  obtain hlt | heq | hgt := Nat.lt_trichotomy (n + 1) significandEnd
  · rw [Nat.min_eq_left (by omega), Nat.min_eq_left hlt.le, Binary64.ofNat_add_ofNat hlt]
  · have hn : n = significandEnd - 1 := by omega
    rw [Nat.min_eq_left (by omega), Nat.min_eq_left heq.le, heq, hn]
    exact Binary64.ofNat_end_add_one.1
  · rw [Nat.min_eq_right (by omega), Nat.min_eq_right hgt.le]
    exact Binary64.ofNat_end_add_one.2

/-! ## Counting names -/

variable {names : List String}

theorem lookup_tally (name : String) :
    (tally names).lookup name = occurrences? (names.count name) := by
  unfold tally occurrences?
  by_cases h : name ∈ names
  · have hcount : names.count name ≠ 0 := (List.count_pos_iff.2 h).ne'
    rw [if_neg hcount, List.lookup_graph _ (List.mem_eraseDups.2 h)]
  · rw [if_pos (List.count_eq_zero.2 h), List.lookup_eq_none_iff]
    intro entry hentry
    obtain ⟨other, hother, rfl⟩ := List.mem_map.1 hentry
    refine bne_iff_ne.2 ?_
    rintro rfl
    exact h (List.mem_eraseDups.1 hother)

theorem map_fst_tally : (tally names).map (·.1) = names.eraseDups := by
  unfold tally
  rw [List.map_map]
  exact List.map_id _

/-- One more name is one more step under that name. -/
theorem increase_tally {name : String} (h : name ≠ Json.prototypeName) :
    (tally names).increase name (.ofNat 1) = tally (names ++ [name]) := by
  have hstep : ((tally names).lookup name).getD (.ofNat 0) + .ofNat 1 =
      counted ((names ++ [name]).count name) := by
    have hnumber : ((tally names).lookup name).getD (.ofNat 0) = counted (names.count name) := by
      rw [lookup_tally, occurrences?]
      split
      · rename_i hzero
        rw [hzero, counted_zero, Option.getD_none]
      · exact Option.getD_some
    rw [hnumber, counted_add_one, List.count_append, List.count_singleton_self]
  have hothers (other : String) (hne : other ≠ name) :
      (names ++ [name]).count other = names.count other := by
    rw [List.count_append, List.count_singleton, if_neg (by simpa using hne.symm), Nat.add_zero]
  have hany : (tally names).any (·.1 == name) = decide (name ∈ names) := by
    have hmap : (tally names).any (·.1 == name) = ((tally names).map (·.1)).any (· == name) := by
      rw [List.any_map]
      rfl
    rw [hmap, map_fst_tally, List.any_beq']
    simp
  unfold increase Json.setMember
  rw [if_neg h, hstep, hany]
  unfold tally
  rw [eraseDups_concat]
  by_cases hmem : name ∈ names
  · rw [if_pos (decide_eq_true hmem), if_pos hmem, List.map_map]
    refine List.map_congr_left fun other _ => ?_
    by_cases hother : other = name
    · simp [hother]
    · simp [hother, hothers other hother]
  · have hkept : ∀ other ∈ names.eraseDups, (other, counted (names.count other)) =
        (other, counted ((names ++ [name]).count other)) := by
      intro other hother
      have hne : other ≠ name := by
        rintro rfl
        exact hmem (List.mem_eraseDups.1 hother)
      rw [hothers other hne]
    rw [if_neg (by simpa using hmem), if_neg hmem, List.map_append, List.map_congr_left hkept,
      List.map_singleton]

/-- To increase the number of one name after the other is to count the names. -/
theorem foldl_increase (h : Json.prototypeName ∉ names) :
    names.foldl (fun (c : Counts) name => c.increase name (.ofNat 1)) [] = tally names := by
  induction names using List.reverseRecOn with
  | nil => rfl
  | append_singleton names name ih =>
    rw [List.mem_append, List.mem_singleton, not_or] at h
    rw [List.foldl_append, ih h.1, List.foldl_cons, List.foldl_nil,
      increase_tally (Ne.symm h.2)]

/-! ## The sum -/

/-- The numbers of the names add up to the number of all. -/
theorem sum_count (names : List String) :
    (names.eraseDups.map names.count).sum = names.length := by
  induction names using firstBy_induction (fun name : String => name) with
  | nil => rfl
  | cons name names ih =>
    have hrest : ∀ other ∈ (names.filter (· != name)).eraseDups,
        (name :: names).count other = (names.filter (· != name)).count other := by
      intro other hother
      have hne : (other != name) = true := (List.mem_filter.1 (List.mem_eraseDups.1 hother)).2
      rw [List.count_filter (p := (· != name)) hne,
        List.count_cons_of_ne (Ne.symm (bne_iff_ne.1 hne))]
    have hlength : names.count name + (names.filter (· != name)).length = names.length := by
      rw [List.count_eq_length_filter]
      exact (List.length_eq_length_filter_add (· == name)).symm
    change ((names.filter (· != name)).eraseDups.map (names.filter (· != name)).count).sum =
      (names.filter (· != name)).length at ih
    have hdups : (name :: names).eraseDups = name :: (names.filter (· != name)).eraseDups :=
      firstBy_cons name names
    rw [hdups, List.map_cons, List.sum_cons, List.map_congr_left hrest, ih,
      List.count_cons_self, List.length_cons]
    omega

theorem foldl_add {start : Nat} {ns : List Nat} (h : start + ns.sum < significandEnd) :
    (ns.map counted).foldl (· + ·) (.ofNat start) = .ofNat (start + ns.sum) := by
  induction ns generalizing start with
  | nil => rw [List.map_nil, List.foldl_nil, List.sum_nil, Nat.add_zero]
  | cons n ns ih =>
    rw [List.sum_cons, ← Nat.add_assoc] at h ⊢
    rw [List.map_cons, List.foldl_cons, counted_of_lt (by omega), Binary64.ofNat_add_ofNat (by omega),
      ih h]

theorem tells_tally (names : List String) : (tally names).Tells names where
  distinct := by
    rw [map_fst_tally]
    exact nodup_eraseDups names
  number := lookup_tally
  total h := by
    have hnumbers : (tally names).map (·.2) = (names.eraseDups.map names.count).map counted := by
      unfold tally
      rw [List.map_map, List.map_map]
      rfl
    rw [total, hnumbers, foldl_add, sum_count, Nat.zero_add]
    rwa [sum_count, Nat.zero_add]

end Counts

end Metamodel

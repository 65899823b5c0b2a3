import Metamodel.Proofs.Text.Split
import Metamodel.Text.CaseMap

/-!
# Capitals and underscores

No character but the underscore has one among its capitals (`underscore_mem_upperChar_iff`), so a text
in capitals is cut by underscores where the text is (`split_upper`).
-/

namespace Metamodel.Text

theorem toNat_ofNat_cases (n : Nat) : (Char.ofNat n).toNat = n ∨ (Char.ofNat n).toNat = 0 := by
  by_cases h : n.isValidChar
  · left
    rw [Char.ofNat, dif_pos h]
    rfl
  · right
    rw [Char.ofNat, dif_neg h]
    rfl

/-- What holds of the characters of the basic alphabet can be tried on each of them. -/
theorem forall_ascii {P : Char → Prop} (h : ∀ n < 128, P (Char.ofNat n)) {c : Char}
    (hc : c.toNat < 128) : P c := by
  have hchar := h c.toNat hc
  rwa [Char.ofNat_toNat] at hchar

namespace CaseMap

theorem upperRuns_miss_underscore :
    ∀ r ∈ upperRuns, 95 < r.image ∨ r.image + (r.last - r.first) < 95 := by
  decide +kernel

theorem upperExpansions_miss_underscore : ∀ x ∈ upperExpansions, '_' ∉ x.2.map Char.ofNat := by
  decide +kernel

theorem image_ne_underscore {r : Run} (hr : r ∈ upperRuns) {n m : Nat} (h : r.image? n = some m) :
    Char.ofNat m ≠ '_' := by
  intro hm
  have htext : (Char.ofNat m).toNat = 95 := by rw [hm]; rfl
  have hvalue : m = 95 := by
    rcases toNat_ofNat_cases m with h | h <;> omega
  unfold Run.image? at h
  obtain ⟨hbounds, himage⟩ := Option.ite_none_right_eq_some.1 h
  simp only [Bool.and_eq_true, decide_eq_true_eq, Option.some.injEq] at hbounds himage
  have hmiss := upperRuns_miss_underscore r hr
  omega

end CaseMap

theorem underscore_notMem_mapChar {c : Char} (hc : c ≠ '_') :
    '_' ∉ CaseMap.mapChar CaseMap.upperRuns CaseMap.upperExpansions c := by
  unfold CaseMap.mapChar
  split
  · rename_i n hfound
    obtain ⟨r, hr, himage⟩ := List.exists_of_findSome?_eq_some hfound
    rw [List.mem_singleton]
    exact (CaseMap.image_ne_underscore hr himage).symm
  · cases hlookup : CaseMap.upperExpansions.lookup c.toNat with
    | none => simpa using hc.symm
    | some image =>
      obtain ⟨before, after, hexpansions, -⟩ := List.lookup_eq_some_iff.1 hlookup
      have hmem : (c.toNat, image) ∈ CaseMap.upperExpansions := by
        rw [hexpansions]
        exact List.mem_append_right _ List.mem_cons_self
      exact CaseMap.upperExpansions_miss_underscore _ hmem

theorem toUpper_eq_underscore_iff {c : Char} (hc : c.toNat < 128) : c.toUpper = '_' ↔ c = '_' :=
  forall_ascii (P := fun c => c.toUpper = '_' ↔ c = '_') (by decide) hc

theorem underscore_mem_upperChar_iff {c : Char} : '_' ∈ upperChar c ↔ c = '_' := by
  unfold upperChar
  split
  · rename_i hc
    rw [List.mem_singleton, eq_comm, toUpper_eq_underscore_iff hc]
  · rename_i hc
    have hne : c ≠ '_' := by
      rintro rfl
      exact hc (by decide)
    exact iff_of_false (underscore_notMem_mapChar hne) hne

/-- A text in capitals is cut by underscores where the text is. -/
theorem split_upper (cs : List Char) : split '_' (upper cs) = (split '_' cs).map upper := by
  induction cs with
  | nil => rfl
  | cons c cs ih =>
    obtain ⟨first, rest, hsplit⟩ := List.exists_cons_of_ne_nil (split_ne_nil '_' cs)
    rw [hsplit, List.map_cons] at ih
    have hcons : upper (c :: cs) = upperChar c ++ upper cs := List.flatMap_cons
    by_cases hc : c = '_'
    · have hunderscore : upperChar '_' = ['_'] := by decide
      rw [hcons, hc, hunderscore, List.singleton_append, split, if_pos rfl, ih, split, if_pos rfl,
        hsplit]
      rfl
    · rw [hcons, split_append_left (mt underscore_mem_upperChar_iff.1 hc) ih, split, if_neg hc, hsplit]
      rfl

end Metamodel.Text

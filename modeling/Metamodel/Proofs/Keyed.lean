import Mathlib.Data.List.Nodup
import Mathlib.Data.List.Pairwise

/-!
# Lists of keyed items

Types are known by their qualified names, properties by their names, import lines by their module
and form. `firstBy key xs` holds the first item of each key; `keepNew` adds an item unless there
is one of its key, and a fold of it builds the same list step by step (`foldl_keepNew`). In a list
with distinct keys a search finds the same item wherever it stands (`find?_perm`). The other items are
the repeats (`firstBy_append_repeatsBy_perm`).
-/

namespace Metamodel

variable {α κ : Type} [BEq κ] {key : α → κ}

/-- The items of which no earlier one has the same key. -/
def firstBy (key : α → κ) (xs : List α) : List α :=
  xs.eraseDupsBy fun a b => key a == key b

/-- Adds an item unless there is one of its key. -/
def keepNew (key : α → κ) (acc : List α) (x : α) : List α :=
  if acc.any (key · == key x) then acc else acc ++ [x]

/-- The items, each with whether neither an earlier item nor one of those given has its key. -/
def flagFirsts (key : α → κ) : List α → List α → List (α × Bool)
  | _, [] => []
  | before, x :: xs => (x, !before.any (key · == key x)) :: flagFirsts key (before ++ [x]) xs

/-- The items of which an earlier one has the same key. -/
def repeatsBy (key : α → κ) (xs : List α) : List α :=
  ((flagFirsts key [] xs).filter (!·.2)).map (·.1)

@[simp] theorem firstBy_nil : firstBy key ([] : List α) = [] := rfl

theorem firstBy_cons (x : α) (xs : List α) :
    firstBy key (x :: xs) = x :: firstBy key (xs.filter fun y => key y != key x) := by
  unfold firstBy
  rw [List.eraseDupsBy_cons]
  congr 2
  exact List.filter_congr fun y _ => by cases h : key y == key x <;> simp [bne, h]

/-- Induction that goes on with the items of other keys than the first. -/
@[elab_as_elim]
theorem firstBy_induction (key : α → κ) {motive : List α → Prop} (nil : motive [])
    (cons : ∀ x xs, motive (xs.filter fun y => key y != key x) → motive (x :: xs))
    (xs : List α) : motive xs := by
  match xs with
  | [] => exact nil
  | x :: xs => exact cons x xs (firstBy_induction key nil cons _)
termination_by xs.length
decreasing_by exact Nat.lt_succ_of_le (List.length_filter_le _ _)

theorem firstBy_sublist (xs : List α) : (firstBy key xs).Sublist xs := by
  induction xs using firstBy_induction key with
  | nil => exact List.Sublist.refl _
  | cons x xs ih =>
    rw [firstBy_cons]
    exact (ih.trans List.filter_sublist).cons_cons x

/-- It does not matter whether items are mapped before or after the repeats are dropped. -/
theorem map_firstBy {β : Type} (f : β → α) (xs : List β) :
    (firstBy (fun x => key (f x)) xs).map f = firstBy key (xs.map f) := by
  induction xs using firstBy_induction fun x => key (f x) with
  | nil => rfl
  | cons x xs ih =>
    rw [firstBy_cons, List.map_cons, List.map_cons, firstBy_cons, ih, List.filter_map]
    rfl

/-- What is told of some items only. -/
theorem flatMap_ite {β : Type} (p : α → Bool) (f : α → β) (xs : List α) :
    (xs.flatMap fun x => if p x then [f x] else []) = (xs.filter p).map f := by
  induction xs with
  | nil => rfl
  | cons x xs ih =>
    rw [List.flatMap_cons, ih, List.filter_cons]
    cases p x <;> rfl

theorem map_fst_flagFirsts (before xs : List α) : (flagFirsts key before xs).map (·.1) = xs := by
  induction xs generalizing before with
  | nil => rfl
  | cons x xs ih => rw [flagFirsts, List.map_cons, ih]

/-- What is told of the repeats only. -/
theorem flatMap_flagFirsts_not {β : Type} (f : α → β) (xs : List α) :
    ((flagFirsts key [] xs).flatMap fun x => if !x.2 then [f x.1] else []) =
      (repeatsBy key xs).map f := by
  rw [repeatsBy, List.map_map, flatMap_ite]
  rfl

/-- What a partial map finds is found by any map that extends it. -/
theorem filterMap_sublist_filterMap {β : Type} {f g : α → Option β} {xs : List α}
    (h : ∀ x y, f x = some y → g x = some y) : (xs.filterMap f).Sublist (xs.filterMap g) := by
  induction xs with
  | nil => exact List.Sublist.refl _
  | cons x xs ih =>
    cases hf : f x with
    | some y =>
      rw [List.filterMap_cons_some hf, List.filterMap_cons_some (h x y hf)]
      exact ih.cons_cons y
    | none =>
      rw [List.filterMap_cons_none hf]
      exact ih.trans ((List.sublist_cons_self x xs).filterMap g)

variable [LawfulBEq κ]

/-- To keep the items of some keys, it does not matter when the repeats are dropped. -/
theorem filter_firstBy (keep : κ → Bool) (xs : List α) :
    (firstBy key xs).filter (fun x => keep (key x)) =
      firstBy key (xs.filter fun x => keep (key x)) := by
  induction xs using firstBy_induction key with
  | nil => rfl
  | cons x xs ih =>
    rw [firstBy_cons]
    cases hx : keep (key x) with
    | true =>
      simp only [List.filter_cons, hx, if_true, firstBy_cons, ih]
      rw [List.filter_comm]
    | false =>
      -- what is kept has other keys anyway
      simp only [List.filter_cons, hx, Bool.false_eq_true, if_false, ih]
      rw [List.filter_filter]
      refine congrArg (firstBy key) (List.filter_congr fun y _ => ?_)
      cases hy : keep (key y) with
      | false => rfl
      | true =>
        have hne : key y ≠ key x := by
          intro heq
          rw [heq, hx] at hy
          cases hy
        simpa using hne

theorem filter_eraseDups (keep : κ → Bool) (xs : List κ) :
    xs.eraseDups.filter keep = (xs.filter keep).eraseDups :=
  filter_firstBy keep xs

/-! ## Building by steps -/

theorem foldl_keepNew (acc xs : List α) :
    xs.foldl (keepNew key) acc =
      acc ++ firstBy key (xs.filter fun x => !acc.any (key · == key x)) := by
  induction xs generalizing acc with
  | nil => simp
  | cons x xs ih =>
    rw [List.foldl_cons, ih]
    by_cases h : acc.any (key · == key x)
    · simp only [keepNew, h, if_true, List.filter_cons, Bool.not_true, Bool.false_eq_true, if_false]
    · simp only [keepNew, h, if_false, List.filter_cons, Bool.not_false, if_true, firstBy_cons,
        List.append_assoc, List.singleton_append, List.filter_filter, Bool.false_eq_true]
      refine congrArg (fun l => acc ++ x :: firstBy key l) (List.filter_congr fun y _ => ?_)
      rw [List.any_append, Bool.not_or, Bool.and_comm]
      simp [bne, BEq.comm]

theorem firstBy_eq_foldl (xs : List α) : firstBy key xs = xs.foldl (keepNew key) [] := by
  rw [foldl_keepNew]
  simp

/-- Going on from a list without repeats is the same as starting over. -/
theorem foldl_keepNew_firstBy (xs ys : List α) :
    ys.foldl (keepNew key) (firstBy key xs) = firstBy key (xs ++ ys) := by
  rw [firstBy_eq_foldl, firstBy_eq_foldl, List.foldl_append]

/-- Of what stands behind, the items are kept that have none of the keys in front. -/
theorem firstBy_append (xs ys : List α) :
    firstBy key (xs ++ ys) =
      firstBy key xs ++ firstBy key (ys.filter fun y => !(firstBy key xs).any (key · == key y)) := by
  rw [← foldl_keepNew_firstBy, foldl_keepNew]

/-! ## Searching -/

/-- To look a key up is to search for its item. -/
theorem lookup_map (xs : List α) (k : κ) :
    (xs.map fun x => (key x, x)).lookup k = xs.find? (key · == k) := by
  induction xs with
  | nil => rfl
  | cons x xs ih =>
    rw [List.map_cons, List.lookup_cons, List.find?_cons, ih, BEq.comm]

/-! ## Distinct keys -/

theorem nodup_map_firstBy (xs : List α) : ((firstBy key xs).map key).Nodup := by
  induction xs using firstBy_induction key with
  | nil => exact List.nodup_nil
  | cons x xs ih =>
    rw [firstBy_cons, List.map_cons, List.nodup_cons]
    refine ⟨fun hmem => ?_, ih⟩
    obtain ⟨y, hy, hkey⟩ := List.mem_map.1 hmem
    have := (List.mem_filter.1 ((firstBy_sublist _).subset hy)).2
    simp [hkey] at this

theorem nodup_eraseDups (xs : List κ) : xs.eraseDups.Nodup := by
  have h : ((firstBy id xs).map id).Nodup := nodup_map_firstBy xs
  rwa [List.map_id] at h

theorem eraseDups_concat (xs : List κ) (x : κ) :
    (xs ++ [x]).eraseDups = if x ∈ xs then xs.eraseDups else xs.eraseDups ++ [x] := by
  rw [List.eraseDups_append]
  by_cases h : x ∈ xs <;> simp [h, List.removeAll, List.eraseDups_cons]

theorem eraseDups_perm {xs ys : List κ} (h : xs.Perm ys) : xs.eraseDups.Perm ys.eraseDups := by
  rw [List.perm_ext_iff_of_nodup (nodup_eraseDups xs) (nodup_eraseDups ys)]
  intro x
  rw [List.mem_eraseDups, List.mem_eraseDups, h.mem_iff]

/-- Where a partial map gives no value twice, an item is the only one with its value. -/
theorem eq_of_nodup_filterMap {β : Type} {f : α → Option β} {xs : List α}
    (h : (xs.filterMap f).Nodup) {x y : α} (hx : x ∈ xs) (hy : y ∈ xs) {b : β}
    (hfx : f x = some b) (hfy : f y = some b) : x = y := by
  by_contra hne
  have hsymm : Std.Symm fun x y : α => ∀ b, f x = some b → ∀ b', f y = some b' → b ≠ b' :=
    ⟨fun _ _ h b hb b' hb' => (h b' hb' b hb).symm⟩
  exact (List.pairwise_filterMap.1 h).forall hx hy hne b hfx b hfy rfl

theorem find?_eq_some_iff {xs : List α} (h : (xs.map key).Nodup) {k : κ} {x : α} :
    xs.find? (key · == k) = some x ↔ x ∈ xs ∧ key x = k := by
  constructor
  · intro hx
    have hkey := List.find?_some hx
    exact ⟨List.mem_of_find?_eq_some hx, eq_of_beq hkey⟩
  · rintro ⟨hx, rfl⟩
    cases hf : xs.find? (key · == key x) with
    | none => exact absurd (List.find?_eq_none.1 hf x hx) (by simp)
    | some y =>
      have hy := List.mem_of_find?_eq_some hf
      have hkey := List.find?_some hf
      rw [List.inj_on_of_nodup_map h hy hx (eq_of_beq hkey)]

/-- Among distinct keys an item is the only one of its key. -/
theorem filter_eq_singleton {xs : List α} (h : (xs.map key).Nodup) {x : α} (hx : x ∈ xs) :
    xs.filter (key · == key x) = [x] := by
  induction xs with
  | nil => cases hx
  | cons y xs ih =>
    obtain ⟨hy, hxs⟩ := List.nodup_cons.1 (List.map_cons ▸ h)
    rcases List.mem_cons.1 hx with rfl | hx
    · have hrest : xs.filter (key · == key x) = [] := by
        refine List.filter_eq_nil_iff.2 fun z hz hkey => hy ?_
        exact List.mem_map.2 ⟨z, hz, eq_of_beq hkey⟩
      rw [List.filter_cons, if_pos (beq_self_eq_true (key x)), hrest]
    · have hne : ¬ (key y == key x) = true := by
        intro hkey
        exact hy (List.mem_map.2 ⟨x, hx, (eq_of_beq hkey).symm⟩)
      rw [List.filter_cons, if_neg hne, ih hxs hx]

/-- Among distinct keys a search does not depend on the order. -/
theorem find?_perm {xs ys : List α} (hp : xs.Perm ys) (h : (xs.map key).Nodup) (k : κ) :
    xs.find? (key · == k) = ys.find? (key · == k) := by
  refine Option.ext fun x => ?_
  rw [find?_eq_some_iff h, find?_eq_some_iff ((hp.map key).nodup_iff.1 h), hp.mem_iff]

/-- A search for a key that is kept does not meet the items that are not. -/
theorem find?_filter_key (keep : κ → Bool) {k : κ} (hk : keep k = true) (xs : List α) :
    (xs.filter fun x => keep (key x)).find? (key · == k) = xs.find? (key · == k) := by
  rw [List.find?_filter]
  refine congrArg (List.find? · xs) (funext fun x => ?_)
  by_cases hx : key x = k
  · simp [hx, hk]
  · simp [hx]

/-- A search never meets the repeats. -/
theorem find?_firstBy (xs : List α) (k : κ) :
    (firstBy key xs).find? (key · == k) = xs.find? (key · == k) := by
  induction xs using firstBy_induction key with
  | nil => rfl
  | cons x xs ih =>
    rw [firstBy_cons, List.find?_cons, List.find?_cons]
    by_cases hx : key x = k
    · simp [hx]
    · have hk : (key x == k) = false := beq_false_of_ne hx
      rw [hk, ih, List.find?_filter]
      refine congrArg (List.find? · xs) (funext fun y => ?_)
      by_cases hy : key y = k
      · simp [hy, Ne.symm hx]
      · simp [hy]

/-- An item is kept when it is the first of its key. -/
theorem mem_firstBy_iff {xs : List α} {x : α} :
    x ∈ firstBy key xs ↔ xs.find? (key · == key x) = some x := by
  rw [← find?_firstBy, find?_eq_some_iff (nodup_map_firstBy xs)]
  exact (and_iff_left rfl).symm

/-! ## Repeats -/

/-- The items that are flagged are those that are kept after the given ones. -/
theorem map_fst_filter_flagFirsts (before xs : List α) :
    ((flagFirsts key before xs).filter (·.2)).map (·.1) =
      firstBy key (xs.filter fun x => !before.any (key · == key x)) := by
  induction xs generalizing before with
  | nil => rfl
  | cons x xs ih =>
    have hrest (y : α) : (!(before ++ [x]).any (key · == key y)) =
        (key y != key x && !before.any (key · == key y)) := by
      rw [List.any_append, Bool.not_or, Bool.and_comm]
      simp [bne, BEq.comm]
    rw [flagFirsts, List.filter_cons, List.filter_cons]
    cases h : before.any (key · == key x) with
    | true =>
      -- what has the key of `x` is dropped already
      simp only [Bool.not_true, Bool.false_eq_true, if_false, ih]
      refine congrArg (firstBy key) (List.filter_congr fun y _ => ?_)
      rw [hrest]
      by_cases hy : key y = key x
      · rw [hy, h]
        simp
      · simp [hy]
    | false =>
      simp only [Bool.not_false, if_true, List.map_cons, ih, firstBy_cons, List.filter_filter]
      exact congrArg (x :: firstBy key ·) (List.filter_congr fun y _ => hrest y)

theorem firstBy_eq_flagFirsts (xs : List α) :
    firstBy key xs = ((flagFirsts key [] xs).filter (·.2)).map (·.1) := by
  rw [map_fst_filter_flagFirsts]
  simp

/-- What is told only of some items that are kept. -/
theorem flatMap_flagFirsts {β : Type} (keep : α → Bool) (f : α → β) (xs : List α) :
    ((flagFirsts key [] xs).flatMap fun x => if x.2 && keep x.1 then [f x.1] else []) =
      ((firstBy key xs).filter keep).map f := by
  rw [firstBy_eq_flagFirsts, List.filter_map, List.filter_filter, List.map_map, flatMap_ite]
  exact congrArg (List.map _) (List.filter_congr fun x _ => Bool.and_comm _ _)

/-- What is kept and the repeats are all items. -/
theorem firstBy_append_repeatsBy_perm (xs : List α) :
    (firstBy key xs ++ repeatsBy key xs).Perm xs := by
  have hsplit := (List.filter_append_perm (·.2) (flagFirsts key [] xs)).map (·.1)
  rw [List.map_append, map_fst_flagFirsts] at hsplit
  rw [firstBy_eq_flagFirsts]
  exact hsplit

/-! ## Coarser keys -/

variable {κ' : Type} [BEq κ'] [LawfulBEq κ'] {key' : α → κ'}

/-- The first item of a coarser key is the first of its own key too. -/
theorem firstBy_sublist_firstBy (h : ∀ x y, key x = key y → key' x = key' y) (xs : List α) :
    (firstBy key' xs).Sublist (firstBy key xs) := by
  induction xs using firstBy_induction key with
  | nil => exact List.Sublist.refl _
  | cons x xs ih =>
    have hrest : firstBy key' (xs.filter fun y => key' y != key' x) =
        (firstBy key' (xs.filter fun y => key y != key x)).filter fun y => key' y != key' x := by
      have hfilter (ys : List α) : (firstBy key' ys).filter (fun y => key' y != key' x) =
          firstBy key' (ys.filter fun y => key' y != key' x) := filter_firstBy (· != key' x) ys
      rw [hfilter, List.filter_filter]
      refine congrArg (firstBy key') (List.filter_congr fun y _ => ?_)
      by_cases hy : key y = key x
      · simp [hy, h y x hy]
      · simp [hy]
    rw [firstBy_cons, firstBy_cons, hrest]
    exact (List.filter_sublist.trans ih).cons_cons x

/-- Keys that tell the same items apart have the same first items. -/
theorem firstBy_congr {xs : List α} (h : ∀ x ∈ xs, ∀ y ∈ xs, key x = key y ↔ key' x = key' y) :
    firstBy key xs = firstBy key' xs := by
  induction xs using firstBy_induction key with
  | nil => rfl
  | cons x xs ih =>
    have hrest : xs.filter (fun y => key y != key x) = xs.filter fun y => key' y != key' x := by
      refine List.filter_congr fun y hy => ?_
      have hiff := h y (List.mem_cons_of_mem x hy) x List.mem_cons_self
      show (key y != key x) = (key' y != key' x)
      by_cases hxy : key y = key x
      · rw [bne_eq_false_iff_eq.2 hxy, bne_eq_false_iff_eq.2 (hiff.1 hxy)]
      · rw [bne_iff_ne.2 hxy, bne_iff_ne.2 (mt hiff.2 hxy)]
    rw [firstBy_cons, firstBy_cons, ← hrest]
    refine congrArg (x :: ·) (ih fun y hy z hz => ?_)
    exact h y (List.mem_cons_of_mem x (List.mem_filter.1 hy).1) z
      (List.mem_cons_of_mem x (List.mem_filter.1 hz).1)

end Metamodel

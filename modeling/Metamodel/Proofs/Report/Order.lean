import Mathlib.Data.List.Flatten
import Metamodel.Proofs.Report.Account

/-!
# Where findings stand

Where a finding stands in a report is decided by the text of its location, its code and its message
(`Diagnostic.place`); findings of one place stand as they came. Findings come in blocks, one for each
item at each stage of a run. In whatever order the items come, the same findings stand in the same
order if no two items have findings of one place at one stage (`sorted_blocks_eq`); otherwise some
order of the items shows in what the findings are about (`apart_of_labels`).
-/

namespace Metamodel.Diagnostic

/-- What decides where a finding stands in a report. -/
def place (d : Diagnostic) : String × String × String :=
  (d.locationText, d.code.text, d.message)

theorem keys_eq_iff_place {d : Diagnostic} {p : String × String × String} :
    d.keys = [p.1, p.2.1, p.2.2] ↔ d.place = p := by
  simp [keys, place, locationText, Prod.ext_iff]

/-- Findings of one place stand as they came. -/
theorem filter_place_sorted (p : String × String × String) (xs : List Diagnostic) :
    (sorted xs).filter (·.place = p) = xs.filter (·.place = p) := by
  simp only [← keys_eq_iff_place]
  exact filter_keys_sorted _ xs

/-- The same findings give the same places in the same order. -/
theorem map_place_sorted {xs ys : List Diagnostic} (h : xs.Perm ys) :
    (sorted xs).map place = (sorted ys).map place := by
  have hkeys : (sorted xs).map keys = (sorted ys).map keys :=
    map_keys_eq ((List.mergeSort_perm xs _).trans (h.trans (List.mergeSort_perm ys _).symm))
      (pairwise_sorted xs) (pairwise_sorted ys)
  have hinjective : Function.Injective fun p : String × String × String => [p.1, p.2.1, p.2.2] := by
    rintro ⟨_, _, _⟩ ⟨_, _, _⟩ heq
    cases heq
    rfl
  have hplaces : keys = (fun p => [p.1, p.2.1, p.2.2]) ∘ place :=
    funext fun d => keys_eq_iff_place.2 rfl
  rw [hplaces, ← List.map_map, ← List.map_map] at hkeys
  exact List.map_injective_iff.2 hinjective hkeys

section

variable {α β γ : Type} [DecidableEq β]

/-- Lists with the same keys and the same labels in the same order have the same labels at each
key. -/
theorem map_filter_eq_of_map_eq {key : α → β} {label : α → γ} {xs ys : List α}
    (hkeys : xs.map key = ys.map key) (hlabels : xs.map label = ys.map label) (k : β) :
    (xs.filter (key · = k)).map label = (ys.filter (key · = k)).map label := by
  induction xs generalizing ys with
  | nil => rw [(List.map_eq_nil_iff.1 hkeys.symm)]
  | cons x xs ih =>
    cases ys with
    | nil => cases hkeys
    | cons y ys =>
      obtain ⟨hkey, hkeys⟩ := List.cons_eq_cons.1 hkeys
      obtain ⟨hlabel, hlabels⟩ := List.cons_eq_cons.1 hlabels
      have htail := ih hkeys hlabels
      by_cases hx : key x = k
      · rw [List.filter_cons_of_pos (by simpa using hx),
          List.filter_cons_of_pos (by simpa [← hkey] using hx), List.map_cons, List.map_cons,
          hlabel, htail]
      · rw [List.filter_cons_of_neg (by simpa using hx),
          List.filter_cons_of_neg (by simpa [← hkey] using hx), htail]

/-- If at most one item gives anything, the order of the items does not show. -/
theorem flatMap_eq_of_perm {f : α → List γ} {xs ys : List α} (h : xs.Perm ys)
    (hone : ∀ x ∈ xs, ∀ y ∈ xs, x ≠ y → f x = [] ∨ f y = []) : xs.flatMap f = ys.flatMap f := by
  induction h with
  | nil => rfl
  | cons x _ ih =>
    rw [List.flatMap_cons, List.flatMap_cons, ih fun y hy z hz =>
      hone y (List.mem_cons_of_mem x hy) z (List.mem_cons_of_mem x hz)]
  | swap x y xs =>
    by_cases hxy : x = y
    · rw [hxy]
    · simp only [List.flatMap_cons]
      rcases hone x (by simp) y (by simp) hxy with h | h
      · simp [h]
      · simp [h]
  | trans hxy _ ihx ihy =>
    exact (ihx hone).trans (ihy fun x hx y hy => hone x (hxy.mem_iff.2 hx) y (hxy.mem_iff.2 hy))

/-- Parts of equal lengths can be told from what they give together. -/
theorem eq_of_flatMap_eq {f g : α → List γ} {xs : List α}
    (hlength : ∀ x ∈ xs, (f x).length = (g x).length) (h : xs.flatMap f = xs.flatMap g) :
    ∀ x ∈ xs, f x = g x := by
  induction xs with
  | nil => exact nofun
  | cons x xs ih =>
    obtain ⟨hx, hxs⟩ := List.forall_mem_cons.1 hlength
    obtain ⟨hhead, htail⟩ := List.append_inj h hx
    exact List.forall_mem_cons.2 ⟨hhead, ih hxs htail⟩

end

/-! ## Blocks -/

section Blocks

variable {ι σ : Type} (stages : List σ) (part : σ → ι → List Diagnostic)

/-- What is found about items, stage by stage and item by item. -/
def blocks (items : List ι) : List Diagnostic :=
  stages.flatMap fun stage => items.flatMap (part stage)

/-- At no stage do two items have findings of one place. -/
def Apart (items : List ι) : Prop :=
  ∀ stage ∈ stages, ∀ x ∈ items, ∀ y ∈ items, x ≠ y →
    ∀ f ∈ part stage x, ∀ f' ∈ part stage y, f.place ≠ f'.place

variable {stages part} {items items' : List ι}

theorem blocks_perm (h : items.Perm items') :
    (blocks stages part items).Perm (blocks stages part items') :=
  List.Perm.flatMap_left _ fun stage _ => h.flatMap_right (part stage)

theorem filter_blocks (keep : Diagnostic → Bool) (items : List ι) :
    (blocks stages part items).filter keep =
      blocks stages (fun stage x => (part stage x).filter keep) items := by
  simp only [blocks, List.filter_flatMap]

/-- Items that are apart may come in any order. -/
theorem sorted_blocks_eq (h : Apart stages part items) (hperm : items.Perm items') :
    sorted (blocks stages part items) = sorted (blocks stages part items') := by
  refine eq_of_filter_eq (map_place_sorted (blocks_perm hperm)) fun d _ => ?_
  rw [filter_place_sorted, filter_place_sorted, filter_blocks, filter_blocks]
  refine List.flatMap_congr fun stage hstage => flatMap_eq_of_perm hperm fun x hx y hy hxy => ?_
  -- at most one of the items has findings of the place
  by_contra hsome
  obtain ⟨hxsome, hysome⟩ := not_or.1 hsome
  obtain ⟨f, hf⟩ := List.exists_mem_of_ne_nil _ hxsome
  obtain ⟨f', hf'⟩ := List.exists_mem_of_ne_nil _ hysome
  obtain ⟨hf, hp⟩ := List.mem_filter.1 hf
  obtain ⟨hf', hp'⟩ := List.mem_filter.1 hf'
  exact h stage hstage x hx y hy hxy f hf f' hf'
    ((of_decide_eq_true hp).trans (of_decide_eq_true hp').symm)

/-- Two items can be put at the front, in either order. -/
theorem exists_perm_cons_cons {x y : ι} (hx : x ∈ items) (hy : y ∈ items) (hxy : x ≠ y) :
    ∃ rest, items.Perm (x :: y :: rest) := by
  obtain ⟨before, behind, rfl⟩ := List.append_of_mem hx
  have hmem : y ∈ before ++ behind := by
    simp only [List.mem_append, List.mem_cons] at hy ⊢
    rcases hy with hy | hy | hy
    · exact .inl hy
    · exact absurd hy.symm hxy
    · exact .inr hy
  obtain ⟨before', behind', hrest⟩ := List.append_of_mem hmem
  refine ⟨before' ++ behind', List.perm_middle.trans (List.Perm.cons x ?_)⟩
  rw [hrest]
  exact List.perm_middle

/-- If no order of the items shows in what the findings are about, the items are apart. -/
theorem apart_of_labels {γ : Type} {label : Diagnostic → γ}
    (hlabel : ∀ stage ∈ stages, ∀ x ∈ items, ∀ y ∈ items, ∀ f ∈ part stage x,
      ∀ f' ∈ part stage y, label f = label f' → x = y)
    (h : ∀ items', items'.Perm items →
      (sorted (blocks stages part items')).map label =
        (sorted (blocks stages part items)).map label) :
    Apart stages part items := by
  intro stage hstage x hx y hy hxy f hf f' hf' hplace
  obtain ⟨rest, hrest⟩ := exists_perm_cons_cons hx hy hxy
  have hswap : (x :: y :: rest).Perm (y :: x :: rest) := .swap y x rest
  have hlabels : (sorted (blocks stages part (x :: y :: rest))).map label =
      (sorted (blocks stages part (y :: x :: rest))).map label :=
    (h _ hrest.symm).trans (h _ (hrest.trans hswap).symm).symm
  -- what the findings of the place are about, in either order
  have hties := map_filter_eq_of_map_eq (map_place_sorted (blocks_perm hswap)) hlabels f.place
  rw [filter_place_sorted, filter_place_sorted, filter_blocks, filter_blocks] at hties
  simp only [blocks, List.map_flatMap] at hties
  have hstages := eq_of_flatMap_eq (fun stage _ => (hswap.flatMap_right _).length_eq) hties stage
    hstage
  have hmem {z : ι} {g : Diagnostic} (hg : g ∈ part stage z) (hplace : g.place = f.place) :
      g ∈ (part stage z).filter (·.place = f.place) :=
    List.mem_filter.2 ⟨hg, decide_eq_true hplace⟩
  obtain ⟨g, gs, hgs⟩ := List.exists_cons_of_ne_nil (List.ne_nil_of_mem (hmem hf rfl))
  obtain ⟨g', gs', hgs'⟩ := List.exists_cons_of_ne_nil (List.ne_nil_of_mem (hmem hf' hplace.symm))
  simp only [List.flatMap_cons, hgs, hgs', List.map_cons, List.cons_append] at hstages
  have hg : g ∈ part stage x := List.mem_of_mem_filter (hgs ▸ List.mem_cons_self)
  have hg' : g' ∈ part stage y := List.mem_of_mem_filter (hgs' ▸ List.mem_cons_self)
  exact hxy (hlabel stage hstage x hx y hy g hg g' hg' (List.cons_eq_cons.1 hstages).1)

end Blocks

end Metamodel.Diagnostic

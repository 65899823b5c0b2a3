import Mathlib.Data.List.Basic
import Metamodel.Text.Split

/-!
# Texts cut at a separator

Cutting goes through wherever a separator stands (`split_append_sep`, `split_join_flatMap`), and no
part holds the separator. Joining what was cut gives the text back (`join_split_self`), and with
another separator the text that has the one in place of the other (`join_split`).
-/

namespace Metamodel.Text

theorem join_cons_cons (sep part next : List Char) (parts : List (List Char)) :
    join sep (part :: next :: parts) = part ++ sep ++ join sep (next :: parts) := rfl

theorem intercalate_eq_join (sep : List Char) (parts : List (List Char)) :
    sep.intercalate parts = join sep parts := by
  induction parts with
  | nil => rfl
  | cons part parts ih =>
    cases parts with
    | nil => simp [join]
    | cons next parts => rw [List.intercalate_cons_cons, ih, join_cons_cons]

theorem split_append_sep (sep : Char) (xs ys : List Char) :
    split sep (xs ++ sep :: ys) = split sep xs ++ split sep ys := by
  induction xs with
  | nil => simp [split]
  | cons c xs ih =>
    by_cases hc : c = sep
    · simp [split, hc, ih]
    · obtain ⟨part, parts, hparts⟩ := List.exists_cons_of_ne_nil (split_ne_nil sep xs)
      rw [List.cons_append, split, if_neg hc, split, if_neg hc, ih, hparts]
      rfl

theorem split_join_flatMap (sep : Char) {parts : List (List Char)} (hne : parts ≠ []) :
    split sep (join [sep] parts) = parts.flatMap (split sep) := by
  induction parts with
  | nil => exact absurd rfl hne
  | cons part parts ih =>
    cases parts with
    | nil => simp [join]
    | cons next parts =>
      rw [join_cons_cons, List.append_assoc, List.singleton_append, split_append_sep,
        ih (List.cons_ne_nil _ _), ← List.flatMap_cons]

theorem notMem_of_mem_split {sep : Char} {cs part : List Char} (h : part ∈ split sep cs) :
    sep ∉ part := by
  induction cs generalizing part with
  | nil =>
    rw [split, List.mem_singleton] at h
    simp [h]
  | cons c cs ih =>
    by_cases hc : c = sep
    · rw [split, if_pos hc, List.mem_cons] at h
      rcases h with rfl | h
      · exact List.not_mem_nil
      · exact ih h
    · obtain ⟨first, rest, hrest⟩ := List.exists_cons_of_ne_nil (split_ne_nil sep cs)
      rw [split, if_neg hc, hrest] at h
      rw [hrest] at ih
      rcases List.mem_cons.1 h with rfl | h
      · rw [List.mem_cons, not_or]
        exact ⟨Ne.symm hc, ih List.mem_cons_self⟩
      · exact ih (List.mem_cons_of_mem _ h)

theorem subset_of_mem_split {sep : Char} {cs part : List Char} (h : part ∈ split sep cs) :
    part ⊆ cs := by
  induction cs generalizing part with
  | nil =>
    rw [split, List.mem_singleton] at h
    simp [h]
  | cons c cs ih =>
    by_cases hc : c = sep
    · rw [split, if_pos hc, List.mem_cons] at h
      rcases h with rfl | h
      · exact List.nil_subset _
      · exact List.subset_cons_of_subset c (ih h)
    · obtain ⟨first, rest, hrest⟩ := List.exists_cons_of_ne_nil (split_ne_nil sep cs)
      rw [split, if_neg hc, hrest] at h
      rw [hrest] at ih
      rcases List.mem_cons.1 h with rfl | h
      · exact List.cons_subset_cons c (ih List.mem_cons_self)
      · exact List.subset_cons_of_subset c (ih (List.mem_cons_of_mem _ h))

/-- What holds no separator stays with the last part. -/
theorem split_append_of_notMem {sep : Char} (cs : List Char) {tail : List Char} (h : sep ∉ tail) :
    ∃ front last, split sep cs = front ++ [last] ∧
      split sep (cs ++ tail) = front ++ [last ++ tail] := by
  induction cs with
  | nil => exact ⟨[], [], rfl, split_of_notMem h⟩
  | cons c cs ih =>
    obtain ⟨front, last, hsplit, happend⟩ := ih
    by_cases hc : c = sep
    · refine ⟨[] :: front, last, ?_, ?_⟩
      · rw [split, if_pos hc, hsplit]
        rfl
      · rw [List.cons_append, split, if_pos hc, happend]
        rfl
    · rw [List.cons_append, split, if_neg hc, split, if_neg hc, hsplit, happend]
      cases front with
      | nil => exact ⟨[], c :: last, rfl, rfl⟩
      | cons first front => exact ⟨(c :: first) :: front, last, rfl, rfl⟩

/-- What holds no separator goes to the first part. -/
theorem split_append_left {sep : Char} {front cs first : List Char} {rest : List (List Char)}
    (h : sep ∉ front) (hsplit : split sep cs = first :: rest) :
    split sep (front ++ cs) = (front ++ first) :: rest := by
  induction front with
  | nil => exact hsplit
  | cons c front ih =>
    rw [List.mem_cons, not_or] at h
    rw [List.cons_append, split, if_neg (Ne.symm h.1), ih h.2, List.cons_append]

/-- Joining at one separator what was cut at another puts the one in place of the other. -/
theorem join_split (sep sep' : Char) (cs : List Char) :
    join [sep'] (split sep cs) = cs.map fun c => if c = sep then sep' else c := by
  induction cs with
  | nil => rfl
  | cons c cs ih =>
    obtain ⟨first, rest, hrest⟩ := List.exists_cons_of_ne_nil (split_ne_nil sep cs)
    rw [hrest] at ih
    rw [List.map_cons, ← ih]
    by_cases hc : c = sep
    · rw [split, if_pos hc, if_pos hc, hrest]
      rfl
    · rw [split, if_neg hc, if_neg hc, hrest]
      cases rest <;> rfl

/-- Joining undoes cutting. -/
theorem join_split_self (sep : Char) (cs : List Char) : join [sep] (split sep cs) = cs := by
  have hself : (fun c => if c = sep then sep else c) = id := by
    funext c
    split
    · rename_i hc
      exact hc.symm
    · rfl
  rw [join_split, hself, List.map_id]

theorem split_injective (sep : Char) : Function.Injective (split sep) := by
  intro cs ds h
  rw [← join_split_self sep cs, h, join_split_self]

theorem map_toList_splitText (sep : Char) (s : String) :
    (splitText sep s).map String.toList = split sep s.toList := by
  have hid : String.toList ∘ String.ofList = id := funext fun _ => String.toList_ofList
  rw [splitText, List.map_map, hid, List.map_id]

theorem splitText_injective (sep : Char) : Function.Injective (splitText sep) := by
  intro s t h
  have hsplit := congrArg (List.map String.toList) h
  rw [map_toList_splitText, map_toList_splitText] at hsplit
  exact String.toList_inj.1 (split_injective sep hsplit)

/-- A run of characters of one sort is read back when something else follows it. -/
theorem span_run {p : Char → Bool} {run rest : List Char} (hrun : ∀ c ∈ run, p c = true)
    (hrest : ∀ c ∈ rest.head?, p c = false) :
    (run ++ rest).takeWhile p = run ∧ (run ++ rest).dropWhile p = rest := by
  rw [List.takeWhile_append_of_pos hrun, List.dropWhile_append_of_pos hrun]
  cases rest with
  | nil => simp
  | cons c rest =>
    have hc : p c = false := hrest c rfl
    simp [hc]

/-- Two runs of one sort that end in the same text are the same. -/
theorem run_append_inj {p : Char → Bool} {run run' rest rest' : List Char}
    (hrun : ∀ c ∈ run, p c = true) (hrun' : ∀ c ∈ run', p c = true)
    (hrest : ∀ c ∈ rest.head?, p c = false) (hrest' : ∀ c ∈ rest'.head?, p c = false)
    (h : run ++ rest = run' ++ rest') : run = run' ∧ rest = rest' := by
  obtain ⟨htake, hdrop⟩ := span_run hrun hrest
  obtain ⟨htake', hdrop'⟩ := span_run hrun' hrest'
  exact ⟨by rw [← htake, h, htake'], by rw [← hdrop, h, hdrop']⟩

end Metamodel.Text

/-!
# Splitting and joining texts

A text is cut at a separator into its parts (`split`) and put together again (`join`). Cutting a
joined text gives the parts back, as long as none of them holds the separator.
-/

namespace Metamodel.Text

/-- The parts of a text between the occurrences of a separator; always at least one. -/
def split (sep : Char) : List Char → List (List Char)
  | [] => [[]]
  | c :: cs =>
    if c = sep then [] :: split sep cs
    else
      match split sep cs with
      | [] => [[c]]
      | part :: parts => (c :: part) :: parts

/-- The parts of a text with a separator between them. -/
def join (sep : List Char) : List (List Char) → List Char
  | [] => []
  | [part] => part
  | part :: parts => part ++ sep ++ join sep parts

/-- The parts of a string between the occurrences of a separator. -/
def splitText (sep : Char) (s : String) : List String :=
  (split sep s.toList).map String.ofList

theorem split_ne_nil (sep : Char) (cs : List Char) : split sep cs ≠ [] := by
  cases cs with
  | nil => simp [split]
  | cons c cs =>
    unfold split
    split
    · simp
    · split <;> simp

theorem split_of_notMem {sep : Char} {part : List Char} (h : sep ∉ part) :
    split sep part = [part] := by
  induction part with
  | nil => rfl
  | cons c cs ih =>
    simp only [List.mem_cons, not_or] at h
    simp [split, Ne.symm h.1, ih h.2]

theorem split_append_cons {sep : Char} {part : List Char} (h : sep ∉ part) (rest : List Char) :
    split sep (part ++ sep :: rest) = part :: split sep rest := by
  induction part with
  | nil => simp [split]
  | cons c cs ih =>
    simp only [List.mem_cons, not_or] at h
    simp [split, Ne.symm h.1, ih h.2]

/-- Cutting undoes joining. -/
theorem split_join {sep : Char} {parts : List (List Char)} (hne : parts ≠ [])
    (h : ∀ p ∈ parts, sep ∉ p) : split sep (join [sep] parts) = parts := by
  induction parts with
  | nil => exact absurd rfl hne
  | cons p ps ih =>
    cases ps with
    | nil => exact split_of_notMem (h p (by simp))
    | cons q qs =>
      have hp : sep ∉ p := h p (by simp)
      have hq : ∀ r ∈ q :: qs, sep ∉ r := fun r hr => h r (List.mem_cons_of_mem _ hr)
      simp [join, List.append_assoc, split_append_cons hp, ih (by simp) hq]

end Metamodel.Text

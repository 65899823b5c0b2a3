import Metamodel.Text.Blank

/-!
# Texts without blanks at their ends

Nothing is trimmed from a text that begins and ends with something else than a blank
(`IsTrimmed.trim_eq`), and such texts may be put together with anything between them.
-/

namespace Metamodel.Text

theorem isBlank_eq_false {c : Char} (h : 0x20 < c.toNat ∧ c.toNat < 0xA0) : isBlank c = false := by
  simp only [isBlank, Bool.or_eq_false_iff, Bool.and_eq_false_iff, decide_eq_false_iff_not,
    beq_eq_false_iff_ne]
  omega

/-- The text begins and ends with something else than a blank. -/
structure IsTrimmed (cs : List Char) : Prop where
  head : ∃ c, cs.head? = some c ∧ isBlank c = false
  last : ∃ c, cs.getLast? = some c ∧ isBlank c = false

theorem isTrimmed_of_forall {cs : List Char} (hne : cs ≠ []) (h : ∀ c ∈ cs, isBlank c = false) :
    IsTrimmed cs where
  head := ⟨_, List.head?_eq_some_head hne, h _ (List.head_mem hne)⟩
  last := ⟨_, List.getLast?_eq_some_getLast hne, h _ (List.getLast_mem hne)⟩

namespace IsTrimmed

variable {cs ds : List Char}

/-- What stands between two such texts may hold blanks. -/
theorem append (hcs : IsTrimmed cs) (between : List Char) (hds : IsTrimmed ds) :
    IsTrimmed (cs ++ (between ++ ds)) where
  head := by
    obtain ⟨c, hc, hblank⟩ := hcs.head
    exact ⟨c, by rw [List.head?_append, hc, Option.some_or], hblank⟩
  last := by
    obtain ⟨c, hc, hblank⟩ := hds.last
    exact ⟨c, by rw [List.getLast?_append, List.getLast?_append, hc, Option.some_or,
      Option.some_or], hblank⟩

theorem trimStart_append (h : IsTrimmed cs) (rest : List Char) :
    trimStart (cs ++ rest) = cs ++ rest := by
  obtain ⟨c, hc, hblank⟩ := h.head
  obtain ⟨cs', rfl⟩ := List.head?_eq_some_iff.1 hc
  rw [List.cons_append, trimStart, List.dropWhile_cons, hblank, if_neg Bool.false_ne_true]

theorem trim_eq (h : IsTrimmed cs) : trim cs = cs := by
  have hreverse : IsTrimmed cs.reverse :=
    ⟨by rw [List.head?_reverse]; exact h.last, by rw [List.getLast?_reverse]; exact h.head⟩
  have hstart {ds : List Char} (hds : IsTrimmed ds) : trimStart ds = ds := by
    simpa only [List.append_nil] using hds.trimStart_append []
  have hend : cs.reverse.dropWhile isBlank = cs.reverse := hstart hreverse
  rw [trim, hstart h, trimEnd, hend, List.reverse_reverse]

theorem isEmpty_eq (h : IsTrimmed cs) : cs.isEmpty = false := by
  obtain ⟨c, hc, -⟩ := h.head
  obtain ⟨cs', rfl⟩ := List.head?_eq_some_iff.1 hc
  rfl

end IsTrimmed

end Metamodel.Text

/-!
# Collation

The dictionary order of names, paths and messages. Two texts compare first by the ranks of their
characters, in which a letter and its capital are equal and a shorter text precedes its
extensions; texts of equal ranks compare by the first letter whose case differs, the small one
first. Digits have no numeric meaning.

`collate` is the comparison, and `collated` and `collatedBy` are the stable sorts by it.
-/

namespace Metamodel.Text

/-- The characters below the letters, in ascending rank. -/
def lowRanks : List Char :=
  " _-,;:!?.\x27\"()[]\x7b\x7d@*/\\&#%\x60^+<=>|~$0123456789".toList

/-- The rank of a character: marks, then digits, then letters without regard to case. -/
def rank (c : Char) : Nat :=
  if c.isUpper then 100 + (c.toNat - 65)
  else if c.isLower then 100 + (c.toNat - 97)
  else if c ∈ lowRanks then lowRanks.idxOf c
  else 200 + c.toNat

/-- The dictionary order of two texts. -/
def collate (a b : String) : Ordering :=
  (compare (a.toList.map rank) (b.toList.map rank)).then
    (compare (a.toList.map Char.isUpper) (b.toList.map Char.isUpper))

/-- The items in the dictionary order of their keys; items of equal keys keep their order. -/
def collatedBy {α : Type} (key : α → String) (xs : List α) : List α :=
  xs.mergeSort fun a b => (collate (key a) (key b)).isLE

/-- The texts in dictionary order. -/
def collated (xs : List String) : List String :=
  collatedBy id xs

end Metamodel.Text

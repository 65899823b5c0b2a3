/-!
# Sixteen-bit units

Lengths, columns, hashes and the order of member names are measured in 16-bit units, of which a
character has one, or two when it lies beyond the basic plane. The file defines the units of a
text (`units`), their number (`width`) and the order by units (`compareUnits`).
-/

namespace Metamodel.Text

/-- The 16-bit units of a character: its code point, or a surrogate pair beyond the basic plane. -/
def charUnits (c : Char) : List Nat :=
  if c.toNat < 0x10000 then [c.toNat]
  else [0xD800 + (c.toNat - 0x10000) / 0x400, 0xDC00 + (c.toNat - 0x10000) % 0x400]

/-- The 16-bit units of a text, in order. -/
def units (cs : List Char) : List Nat :=
  cs.flatMap charUnits

/-- The number of 16-bit units of a text. -/
def width (cs : List Char) : Nat :=
  cs.foldr (fun c n => (if c.toNat < 0x10000 then 1 else 2) + n) 0

/-- The order of two texts by their 16-bit units. -/
def compareUnits (a b : String) : Ordering :=
  compare (units a.toList) (units b.toList)

@[simp] theorem units_nil : units [] = [] := rfl

theorem units_cons (c : Char) (cs : List Char) : units (c :: cs) = charUnits c ++ units cs := by
  simp [units]

theorem units_append (a b : List Char) : units (a ++ b) = units a ++ units b := by
  simp [units]

theorem length_charUnits (c : Char) :
    (charUnits c).length = if c.toNat < 0x10000 then 1 else 2 := by
  unfold charUnits
  split <;> rfl

/-- The width counts the units. -/
theorem length_units (cs : List Char) : (units cs).length = width cs := by
  induction cs with
  | nil => rfl
  | cons c cs ih => rw [units_cons, List.length_append, length_charUnits, ih]; rfl

end Metamodel.Text

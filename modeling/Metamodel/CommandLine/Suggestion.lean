import Metamodel.Text.Collation
import Metamodel.Text.Units

/-!
# Suggestions

A word that is not known may be a known one misspelt. `editDistance` is the least number of items
to insert, delete, replace or swap with their neighbours that leads from one list to another,
where nothing is changed twice; `closest` are the known words at the least distance, as long as
that is small and most of the word stays.
-/

namespace Metamodel.CommandLine

/-- What the table of distances knows of an item that came before: the item, and the row of the
distances of the items before it. -/
structure EarlierRow (α : Type) where
  item : α
  distances : List Nat

/-- The cells of a row behind its first one. `left` is the cell before them, `above` are the cells
of the row above from the one before them on, and `earlier` holds the row above that one, from two
cells before them on as soon as an item `previous` of the target lies behind. -/
def rowCells {α : Type} [DecidableEq α] (item : α) (earlier : Option (EarlierRow α))
    (previous : Option α) (left : Nat) : List α → List Nat → List Nat
  | t :: ts, diagonal :: up :: above =>
    let plain := min (min (up + 1) (left + 1)) (diagonal + if item = t then 0 else 1)
    let cell :=
      match earlier, previous with
      | some ⟨item', swapped :: _⟩, some t' =>
        if item = t' ∧ item' = t then min plain (swapped + 1) else plain
      | _, _ => plain
    let earlier :=
      if previous.isSome then earlier.map fun e => { e with distances := e.distances.tail }
      else earlier
    cell :: rowCells item earlier (some t) cell ts (up :: above)
  | _, _ => []

/-- The last row of the table: the distances of the whole word to the beginnings of the target,
where `done` items have led to the row above. -/
def lastRow {α : Type} [DecidableEq α] (target : List α) (done : Nat)
    (earlier : Option (EarlierRow α)) (above : List Nat) : List α → List Nat
  | [] => above
  | item :: items =>
    let row := (done + 1) :: rowCells item earlier none (done + 1) target above
    lastRow target (done + 1) (some ⟨item, above⟩) row items

/-- The least number of changes that lead from a word to a target. -/
def editDistance {α : Type} [DecidableEq α] (word target : List α) : Nat :=
  (lastRow target 0 none (List.range (target.length + 1)) word).getLast?.getD 0

/-- The greatest distance of a suggestion. -/
def maxEditDistance : Nat := 3

/-- Whether a distance is small enough for two words of which the longer one has a length: more
than two fifths of it stay. -/
def isSimilar (length distance : Nat) : Bool :=
  distance ≤ maxEditDistance && 2 * length < 5 * (length - distance)

/-- The known words that a word is most likely to mean, in dictionary order. -/
def closest (word : String) (known : List String) : List String :=
  let units := Text.units word.toList
  let measured := known.map fun k =>
    let target := Text.units k.toList
    (k, max units.length target.length, editDistance units target)
  let similar := measured.filter fun m => isSimilar m.2.1 m.2.2
  let least := (similar.map (·.2.2)).min?.getD 0
  Text.collated ((similar.filter (·.2.2 == least)).map (·.1))

end Metamodel.CommandLine

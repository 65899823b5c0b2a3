import Metamodel.Text.CaseMap.Table

/-!
# Case mapping

Capitals and small letters of all scripts, character by character: `upper` and `lower` of a text
are the concatenations of the mappings of its characters, some of which (`ß`) are written with
several characters.
-/

namespace Metamodel.Text

namespace CaseMap

/-- The image of a code point under the run that holds it. -/
def Run.image? (r : Run) (n : Nat) : Option Nat :=
  if r.first ≤ n && n ≤ r.last && (n - r.first) % r.step == 0 then some (r.image + (n - r.first))
  else none

/-- The mapping of one character by a table of runs and expansions. -/
def mapChar (runs : List Run) (expansions : List (Nat × List Nat)) (c : Char) : List Char :=
  match runs.findSome? (·.image? c.toNat) with
  | some n => [Char.ofNat n]
  | none => ((expansions.lookup c.toNat).map (·.map Char.ofNat)).getD [c]

end CaseMap

/-- The capitals of a character; letters of the basic alphabet need no table. -/
def upperChar (c : Char) : List Char :=
  if c.toNat < 0x80 then [c.toUpper]
  else CaseMap.mapChar CaseMap.upperRuns CaseMap.upperExpansions c

/-- The small letters of a character; letters of the basic alphabet need no table. -/
def lowerChar (c : Char) : List Char :=
  if c.toNat < 0x80 then [c.toLower]
  else CaseMap.mapChar CaseMap.lowerRuns CaseMap.lowerExpansions c

/-- The text in capitals. -/
def upper (cs : List Char) : List Char :=
  cs.flatMap upperChar

/-- The text in small letters. -/
def lower (cs : List Char) : List Char :=
  cs.flatMap lowerChar

/-- The string in capitals. -/
def uppercase (s : String) : String :=
  String.ofList (upper s.toList)

/-- The string in small letters. -/
def lowercase (s : String) : String :=
  String.ofList (lower s.toList)

end Metamodel.Text

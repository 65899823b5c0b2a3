import Metamodel.Json.Basic

/-!
# Printing JSON values

Values are printed on one line, or with each item and member on its own line, indented by a fixed
gap for each open container. Strings escape quotes, backslashes and the control characters below
U+0020, numbers have their shortest digits, and numbers that are not finite are printed as null.

`Json.stableText` prints the canonical form of a value, whose members stand in the order of their
16-bit units at every depth, so that the order in which members were added never shows.
-/

namespace Metamodel.Json

/-- A digit of a hexadecimal number. -/
def hexDigit (n : Nat) : Char :=
  Nat.digitChar n

/-- A character as it stands in a string. -/
def escapeChar (c : Char) : List Char :=
  if c == '"' then ['\\', '"']
  else if c == '\\' then ['\\', '\\']
  else if c == '\x08' then ['\\', 'b']
  else if c == '\x0c' then ['\\', 'f']
  else if c == '\n' then ['\\', 'n']
  else if c == '\r' then ['\\', 'r']
  else if c == '\t' then ['\\', 't']
  else if c.toNat < 0x20 then
    ['\\', 'u', '0', '0', hexDigit (c.toNat / 16), hexDigit (c.toNat % 16)]
  else [c]

/-- A string between its quotes. -/
def printString (s : String) : List Char :=
  '"' :: s.toList.flatMap escapeChar ++ ['"']

/-- A number; the ones that are not finite have no JSON form. -/
def printNumber (x : Decimal.Binary64) : List Char :=
  match x with
  | .finite .. => x.text.toList
  | _ => "null".toList

/-- A line break and the indentation of a depth, or nothing when all stands on one line. -/
def lineBreak (gap depth : Nat) : List Char :=
  if gap == 0 then [] else '\n' :: List.replicate (gap * depth) ' '

/-- What stands between a member's name and its value. -/
def nameMark (gap : Nat) : List Char :=
  if gap == 0 then [':'] else [':', ' ']

mutual

/-- A value that stands at a depth. -/
def print (gap depth : Nat) : Json → List Char
  | .null => "null".toList
  | .bool b => if b then "true".toList else "false".toList
  | .number x => printNumber x
  | .string s => printString s
  | .array [] => ['[', ']']
  | .array (x :: xs) =>
    '[' :: lineBreak gap (depth + 1) ++ print gap (depth + 1) x ++
      printItems gap (depth + 1) xs ++ lineBreak gap depth ++ [']']
  | .object [] => ['\x7b', '\x7d']
  | .object ((k, v) :: ms) =>
    '\x7b' :: lineBreak gap (depth + 1) ++ printString k ++ nameMark gap ++
      print gap (depth + 1) v ++ printMembers gap (depth + 1) ms ++ lineBreak gap depth ++ ['\x7d']

/-- The items behind the first one. -/
def printItems (gap depth : Nat) : List Json → List Char
  | [] => []
  | x :: xs => ',' :: lineBreak gap depth ++ print gap depth x ++ printItems gap depth xs

/-- The members behind the first one. -/
def printMembers (gap depth : Nat) : List (String × Json) → List Char
  | [] => []
  | (k, v) :: ms =>
    ',' :: lineBreak gap depth ++ printString k ++ nameMark gap ++ print gap depth v ++
      printMembers gap depth ms

end

/-- The value on one line. -/
def compactText (v : Json) : String :=
  String.ofList (print 0 0 v)

/-- Members in the order of the 16-bit units of their names. -/
def sortMembers {α : Type} (ms : List (String × α)) : List (String × α) :=
  ms.mergeSort fun a b => (Text.compareUnits a.1 b.1).isLE

/-- The one member name that a canonical form leaves out, since it names an object's prototype and
not a member of it. -/
def prototypeName : String := "__proto__"

mutual

/-- The same value with its members in canonical order at every depth. -/
def canonical : Json → Json
  | .array xs => .array (canonicalItems xs)
  | .object ms =>
    .object (visitingOrder (sortMembers (canonicalMembers ms)))
  | v => v

/-- The canonical forms of items. -/
def canonicalItems : List Json → List Json
  | [] => []
  | x :: xs => canonical x :: canonicalItems xs

/-- The members with canonical values, without the prototype's name. -/
def canonicalMembers : List (String × Json) → List (String × Json)
  | [] => []
  | (k, v) :: ms =>
    if k == prototypeName then canonicalMembers ms else (k, canonical v) :: canonicalMembers ms

end

/-- The canonical form as a text that ends in a line break, each level indented by `gap`. -/
def stableText (v : Json) (gap : Nat) : String :=
  String.ofList (print gap 0 (canonical v) ++ ['\n'])

/-- The widest gap that a level is indented by. -/
def maxGap : Nat := 10

/-- The gap that a number asks for: its whole part, within zero and the widest gap. -/
def gapOf (space : Decimal.Binary64) : Nat :=
  match space with
  | .nan => 0
  | .infinite negative => if negative then 0 else maxGap
  | .finite .. => min space.truncate.toNat maxGap

end Metamodel.Json

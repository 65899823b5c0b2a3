import Metamodel.Decimal.Text
import Metamodel.Json.Lexer

/-!
# Values of literals

The value of a quoted text with its escapes resolved, and of a number with its base, separators and
exponent. Numbers without a base are read as decimals.
-/

namespace Metamodel.Source

open Decimal

/-! ## Texts -/

/-- The characters that escapes of one letter stand for. -/
def letterEscapes : List (Char × Char) :=
  [('b', '\x08'), ('t', '\t'), ('n', '\n'), ('v', '\x0b'), ('f', '\x0c'), ('r', '\r'),
    ('0', '\x00')]

/-- The 16-bit unit that four hexadecimal digits behind an escape mark stand for, and the rest. -/
def takeUnit? : List Char → Option (Nat × List Char)
  | '\\' :: 'u' :: a :: b :: c :: d :: rest => (Json.hexUnit? a b c d).map (·, rest)
  | _ => none

/-- The character, if any, that an escape stands for, and the number of characters that it takes
behind its mark. -/
def escaped (cs : List Char) : Option Char × Nat :=
  match cs with
  | [] => (none, 0)
  | 'x' :: a :: b :: _ => ((Json.hexUnit? '0' '0' a b).map Char.ofNat, 3)
  | 'u' :: '\x7b' :: rest =>
    let digits := rest.takeWhile (· != '\x7d')
    (some (Char.ofNat (digitsValue 16 digits)), digits.length + 3)
  | 'u' :: rest =>
    match takeUnit? ('\\' :: 'u' :: rest) with
    | none => (some 'u', 1)
    | some (high, behind) =>
      match takeUnit? behind with
      | none => (some (Json.unitChar high), 5)
      | some (low, _) =>
        match Json.pairChar? high low with
        | some c => (some c, 11)
        | none => (some (Json.unitChar high), 5)
  | '\r' :: '\n' :: _ => (none, 2)
  | c :: _ =>
    if c == '\n' || c == '\r' || c.toNat == 0x2028 || c.toNat == 0x2029 then (none, 1)
    else (some ((letterEscapes.lookup c).getD c), 1)

/-- A text with its escapes resolved. -/
def unescape : List Char → List Char
  | [] => []
  | '\\' :: rest =>
    let (c, n) := escaped rest
    c.toList ++ unescape (rest.drop n)
  | '\r' :: '\n' :: rest => '\n' :: unescape rest
  | c :: rest => c :: unescape rest
  termination_by cs => cs.length
  decreasing_by all_goals (simp only [List.length_cons, List.length_drop]; omega)

/-- The value of a quoted text. -/
def textValue (written : String) : String :=
  String.ofList (unescape ((written.toList.drop 1).dropLast))

/-- Whether a text in backticks holds an expression. -/
def holdsExpression : List Char → Bool
  | '\\' :: _ :: rest => holdsExpression rest
  | '$' :: '\x7b' :: _ => true
  | _ :: rest => holdsExpression rest
  | [] => false

/-! ## Numbers -/

/-- The base that a letter behind a zero announces. -/
def numberBases : List (Char × Nat) :=
  [('x', 16), ('X', 16), ('o', 8), ('O', 8), ('b', 2), ('B', 2)]

/-- The value of a decimal, whose point may stand first or last. -/
def decimalValue (cs : List Char) : Binary64 :=
  let whole := cs.takeWhile Char.isDigit
  let behind := cs.drop whole.length
  let fraction := match behind with
    | '.' :: rest => rest.takeWhile Char.isDigit
    | _ => []
  let exponent := behind.dropWhile fun c => c == '.' || c.isDigit
  (Numeral.mk false whole fraction ((Numeral.readExponent? exponent).getD 0)).value

/-- The value of a number as written. -/
def numberValue (written : String) : Binary64 :=
  match written.toList.filter (· != '_') with
  | '0' :: b :: rest =>
    match numberBases.lookup b with
    | some base => .ofNat (digitsValue base rest)
    | none =>
      if (b :: rest).all fun c => c.isDigit && c ≤ '7' then .ofNat (digitsValue 8 (b :: rest))
      else decimalValue ('0' :: b :: rest)
  | cs => decimalValue cs

example : (numberValue "0x10").text = "16" := by decide +kernel
example : (numberValue "1.50").text = "1.5" := by decide +kernel
example : (numberValue "1_000").text = "1000" := by decide +kernel
example : textValue "'a\\x41\\'b'" = "aA\x27b" := by decide +kernel

end Metamodel.Source

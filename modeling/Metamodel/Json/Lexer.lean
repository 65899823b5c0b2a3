import Metamodel.Json.Basic

/-!
# Tokens of JSON texts

A JSON text is a sequence of marks, strings and atoms between blanks. Each lexing step returns a
shorter rest (`StringBody.length_lt`), which ends the recursion of `Json.tokens?`.
-/

namespace Metamodel.Json

open Decimal

/-- A token of a JSON text. -/
inductive Token where
  | openArray
  | closeArray
  | openObject
  | closeObject
  | colon
  | comma
  | string (value : String)
  | atom (value : Json)

/-- The code point of four hexadecimal digits. -/
def hexUnit? (a b c d : Char) : Option Nat :=
  match [a, b, c, d].mapM digitValue? with
  | some ds => some (ds.foldl (fun n x => n * 16 + x) 0)
  | none => none

/-- The character of two 16-bit units, when they are a surrogate pair. -/
def pairChar? (high low : Nat) : Option Char :=
  if 0xD800 ≤ high && high < 0xDC00 && 0xDC00 ≤ low && low < 0xE000 then
    some (Char.ofNat (0x10000 + (high - 0xD800) * 0x400 + (low - 0xDC00)))
  else none

/-- The character of a 16-bit unit; a surrogate without its partner becomes U+FFFD. -/
def unitChar (n : Nat) : Char :=
  if 0xD800 ≤ n && n < 0xE000 then Char.ofNat 0xFFFD else Char.ofNat n

/-- The characters of a string up to its closing quote, and the rest behind it. -/
def stringBody? : List Char → Option (List Char × List Char)
  | [] => none
  | '"' :: rest => some ([], rest)
  | '\\' :: 'u' :: a :: b :: c :: d :: '\\' :: 'u' :: e :: f :: g :: h :: rest =>
    match hexUnit? a b c d, hexUnit? e f g h with
    | some m, some n =>
      match pairChar? m n with
      | some p => (stringBody? rest).map fun r => (p :: r.1, r.2)
      | none =>
        (stringBody? ('\\' :: 'u' :: e :: f :: g :: h :: rest)).map fun r =>
          (unitChar m :: r.1, r.2)
    | some m, none =>
      (stringBody? ('\\' :: 'u' :: e :: f :: g :: h :: rest)).map fun r =>
        (unitChar m :: r.1, r.2)
    | none, _ => none
  | '\\' :: 'u' :: a :: b :: c :: d :: rest =>
    match hexUnit? a b c d with
    | some m => (stringBody? rest).map fun r => (unitChar m :: r.1, r.2)
    | none => none
  | '\\' :: c :: rest =>
    match [('"', '"'), ('\\', '\\'), ('/', '/'), ('b', '\x08'), ('f', '\x0c'), ('n', '\n'),
        ('r', '\r'), ('t', '\t')].lookup c with
    | some e => (stringBody? rest).map fun r => (e :: r.1, r.2)
    | none => none
  | c :: rest =>
    if c.toNat < 0x20 || c == '\\' then none
    else (stringBody? rest).map fun r => (c :: r.1, r.2)
  termination_by cs => cs.length

/-- What follows a string is shorter than the text behind its opening quote. -/
theorem length_of_stringBody? {cs : List Char} {r : List Char × List Char}
    (h : stringBody? cs = some r) : r.2.length < cs.length := by
  fun_induction stringBody? cs generalizing r <;>
    simp_all only [Option.map_eq_some_iff, Option.some.injEq, reduceCtorEq]
  all_goals try (subst h; simp)
  all_goals
    rename_i ih
    obtain ⟨u, hu, rfl⟩ := h
    have := ih hu
    simp only [List.length_cons] at *
    omega

/-- Whether a character can be part of a number. -/
def isNumberChar (c : Char) : Bool :=
  c.isDigit || c == '-' || c == '+' || c == '.' || c == 'e' || c == 'E'

/-- The number of a JSON numeral, which has no leading zeros. -/
def number? (cs : List Char) : Option Binary64 :=
  match Numeral.read? cs with
  | some n =>
    if n.whole.length > 1 && n.whole.head? == some '0' then none else some n.value
  | none => none

/-- The value of a literal word. -/
def word? (cs : List Char) : Option Json :=
  if cs = "null".toList then some .null
  else if cs = "true".toList then some (.bool true)
  else if cs = "false".toList then some (.bool false)
  else none

/-- The tokens of a JSON text, or nothing when some part of it is none. -/
def tokens? (cs : List Char) : Option (List Token) :=
  match cs with
  | [] => some []
  | c :: rest =>
    if c == ' ' || c == '\n' || c == '\r' || c == '\t' then tokens? rest
    else if c == '[' then (tokens? rest).map (.openArray :: ·)
    else if c == ']' then (tokens? rest).map (.closeArray :: ·)
    else if c == '\x7b' then (tokens? rest).map (.openObject :: ·)
    else if c == '\x7d' then (tokens? rest).map (.closeObject :: ·)
    else if c == ':' then (tokens? rest).map (.colon :: ·)
    else if c == ',' then (tokens? rest).map (.comma :: ·)
    else if c == '"' then
      match h : stringBody? rest with
      | some r =>
        have := length_of_stringBody? h
        (tokens? r.2).map (.string (String.ofList r.1) :: ·)
      | none => none
    else if isNumberChar c then
      have : (rest.dropWhile isNumberChar).length ≤ rest.length :=
        (List.dropWhile_sublist _).length_le
      match number? (c :: rest.takeWhile isNumberChar) with
      | some x => (tokens? (rest.dropWhile isNumberChar)).map (.atom (.number x) :: ·)
      | none => none
    else if c.isAlpha then
      have : (rest.dropWhile Char.isAlpha).length ≤ rest.length :=
        (List.dropWhile_sublist _).length_le
      match word? (c :: rest.takeWhile Char.isAlpha) with
      | some v => (tokens? (rest.dropWhile Char.isAlpha)).map (.atom v :: ·)
      | none => none
    else none
  termination_by cs.length
  decreasing_by all_goals (simp only [List.length_cons]; omega)

end Metamodel.Json

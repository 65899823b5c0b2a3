import Metamodel.Text.Units

/-!
# Tokens of source texts

A source text is a sequence of tokens, each behind a gap of blanks and comments. A token knows where
its gap begins and where it stands itself; lines and columns count from one, columns in 16-bit
units.
-/

namespace Metamodel.Source

/-- A place in a source text. -/
structure Position where
  line : Nat
  column : Nat
  deriving DecidableEq, Inhabited

namespace Position

def start : Position := ⟨1, 1⟩

/-- Whether a character ends a line. -/
def isLineBreak (c : Char) : Bool :=
  c == '\n' || c == '\r' || c.toNat == 0x2028 || c.toNat == 0x2029

/-- The place behind some characters. A carriage return and the line feed behind it end one
line. -/
def advance (p : Position) : List Char → Position
  | [] => p
  | '\r' :: '\n' :: rest => advance ⟨p.line + 1, 1⟩ rest
  | c :: rest =>
    if isLineBreak c then advance ⟨p.line + 1, 1⟩ rest
    else advance ⟨p.line, p.column + Text.width [c]⟩ rest

end Position

/-- The class of a token. -/
inductive TokenKind where
  /-- an identifier or a keyword -/
  | word
  /-- a name that begins with a number sign -/
  | privateName
  | number
  /-- a number of arbitrary size, marked by an `n` -/
  | bigNumber
  | string
  /-- a text in backticks, with the expressions in it -/
  | template
  | regex
  /-- an operator or a bracket -/
  | mark
  deriving DecidableEq, Inhabited

/-- A token with the gap in front of it. -/
structure Token where
  kind : TokenKind
  /-- the token as written -/
  text : String
  /-- the blanks and comments in front of it -/
  gap : String
  /-- where the gap begins -/
  gapStart : Position
  /-- where the token begins -/
  position : Position
  /-- whether it is the first token of the text -/
  isFirst : Bool
  deriving DecidableEq, Inhabited

namespace Token

/-- Whether the token is the given word. -/
def isWord (t : Token) (w : String) : Bool :=
  t.kind == .word && t.text == w

/-- Whether the token is one of the given words. -/
def isOneOf (t : Token) (ws : List String) : Bool :=
  t.kind == .word && ws.contains t.text

/-- Whether the token is the given operator or bracket. -/
def isMark (t : Token) (m : String) : Bool :=
  t.kind == .mark && t.text == m

/-- Whether a line ends between the previous token and this one. -/
def startsLine (t : Token) : Bool :=
  t.gap.toList.any Position.isLineBreak

/-- Whether the token opens a bracket. -/
def opens (t : Token) : Bool :=
  t.kind == .mark && ["(", "[", "\x7b"].contains t.text

/-- Whether the token closes a bracket. -/
def closes (t : Token) : Bool :=
  t.kind == .mark && [")", "]", "\x7d"].contains t.text

end Token

/-- The source text of tokens, without the gap in front of the first one. -/
def writtenText : List Token → String
  | [] => ""
  | t :: ts => t.text ++ String.join (ts.map fun u => u.gap ++ u.text)

/-- The tokens inside the bracket that a list of tokens stands in, and the tokens behind its closing
mark; `depth` is the number of further brackets that are open. -/
def splitClosing (depth : Nat) : List Token → List Token × List Token
  | [] => ([], [])
  | t :: ts =>
    if t.closes then
      match depth with
      | 0 => ([], ts)
      | d + 1 => let (inside, rest) := splitClosing d ts; (t :: inside, rest)
    else
      let (inside, rest) := splitClosing (if t.opens then depth + 1 else depth) ts
      (t :: inside, rest)

/-- The tokens inside the bracket that the first token opens, and the tokens behind it. -/
def bracketed? (mark : String) : List Token → Option (List Token × List Token)
  | [] => none
  | t :: ts => if t.isMark mark then some (splitClosing 0 ts) else none

/-- The parts of a list of tokens between the commas outside all brackets. -/
def splitCommas (depth : Nat) : List Token → List (List Token)
  | [] => [[]]
  | t :: ts =>
    if depth == 0 && t.isMark "," then [] :: splitCommas 0 ts
    else
      let depth := if t.opens then depth + 1 else if t.closes then depth - 1 else depth
      match splitCommas depth ts with
      | [] => [[t]]
      | part :: parts => (t :: part) :: parts

end Metamodel.Source

import Metamodel.Source.Token
import Metamodel.Text.Blank

/-!
# Cutting source texts into tokens

The lexer measures the gap in front of a text and the token behind it, and cuts there, so that
nothing is lost. Each cut leaves a shorter rest, which ends the recursion of `tokensFrom`.
-/

namespace Metamodel.Source

/-! ## Gaps -/

/-- What a gap is made of. -/
inductive GapPart where
  | blanks
  | lineComment
  | blockComment
  deriving DecidableEq

/-- The number of characters of the gap in front of a text. -/
def gapLength : GapPart → List Char → Nat
  | _, [] => 0
  | .blanks, '/' :: '/' :: rest => 2 + gapLength .lineComment rest
  | .blanks, '/' :: '*' :: rest => 2 + gapLength .blockComment rest
  | .blanks, c :: rest =>
    if Text.isBlank c || Position.isLineBreak c then 1 + gapLength .blanks rest else 0
  | .lineComment, c :: rest =>
    1 + gapLength (if Position.isLineBreak c then .blanks else .lineComment) rest
  | .blockComment, '*' :: '/' :: rest => 2 + gapLength .blanks rest
  | .blockComment, _ :: rest => 1 + gapLength .blockComment rest

/-! ## Names -/

/-- Whether a name can start with the character. Letters beyond ASCII are all that are no blanks. -/
def isNameStart (c : Char) : Bool :=
  c.isAlpha || c == '_' || c == '$' ||
    (c.toNat ≥ 0x80 && !Text.isBlank c && !Position.isLineBreak c)

/-- Whether a name can go on with the character. -/
def isNameChar (c : Char) : Bool :=
  isNameStart c || c.isDigit

/-! ## Literals

Each function gives the number of characters of a literal behind its first one. -/

/-- A quoted text up to its closing quote, or to the end of the line. -/
def quotedLength (quote : Char) : List Char → Nat
  | [] => 0
  | '\\' :: _ :: rest => 2 + quotedLength quote rest
  | c :: rest =>
    if c == quote then 1
    else if c == '\n' || c == '\r' then 0
    else 1 + quotedLength quote rest

/-- What the reading of a template is in. -/
inductive TemplateFrame where
  | text
  | code
  | quoted (quote : Char)
  | regex (inSet : Bool)
  | lineComment
  | blockComment

/-- Whether an operand may end with the character. -/
def mayEndOperand (c : Char) : Bool :=
  isNameChar c || ")]\x7d\x60\"\x27".toList.contains c

/-- A template up to its closing backtick; the expressions in it may hold further templates.
`previous` is the last character of an expression that is no blank. -/
def templateLength (previous : Char) : List TemplateFrame → List Char → Nat
  | [], _ => 0
  | _, [] => 0
  | .text :: frames, '\\' :: _ :: rest => 2 + templateLength previous (.text :: frames) rest
  | .text :: frames, '$' :: '\x7b' :: rest =>
    2 + templateLength '\x7b' (.code :: .text :: frames) rest
  | .text :: frames, c :: rest =>
    1 + templateLength '\x60' (if c == '\x60' then frames else .text :: frames) rest
  | .code :: frames, '/' :: '/' :: rest =>
    2 + templateLength previous (.lineComment :: .code :: frames) rest
  | .code :: frames, '/' :: '*' :: rest =>
    2 + templateLength previous (.blockComment :: .code :: frames) rest
  | .code :: frames, c :: rest =>
    let inner := .code :: frames
    1 + templateLength (if Text.isBlank c then previous else c)
      (if c == '\x7d' then frames
        else if c == '\x7b' then .code :: inner
        else if c == '\x60' then .text :: inner
        else if c == '"' || c == '\x27' then .quoted c :: inner
        else if c == '/' && !mayEndOperand previous then .regex false :: inner
        else inner) rest
  | .quoted q :: frames, '\\' :: _ :: rest => 2 + templateLength previous (.quoted q :: frames) rest
  | .quoted q :: frames, c :: rest =>
    1 + templateLength q (if c == q || c == '\n' then frames else .quoted q :: frames) rest
  | .regex inSet :: frames, '\\' :: _ :: rest =>
    2 + templateLength previous (.regex inSet :: frames) rest
  | .regex inSet :: frames, c :: rest =>
    1 + templateLength ')'
      (if (c == '/' && !inSet) || c == '\n' then frames
        else .regex (if c == '[' then true else if c == ']' then false else inSet) :: frames) rest
  | .lineComment :: frames, c :: rest =>
    1 + templateLength previous (if c == '\n' then frames else .lineComment :: frames) rest
  | .blockComment :: frames, '*' :: '/' :: rest => 2 + templateLength previous frames rest
  | .blockComment :: frames, _ :: rest =>
    1 + templateLength previous (.blockComment :: frames) rest

/-- A regular expression up to the slash outside all sets, with the flags behind it. -/
def regexLength (inSet : Bool) : List Char → Nat
  | [] => 0
  | '\\' :: _ :: rest => 2 + regexLength inSet rest
  | c :: rest =>
    if Position.isLineBreak c then 0
    else if c == '/' && !inSet then 1 + (rest.takeWhile isNameChar).length
    else 1 + regexLength (if c == '[' then true else if c == ']' then false else inSet) rest

/-- A number. An exponent mark, except in a number with another base, may be followed by a sign; a
second point is no part of the number. -/
def numberLength (based seenPoint : Bool) : List Char → Nat
  | [] => 0
  | c :: rest =>
    if c == '.' then if seenPoint || based then 0 else 1 + numberLength based true rest
    else if (c == 'e' || c == 'E') && !based then
      match rest with
      | s :: rest =>
        if s == '+' || s == '-' then 2 + numberLength based true rest
        else 1 + numberLength based true (s :: rest)
      | [] => 1
    else if isNameChar c then 1 + numberLength based seenPoint rest
    else 0

/-! ## Tokens -/

/-- The operators of more than one character, longer ones first. A mark for "greater" always stands
alone, since it may close type arguments. -/
def longMarks : List String :=
  ["===", "!==", "**=", "&&=", "||=", "??=", "...", "=>", "==", "!=", "<=", "&&", "||", "??", "++",
    "--", "+=", "-=", "*=", "/=", "%=", "&=", "|=", "^=", "**", "?."]

/-- The words behind which an expression begins. -/
def operatorWords : List String :=
  ["return", "typeof", "case", "in", "of", "new", "delete", "void", "throw", "instanceof", "do",
    "else", "yield", "await", "extends", "default"]

/-- Whether an operand may end with the token, so that a slash behind it divides. -/
def Token.endsOperand (t : Token) : Bool :=
  match t.kind with
  | .word => !operatorWords.contains t.text
  | .mark => t.closes || t.isMark "++" || t.isMark "--"
  | _ => true

/-- The class of the token at the front of a text, and the number of characters behind its
first. -/
def measureToken (afterOperand : Bool) (c : Char) (rest : List Char) : TokenKind × Nat :=
  if isNameStart c then (.word, (rest.takeWhile isNameChar).length)
  else if c == '#' && (rest.head?.map isNameStart).getD false then
    (.privateName, (rest.takeWhile isNameChar).length)
  else if c.isDigit || (c == '.' && (rest.head?.map Char.isDigit).getD false) then
    let based := c == '0' && (rest.head?.map fun d => "xXbBoO".toList.contains d).getD false
    let n := numberLength based (c == '.') rest
    (if (rest.take n).getLast? == some 'n' then .bigNumber else .number, n)
  else if c == '"' || c == '\x27' then (.string, quotedLength c rest)
  else if c == '\x60' then (.template, templateLength '\x60' [.text] rest)
  else if c == '/' && !afterOperand then (.regex, regexLength false rest)
  else
    match longMarks.find? fun m => m.toList.isPrefixOf (c :: rest) with
    | some m => (.mark, m.length - 1)
    | none => (.mark, 0)

/-- The tokens of a text that begins at a place behind a previous token. -/
def tokensFrom (previous : Option Token) (start : Position) (part : GapPart) (cs : List Char) :
    List Token :=
  let n := gapLength part cs
  match _h : cs.drop n with
  | [] => []
  | c :: rest =>
    let (kind, k) := measureToken ((previous.map Token.endsOperand).getD false) c rest
    let position := start.advance (cs.take n)
    let text := c :: rest.take k
    let token : Token :=
      ⟨kind, String.ofList text, String.ofList (cs.take n), start, position, previous.isNone⟩
    token :: tokensFrom (some token) (position.advance text) .blanks (rest.drop k)
  termination_by cs.length
  decreasing_by
    have h := congrArg List.length _h
    simp only [List.length_drop, List.length_cons] at h ⊢
    omega

/-- The tokens of a source text. A byte-order mark counts for nothing, and a first line that begins
with `#!` is a comment. -/
def tokens (text : String) : List Token :=
  let cs := match text.toList with
    | [] => []
    | c :: rest => if c.toNat == 0xFEFF then rest else c :: rest
  tokensFrom none .start (if "#!".toList.isPrefixOf cs then .lineComment else .blanks) cs

end Metamodel.Source

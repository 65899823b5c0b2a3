import Metamodel.Source.Lexer

/-!
# Documentation comments

The last comment of the form `/** ... */` in the gap before a declaration documents it. Its tags are
names behind an at sign, which stands at the start of a line or behind a blank; the comment of a
tag runs to the next tag. Stars at line starts belong to the frame of the comment, and so do the
blanks behind them up to the margin, the column in which the tag's comment begins.
-/

namespace Metamodel.Source

/-! ## Comments of a gap -/

/-- A comment in a gap. -/
structure GapComment where
  content : List Char
  /-- the number of 16-bit units in front of it on its line -/
  column : Nat
  /-- whether it stands behind a line end, or at the start of the text -/
  leading : Bool

/-- The number of 16-bit units on the last line of a text that begins in a column. -/
def columnBehind (column : Nat) (cs : List Char) : Nat :=
  cs.foldl (fun n c => if c == '\n' then 0 else n + Text.width [c]) column

/-- The number of characters of a block comment behind its opening mark. -/
def blockLength : List Char → Nat
  | [] => 0
  | '*' :: '/' :: _ => 2
  | _ :: rest => 1 + blockLength rest

/-- The comments of a gap that begins in a column. -/
def gapComments (column : Nat) (leading : Bool) : List Char → List GapComment
  | [] => []
  | '/' :: '/' :: rest =>
    gapComments column leading (rest.drop (rest.takeWhile (!Position.isLineBreak ·)).length)
  | '/' :: '*' :: rest =>
    let content := '/' :: '*' :: rest.take (blockLength rest)
    ⟨content, column, leading⟩ ::
      gapComments (columnBehind column content) leading (rest.drop (blockLength rest))
  | c :: rest =>
    gapComments (columnBehind column [c]) (leading || c == '\n' || c == '\r') rest
  termination_by cs => cs.length
  decreasing_by all_goals (simp only [List.length_cons, List.length_drop]; omega)

/-- A documentation comment: what stands between its opening and its closing mark, and the column
behind the opening mark and a blank. -/
structure DocComment where
  body : List Char
  indent : Nat
  deriving DecidableEq

/-- The documentation comment that a comment is. -/
def GapComment.doc? (c : GapComment) : Option DocComment :=
  match c.content with
  | '/' :: '*' :: '*' :: rest =>
    if rest.head? == some '/' then none
    else some ⟨rest.take (rest.length - 2), c.column + 4⟩
  | _ => none

/-- The documentation comment of what begins with a token. Comments on the line of the previous
token count only when `inline` is set. -/
def Token.doc? (t : Token) (inline : Bool) : Option DocComment :=
  ((gapComments (t.gapStart.column - 1) (t.isFirst || inline) t.gap.toList).filter
    (·.leading)).filterMap GapComment.doc? |>.getLast?

namespace DocComment

/-! ## Tokens of a comment -/

/-- The class of a token of a documentation comment. -/
inductive Mark where
  | blanks
  | lineEnd
  | tag
  | star
  | backtick
  | name
  | other
  deriving DecidableEq

/-- Whether a character is a blank within a line. -/
def isInlineBlank (c : Char) : Bool :=
  Text.isBlank c && !Position.isLineBreak c

/-- The class of the token at the front of a text and the number of characters behind its first. -/
def measure (c : Char) (rest : List Char) : Mark × Nat :=
  if isInlineBlank c then (.blanks, (rest.takeWhile isInlineBlank).length)
  else if c == '\r' then (.lineEnd, if rest.head? == some '\n' then 1 else 0)
  else if c == '\n' then (.lineEnd, 0)
  else if c == '@' then (.tag, 0)
  else if c == '*' then (.star, 0)
  else if c == '\x60' then (.backtick, 0)
  else if isNameStart c then
    (.name, (rest.takeWhile fun d => isNameChar d || d == '-').length)
  else (.other, 0)

/-- The number of characters of running text: up to the end of the line, a backtick, and, outside
backticks, a brace or an at sign between a blank and a character that is none. -/
def textLength (quoted : Bool) (previous : Char) : List Char → Nat
  | [] => 0
  | c :: rest =>
    if Position.isLineBreak c || c == '\x60' then 0
    else if !quoted && (c == '\x7b' ||
        (c == '@' && isInlineBlank previous && !(rest.head?.map Text.isBlank).getD false)) then 0
    else 1 + textLength quoted c rest

/-! ## Comments of tags -/

/-- Where on its line the reading of a comment stands. -/
inductive LineState where
  | lineStart
  | behindStar
  | text
  | quotedText
  deriving DecidableEq

/-- The state of reading the comment of a tag. -/
structure CommentReader where
  state : LineState
  /-- the column in which the comment begins, once it has begun -/
  margin : Option Nat
  indent : Nat
  /-- what was read, in pieces, the last one first -/
  pieces : List (List Char)

namespace CommentReader

/-- Takes a piece of the comment. -/
def push (r : CommentReader) (state : LineState) (piece : List Char) : CommentReader where
  state := state
  margin := match r.margin with
    | none => some r.indent
    | some 0 => some r.indent
    | m => m
  indent := r.indent + piece.length
  pieces := piece :: r.pieces

/-- The state behind a piece of text. -/
def textState (r : CommentReader) : LineState :=
  if r.state = .quotedText then .quotedText else .text

/-- Takes blanks: those beyond the margin belong to the comment. -/
def blanks (r : CommentReader) (cs : List Char) : CommentReader :=
  match r.margin with
  | none => { r with indent := r.indent + cs.length }
  | some margin =>
    if margin < r.indent + cs.length then
      let kept :=
        if r.indent ≤ margin then cs.drop (margin - r.indent)
        else cs.drop (cs.length - (r.indent - margin))
      { r with state := .text, indent := r.indent + cs.length, pieces := kept :: r.pieces }
    else { r with indent := r.indent + cs.length }

/-- Takes a token other than the mark of a tag. -/
def step (r : CommentReader) (mark : Mark) (cs : List Char) : CommentReader :=
  match mark with
  | .lineEnd => { r with state := .lineStart, indent := 0, pieces := cs :: r.pieces }
  | .blanks => r.blanks cs
  | .star =>
    if r.state = .lineStart then { r with state := .behindStar, indent := r.indent + 1 }
    else r.push r.textState cs
  | .backtick => r.push (if r.state = .quotedText then .text else .quotedText) cs
  | _ => r.push r.textState cs

/-- The comment without line ends in front and blanks behind. -/
def finish (r : CommentReader) : String :=
  let pieces := r.pieces.reverse.dropWhile fun p => p == ['\n'] || p == ['\r']
  String.ofList (Text.trimEnd pieces.flatten)

end CommentReader

/-- The comment of a tag and what follows it. -/
def comment (r : CommentReader) (previous : Char) (cs : List Char) :
    CommentReader × Char × List Char :=
  match cs with
  | [] => (r, previous, [])
  | c :: rest =>
    let n :=
      if r.state = .text ∨ r.state = .quotedText then
        textLength (r.state = .quotedText) previous (c :: rest)
      else 0
    match n with
    | 0 =>
      let (mark, k) := measure c rest
      if mark = .tag then (r, previous, c :: rest)
      else
        let token := c :: rest.take k
        comment (r.step mark token) (token.getLast?.getD c) (rest.drop k)
    | k + 1 =>
      let token := c :: rest.take k
      comment (r.push r.textState token) (token.getLast?.getD c) (rest.drop k)
  termination_by cs.length
  decreasing_by all_goals (simp only [List.length_cons, List.length_drop]; omega)

/-- Drops the blanks, line ends and stars at line starts in front of a text. The result tells the
blanks of the last line, its star included, when a line has ended. -/
def skipFrame (lineEnded behindBreak : Bool) (indent : List Char) (cs : List Char) :
    List Char × List Char :=
  match cs with
  | [] => (if lineEnded then indent else [], [])
  | c :: rest =>
    let (mark, k) := measure c rest
    let token := c :: rest.take k
    match mark with
    | .lineEnd => skipFrame true true [] (rest.drop k)
    | .blanks => skipFrame lineEnded behindBreak (indent ++ token) (rest.drop k)
    | .star =>
      if behindBreak then skipFrame lineEnded false (indent ++ token) (rest.drop k)
      else (if lineEnded then indent else [], c :: rest)
    | _ => (if lineEnded then indent else [], c :: rest)
  termination_by cs.length
  decreasing_by all_goals (simp only [List.length_cons, List.length_drop]; omega)

theorem length_skipFrame (lineEnded behindBreak : Bool) (indent cs : List Char) :
    (skipFrame lineEnded behindBreak indent cs).2.length ≤ cs.length := by
  fun_induction skipFrame lineEnded behindBreak indent cs <;>
    simp_all only [List.length_cons, List.length_drop, Nat.le_refl] <;> omega

theorem length_comment (r : CommentReader) (previous : Char) (cs : List Char) :
    (comment r previous cs).2.2.length ≤ cs.length := by
  fun_induction comment r previous cs <;>
    simp_all only [List.length_cons, List.length_drop, Nat.le_refl] <;> omega

/-! ## Tags -/

/-- A tag with its comment. -/
structure Tag where
  name : String
  comment : String
  deriving DecidableEq

/-- The name at the front of a text. -/
def tagName : List Char → List Char
  | [] => []
  | c :: rest => if isNameStart c then c :: rest.take (measure c rest).2 else []

/-- What stands behind the name of a tag, without the frame of the comment. The result tells the
blanks of the last line of the frame. -/
def dropFrame (cs : List Char) : List Char × List Char :=
  if cs.all Text.isBlank then ([], cs) else skipFrame false false [] cs

theorem length_dropFrame (cs : List Char) : (dropFrame cs).2.length ≤ cs.length := by
  unfold dropFrame
  split
  · exact Nat.le_refl _
  · exact length_skipFrame ..

/-- A tag whose name stands in front of a text, and what follows its comment. `indent` is the column
of its at sign. -/
def takeTag (indent : Nat) (cs : List Char) : Tag × Char × List Char :=
  let name := tagName cs
  let behind := cs.drop name.length
  let frame := dropFrame behind
  let skipped := 1 + name.length + (behind.length - frame.2.length)
  let margin := if frame.1.isEmpty then indent + skipped else indent
  let start : CommentReader := ⟨.behindStar, none, margin, []⟩
  let start :=
    if frame.1.length ≤ margin then start
    else start.push .behindStar (frame.1.drop margin)
  let r := comment start ' ' frame.2
  (⟨String.ofList name, r.1.finish⟩, r.2)

theorem length_takeTag (indent : Nat) (cs : List Char) :
    (takeTag indent cs).2.2.length ≤ cs.length := by
  refine Nat.le_trans (length_comment _ _ _) (Nat.le_trans (length_dropFrame _) ?_)
  simp

/-- The tags of a text, which begins at some place of a line. -/
def tagsFrom (state : LineState) (indent : Nat) (previous : Char) (cs : List Char) : List Tag :=
  match cs with
  | [] => []
  | c :: rest =>
    match if state = .text then textLength false previous (c :: rest) else 0 with
    | k + 1 => tagsFrom .text (indent + k + 1) ((rest.take k).getLast?.getD c) (rest.drop k)
    | 0 =>
      let (mark, k) := measure c rest
      let last := (rest.take k).getLast?.getD c
      match mark with
      | .tag =>
        have := length_takeTag indent rest
        let r := takeTag indent rest
        r.1 :: tagsFrom .lineStart indent r.2.1 r.2.2
      | .lineEnd => tagsFrom .lineStart 0 last (rest.drop k)
      | .blanks => tagsFrom state (indent + k + 1) last (rest.drop k)
      | .star =>
        tagsFrom (if state = .lineStart then .behindStar else .text) (indent + 1) last
          (rest.drop k)
      | _ => tagsFrom .text (indent + k + 1) last (rest.drop k)
  termination_by cs.length
  decreasing_by all_goals (simp only [List.length_cons, List.length_drop]; omega)

/-- The tags of a documentation comment. The star of its opening mark counts as the star of its
first line. -/
def tags (d : DocComment) : List Tag :=
  tagsFrom .behindStar d.indent '*' (d.body.dropWhile isInlineBlank)

end DocComment

end Metamodel.Source

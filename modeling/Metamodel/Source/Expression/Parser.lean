import Metamodel.Source.Expression.Basic
import Metamodel.Source.TypeExpr.Parser

/-!
# Reading written expressions

`Expression.operandFrom` reads an operand with what is called on it or taken from it;
`Expression.skip` finds where an expression ends. An expression is what its operand is when the
operand reaches to the end, and unknown otherwise.

An expression ends at a comma, a semicolon or a closing bracket, and at a line end behind which no
operator follows. A function with a body in braces ends with its body.
-/

namespace Metamodel.Source

namespace Expression

/-- The words that stand in front of an operand. -/
def operators : List String :=
  ["typeof", "void", "delete", "await", "yield"]

/-- The words that stand between two operands. -/
def connectives : List String := ["in", "instanceof"]

/-- The type arguments of a call: type arguments behind which a call or the end of the operand
stands. -/
def callArguments? (ts : List Token) : Option (List TypeExpr × List Token) := do
  let (args, rest) ← TypeExpr.parseArguments? ts
  match rest with
  | [] => pure (args, rest)
  | t :: _ =>
    if t.isMark "(" || t.kind == .template || t.startsLine then pure (args, rest)
    else if t.kind == .mark && !t.isMark "<" && !t.isMark ">" && !t.isMark "+" && !t.isMark "-" &&
        !t.isMark "[" && !t.isMark "\x7b" && !t.isMark "!" && !t.isMark "~" then
      pure (args, rest)
    else if t.isOneOf (connectives ++ ["as", "satisfies", "implements"]) then pure (args, rest)
    else none

/-! ## Functions and classes -/

/-- The tokens behind the first group in braces. -/
def behindBody : List Token → List Token
  | [] => []
  | t :: ts => if t.isMark "\x7b" then (splitClosing 0 ts).2 else behindBody ts

/-- The tokens behind type parameters, if there are any. -/
def behindParameters (ts : List Token) : List Token :=
  ((TypeParameter.parse? ts).map (·.2)).getD ts

/-- The tokens behind the parameters, the result type and the body of a function. -/
def behindFunction (ts : List Token) : List Token :=
  match bracketed? "(" (behindParameters ts) with
  | none => ts
  | some (_, rest) =>
    let rest := match TypeExpr.behindMark? ":" rest with
      | some behind => ((TypeExpr.parseResult? behind).map (·.2)).getD behind
      | none => rest
    ((bracketed? "\x7b" rest).map (·.2)).getD rest

/-- The tokens behind the word that begins a function: its name, if it has one, and the rest. -/
def behindFunctionWord (ts : List Token) : List Token :=
  let ts := (TypeExpr.behindMark? "*" ts).getD ts
  behindFunction (match ts with
    | t :: rest => if t.kind == .word then rest else ts
    | [] => [])

/-- The tokens behind the arrow of a function whose parameters stand in front of some tokens. -/
def behindArrow? (ts : List Token) : Option (List Token) := do
  let ts ← match TypeExpr.behindMark? "<" ts with
    | some _ => (TypeParameter.parse? ts).map (·.2)
    | none => some ts
  let (_, rest) ← bracketed? "(" ts
  match TypeExpr.behindMark? "=>" rest with
  | some behind => pure behind
  | none =>
    let (_, rest) ← TypeExpr.parseResult? (← TypeExpr.behindMark? ":" rest)
    TypeExpr.behindMark? "=>" rest

/-! ## Ends of expressions -/

/-- Where the search for the end of an expression stands. -/
inductive Place where
  /-- an operand is expected -/
  | operand
  /-- a name behind a point is expected -/
  | name
  /-- an operand has ended -/
  | behind
  deriving DecidableEq

/-- The tokens behind an expression; `choices` is the number of open conditional operators. -/
def endFrom : Nat → Place → Nat → List Token → List Token
  | 0, _, _, ts => ts
  | _, _, _, [] => []
  | n + 1, .name, choices, t :: ts =>
    if t.kind == .word || t.kind == .privateName then endFrom n .behind choices ts
    else endFrom n .operand choices (t :: ts)
  | n + 1, .operand, choices, t :: ts =>
    match if choices == 0 then behindArrow? (t :: ts) else none with
    | some rest =>
      match bracketed? "\x7b" rest with
      | some (_, rest) => rest
      | none => endFrom n .operand choices rest
    | none =>
      if t.kind == .mark then
        if t.opens then endFrom n .behind choices (splitClosing 0 ts).2
        else if t.isMark "<" then
          endFrom n .operand choices
            (((TypeExpr.parseArguments? (t :: ts)).map (·.2)).getD ts)
        else if t.isMark ";" || t.isMark "," || t.isMark ":" || t.closes then t :: ts
        else endFrom n .operand choices ts
      else if t.isWord "function" then endFrom n .behind choices (behindFunctionWord ts)
      else if t.isWord "class" then endFrom n .behind choices (behindBody ts)
      else if t.isOneOf operators || t.isWord "new" then endFrom n .operand choices ts
      else if t.isWord "async" then
        match ts with
        | u :: rest =>
          if u.isWord "function" then endFrom n .behind choices (behindFunctionWord rest)
          else if (behindArrow? (u :: rest)).isSome then endFrom n .operand choices (u :: rest)
          else endFrom n .behind choices (u :: rest)
        | [] => []
      else endFrom n .behind choices ts
  | n + 1, .behind, choices, t :: ts =>
    if t.kind == .template then endFrom n .behind choices ts
    else if t.kind == .mark then
      if t.isMark ";" || t.isMark "," || t.closes || t.isMark "@" then t :: ts
      else if t.isMark "." || t.isMark "?." then endFrom n .name choices ts
      else if t.isMark "(" || t.isMark "[" then endFrom n .behind choices (splitClosing 0 ts).2
      else if t.isMark "\x7b" then t :: ts
      else if t.isMark "=>" then
        match bracketed? "\x7b" ts with
        | some (_, rest) => rest
        | none => endFrom n .operand choices ts
      else if t.isMark "!" || t.isMark "++" || t.isMark "--" then
        if t.startsLine then t :: ts else endFrom n .behind choices ts
      else if t.isMark "<" then
        match callArguments? (t :: ts) with
        | some (_, rest) => endFrom n .behind choices rest
        | none => endFrom n .operand choices ts
      else if t.isMark "?" then endFrom n .operand (choices + 1) ts
      else if t.isMark ":" then
        match choices with
        | 0 => t :: ts
        | k + 1 => endFrom n .operand k ts
      else endFrom n .operand choices ts
    else if t.isOneOf connectives then endFrom n .operand choices ts
    else if (t.isWord "as" || t.isWord "satisfies") && !t.startsLine then
      match TypeExpr.parse? ts with
      | some (_, rest) => endFrom n .behind choices rest
      | none => endFrom n .behind choices (ts.drop 1)
    else if t.isWord "async" || t.kind == .word then
      match ts with
      | u :: rest =>
        if u.isMark "=>" && !t.startsLine then endFrom n .behind choices (u :: rest)
        else t :: ts
      | [] => [t]
    else t :: ts

/-- The tokens behind the expression in front of some tokens. -/
def skip (ts : List Token) : List Token :=
  endFrom (2 * ts.length + 2) .operand 0 ts

/-! ## Operands -/

/-- What a word on its own is. -/
def ofWord (name : String) : Expression :=
  match name with
  | "true" => .boolean true
  | "false" => .boolean false
  | "null" => .null
  | "this" | "super" => .other
  | _ => .word name

/-- The key and the value of a member of an object that is written as both. -/
def fieldFrom? : List Token → Option (String × List Token)
  | t :: u :: rest =>
    if !u.isMark ":" then none
    else if t.kind == .word then some (t.text, rest)
    else if t.kind == .string then some (textValue t.text, rest)
    else none
  | _ => none

/-- An expression with the types that the tokens behind it give it. -/
def castsFrom : Nat → Expression → List Token → Expression
  | _, e, [] => e
  | 0, _, _ => .other
  | n + 1, e, t :: ts =>
    if t.isWord "as" && (ts.head?.map (·.isWord "const")).getD false then
      castsFrom n (.constant e) (ts.drop 1)
    else if t.isOneOf ["as", "satisfies"] then
      match TypeExpr.parse? ts with
      | some (type, rest) => castsFrom n (if t.isWord "as" then .cast type else .checked e) rest
      | none => .other
    else .other

mutual

/-- The operand in front of some tokens and the tokens behind it. Elements in square brackets are
not taken from an operand where `bare` is set. -/
def operandFrom : Nat → Bool → List Token → Expression × List Token
  | 0, _, ts => (.other, ts)
  | _, _, [] => (.other, [])
  | n + 1, bare, t :: ts =>
    let (e, rest) := simpleFrom n t ts
    suffixesFrom n bare (t :: ts) e rest

/-- The operand in front of some tokens without what stands behind it. -/
def simpleFrom : Nat → Token → List Token → Expression × List Token
  | 0, _, ts => (.other, ts)
  | n + 1, t, ts =>
    match t.kind with
    | .string => (.text (textValue t.text), ts)
    | .template =>
      (if holdsExpression t.text.toList then .template else .text (textValue t.text), ts)
    | .number => (.number (numberValue t.text), ts)
    | .bigNumber => (.bigint, ts)
    | .regex => (.regex, ts)
    | .privateName => (.other, ts)
    | .mark =>
      if t.isMark "(" then
        let (inside, rest) := splitClosing 0 ts
        (.parenthesized (wholeFrom n inside), rest)
      else if t.isMark "[" then
        let (inside, rest) := splitClosing 0 ts
        (.array ((splitCommas 0 inside).filterMap fun part =>
          if part.isEmpty then none else some (wholeFrom n part)), rest)
      else if t.isMark "\x7b" then
        let (inside, rest) := splitClosing 0 ts
        (.object ((splitCommas 0 inside).filterMap fieldFrom? |>.map fun f =>
          (f.1, wholeFrom n f.2)), rest)
      else (.other, ts)
    | .word =>
      if t.isWord "new" then
        match ts with
        | u :: rest =>
          if u.kind != .word then (.other, ts)
          else
            let (callee, rest) := membersFrom n (ofWord u.text) [u] rest
            let (args, rest) := (callArguments? rest).getD ([], rest)
            (.construct callee args, ((bracketed? "(" rest).map (·.2)).getD rest)
        | [] => (.other, [])
      else if t.isWord "function" then (.other, behindFunctionWord ts)
      else if t.isWord "class" then (.other, behindBody ts)
      else (ofWord t.text, ts)

/-- The members behind an operand; `read` are the tokens of the operand. -/
def membersFrom : Nat → Expression → List Token → List Token → Expression × List Token
  | 0, e, _, ts => (e, ts)
  | n + 1, e, read, ts =>
    match ts with
    | t :: u :: rest =>
      if (t.isMark "." || t.isMark "?.") && (u.kind == .word || u.kind == .privateName) then
        let read := read ++ [t, u]
        membersFrom n (.member e u.text (writtenText read)) read rest
      else (e, ts)
    | _ => (e, ts)

/-- An operand with what stands behind it; `all` are the tokens from the first of the operand on. -/
def suffixesFrom : Nat → Bool → List Token → Expression → List Token → Expression × List Token
  | 0, _, _, e, ts => (e, ts)
  | n + 1, bare, all, e, ts =>
    match ts with
    | [] => (e, [])
    | t :: rest =>
      let read := all.take (all.length - ts.length)
      if t.isMark "." || t.isMark "?." then
        match rest with
        | u :: behind =>
          if u.kind == .word || u.kind == .privateName then
            suffixesFrom n bare all (.member e u.text (writtenText (read ++ [t, u]))) behind
          else (e, ts)
        | [] => (e, ts)
      else if t.isMark "(" then
        let (inside, rest) := splitClosing 0 rest
        let args := (splitCommas 0 inside).filterMap fun part =>
          if part.isEmpty then none else some (wholeFrom n part)
        suffixesFrom n bare all (.call e args) rest
      else if t.isMark "[" && !bare then
        suffixesFrom n bare all .other (splitClosing 0 rest).2
      else if t.kind == .template then suffixesFrom n bare all .other rest
      else if t.isMark "!" && !t.startsLine then suffixesFrom n bare all .other rest
      else if t.isMark "<" then
        match callArguments? ts with
        | some (_, behind) =>
          if (behind.head?.map (·.isMark "(")).getD false then suffixesFrom n bare all e behind
          else (e, ts)
        | none => (e, ts)
      else (e, ts)

/-- The expression that some tokens are. -/
def wholeFrom : Nat → List Token → Expression
  | 0, _ => .other
  | _, [] => .other
  | n + 1, t :: ts =>
    if t.isMark "-" then
      let (e, rest) := operandFrom n false ts
      castsFrom rest.length (.negative e) rest
    else if t.isMark "<" then
      if (ts.head?.map (·.isWord "const")).getD false then .constant (wholeFrom n (ts.drop 2))
      else
        match TypeExpr.parseArguments? (t :: ts) with
        | some ([type], rest) => if rest.isEmpty then .other else .cast type
        | _ => .other
    else
      let (e, rest) := operandFrom n false (t :: ts)
      castsFrom rest.length e rest

end

/-- A number of nested calls that suffices for some tokens. -/
def budget (ts : List Token) : Nat :=
  4 * (ts.length + 1)

/-- The expression in front of some tokens, and the tokens behind it. -/
def parse (ts : List Token) : Expression × List Token :=
  let rest := skip ts
  (wholeFrom (budget ts) (ts.take (ts.length - rest.length)), rest)

/-- The operand in front of some tokens with its source text, and the tokens behind it. -/
def parseOperand (bare : Bool) (ts : List Token) : Expression × String × List Token :=
  let (e, rest) := operandFrom (budget ts) bare ts
  (e, writtenText (ts.take (ts.length - rest.length)), rest)

end Expression

end Metamodel.Source

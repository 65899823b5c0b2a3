import Metamodel.Source.Literal
import Metamodel.Source.TypeExpr.Basic

/-!
# Reading written types

Each reader takes a type, or a list of them, from the front of some tokens and gives the tokens
behind it; it fails where the tokens are no type. The readers call each other with a budget of
nested calls. `TypeExpr.parse?`, `TypeExpr.parseResult?`, `TypeExpr.parseArguments?` and
`TypeParameter.parse?` start them with one that the number of tokens bounds.
-/

namespace Metamodel.Source

/-- The tokens of a dotted name behind its first word. -/
def dottedTail : List Token → List Token
  | t :: u :: rest =>
    if t.isMark "." && (u.kind == .word || u.kind == .privateName) then t :: u :: dottedTail rest
    else []
  | _ => []

/-- The words of a dotted name. -/
def dottedWords (ts : List Token) : List String :=
  (ts.filter fun t => !t.isMark ".").map (·.text)

namespace TypeExpr

/-- The types that keywords name. -/
def keywords : List String :=
  ["any", "unknown", "string", "number", "bigint", "symbol", "boolean", "undefined", "never",
    "object", "void"]

/-- The words that cannot name a type. -/
def reserved : List String :=
  ["function", "class", "if", "else", "for", "while", "do", "return", "switch", "case", "default",
    "break", "continue", "throw", "try", "catch", "finally", "var", "const", "enum", "export",
    "extends", "in", "instanceof", "delete", "debugger", "super", "with", "new"]

/-- Whether the tokens begin with the parameters of a function type. -/
def startsFunction (ts : List Token) : Bool :=
  match bracketed? "(" ts with
  | some (_, t :: _) => t.isMark "=>"
  | _ => false

/-- The tokens behind a first token that is the given mark. -/
def behindMark? (mark : String) : List Token → Option (List Token)
  | t :: rest => if t.isMark mark then some rest else none
  | [] => none

mutual

/-- A type: a function, a conditional type or a union. -/
def typeFrom : Nat → List Token → Option (TypeExpr × List Token)
  | 0, _ => none
  | _, [] => none
  | n + 1, t :: ts =>
    if t.isMark "<" || t.isWord "new" || startsFunction (t :: ts) ||
        (t.isWord "abstract" && (ts.head?.map (·.isWord "new")).getD false) then
      functionFrom n (t :: ts)
    else do
      let (e, rest) ← unionFrom n (t :: ts)
      match rest with
      | u :: behind =>
        if u.isWord "extends" && !u.startsLine then
          let (_, behind) ← typeFrom n behind
          let (_, behind) ← typeFrom n (← behindMark? "?" behind)
          let (_, behind) ← typeFrom n (← behindMark? ":" behind)
          pure (.other, behind)
        else pure (e, rest)
      | [] => pure (e, [])

/-- The type of a function or a constructor. -/
def functionFrom : Nat → List Token → Option (TypeExpr × List Token)
  | 0, _ => none
  | n + 1, ts => do
    let ts := ts.dropWhile fun t => t.isWord "abstract" || t.isWord "new"
    let ts ← match behindMark? "<" ts with
      | some behind => (parametersFrom n behind).map (·.2)
      | none => some ts
    let (_, ts) ← bracketed? "(" ts
    let (_, ts) ← resultFrom n (← behindMark? "=>" ts)
    pure (.other, ts)

/-- The result type of a function, which may be a test of an argument. -/
def resultFrom : Nat → List Token → Option (TypeExpr × List Token)
  | 0, _ => none
  | n + 1, t :: u :: rest =>
    if t.kind == .word && u.isWord "is" && !u.startsLine then
      (typeFrom n rest).map fun r => (.test, r.2)
    else if t.isWord "asserts" && u.kind == .word && !u.startsLine && !u.isWord "is" then
      match rest with
      | v :: behind =>
        if v.isWord "is" && !v.startsLine then (typeFrom n behind).map fun r => (.assertion, r.2)
        else some (.assertion, rest)
      | [] => some (.assertion, [])
    else typeFrom n (t :: u :: rest)
  | n + 1, ts => typeFrom n ts

/-- A union, or its only member when no bar is written. -/
def unionFrom : Nat → List Token → Option (TypeExpr × List Token)
  | 0, _ => none
  | n + 1, ts => do
    let bar := behindMark? "|" ts
    let (e, rest) ← intersectionFrom n (bar.getD ts)
    let (es, rest) ← membersFrom n rest
    pure (if bar.isSome || !es.isEmpty then .union (e :: es) else e, rest)

/-- The further members of a union. -/
def membersFrom : Nat → List Token → Option (List TypeExpr × List Token)
  | 0, _ => none
  | n + 1, ts =>
    match behindMark? "|" ts with
    | some behind => do
      let (e, rest) ← intersectionFrom n behind
      let (es, rest) ← membersFrom n rest
      pure (e :: es, rest)
    | none => some ([], ts)

/-- An intersection, or its only member when no sign is written. -/
def intersectionFrom : Nat → List Token → Option (TypeExpr × List Token)
  | 0, _ => none
  | n + 1, ts => do
    let sign := behindMark? "&" ts
    let (e, rest) ← operatorFrom n (sign.getD ts)
    let (es, rest) ← partsFrom n rest
    pure (if sign.isSome || !es.isEmpty then .intersection (e :: es) else e, rest)

/-- The further members of an intersection. -/
def partsFrom : Nat → List Token → Option (List TypeExpr × List Token)
  | 0, _ => none
  | n + 1, ts =>
    match behindMark? "&" ts with
    | some behind => do
      let (e, rest) ← operatorFrom n behind
      let (es, rest) ← partsFrom n rest
      pure (e :: es, rest)
    | none => some ([], ts)

/-- A type with operators in front of it. -/
def operatorFrom : Nat → List Token → Option (TypeExpr × List Token)
  | 0, _ => none
  | _, [] => none
  | n + 1, t :: ts =>
    if t.isWord "readonly" then (operatorFrom n ts).map fun r => (.readonly r.1, r.2)
    else if t.isOneOf ["keyof", "unique", "infer"] then
      (operatorFrom n ts).map fun r => (.other, r.2)
    else do
      let (e, rest) ← primaryFrom n (t :: ts)
      suffixFrom n e rest

/-- A type with brackets behind it. -/
def suffixFrom : Nat → TypeExpr → List Token → Option (TypeExpr × List Token)
  | 0, _, _ => none
  | n + 1, e, ts =>
    match ts with
    | t :: _ =>
      if t.startsLine then some (e, ts)
      else
        match bracketed? "[" ts with
        | some ([], rest) => suffixFrom n (.array e) rest
        | some (_, rest) => suffixFrom n .other rest
        | none => some (e, ts)
    | [] => some (e, [])

/-- A type without operators. -/
def primaryFrom : Nat → List Token → Option (TypeExpr × List Token)
  | 0, _ => none
  | _, [] => none
  | n + 1, t :: ts =>
    match t.kind with
    | .string | .template => some (.literal .string t.text, ts)
    | .number => some (.literal .number t.text, ts)
    | .bigNumber => some (.literal .bigint t.text, ts)
    | .mark =>
      if t.isMark "-" then
        match ts with
        | u :: rest =>
          if u.kind == .number then some (.literal .number ("-" ++ u.text), rest)
          else if u.kind == .bigNumber then some (.literal .bigint ("-" ++ u.text), rest)
          else none
        | [] => none
      else if t.isMark "(" then
        let (inside, rest) := splitClosing 0 ts
        match typeFrom n inside with
        | some (e, []) => some (.parenthesized e, rest)
        | _ => none
      else if t.isMark "[" || t.isMark "\x7b" then some (.other, (splitClosing 0 ts).2)
      else none
    | .word => wordFrom n t ts
    | _ => none

/-- A type that begins with a word. -/
def wordFrom : Nat → Token → List Token → Option (TypeExpr × List Token)
  | 0, _, _ => none
  | n + 1, t, ts =>
    let dotted := (behindMark? "." ts).isSome
    if t.isWord "true" || t.isWord "false" then some (.literal .boolean t.text, ts)
    else if t.isWord "null" then some (.null, ts)
    else if t.isWord "this" then
      match ts with
      | u :: rest =>
        if u.isWord "is" && !u.startsLine then (typeFrom n rest).map fun r => (.test, r.2)
        else some (.other, ts)
      | [] => some (.other, [])
    else if t.isWord "typeof" then
      match ts with
      | u :: rest =>
        if u.kind != .word then none
        else if u.isWord "import" then
          (bracketed? "(" rest).bind fun r =>
            (argumentsFrom? n (r.2.drop (dottedTail r.2).length)).map fun r => (.other, r.2)
        else
          let tail := dottedTail rest
          (argumentsFrom? n (rest.drop tail.length)).map fun r =>
            (.typeOf (dottedWords (u :: tail)), r.2)
      | [] => none
    else if t.isWord "import" then
      match bracketed? "(" ts with
      | some (u :: _, rest) =>
        let tail := dottedTail rest
        (argumentsFrom? n (rest.drop tail.length)).map fun r =>
          (.imported (textValue u.text) (dottedWords tail) r.1, r.2)
      | _ => none
    else if keywords.contains t.text && !dotted then some (.keyword t.text, ts)
    else if reserved.contains t.text then none
    else
      let tail := dottedTail ts
      (argumentsFrom? n (ts.drop tail.length)).map fun r =>
        (.reference (dottedWords (t :: tail)) (writtenText (t :: tail)) r.1, r.2)

/-- The type arguments on the same line, or none. -/
def argumentsFrom? : Nat → List Token → Option (List TypeExpr × List Token)
  | 0, _ => none
  | n + 1, ts =>
    match ts with
    | t :: rest => if t.isMark "<" && !t.startsLine then argumentsFrom n rest else some ([], ts)
    | [] => some ([], [])

/-- The type arguments behind an opening mark. -/
def argumentsFrom : Nat → List Token → Option (List TypeExpr × List Token)
  | 0, _ => none
  | n + 1, ts => do
    let (e, rest) ← typeFrom n ts
    match behindMark? ">" rest with
    | some behind => pure ([e], behind)
    | none => do
      let (es, rest) ← argumentsFrom n (← behindMark? "," rest)
      pure (e :: es, rest)

/-- The type parameters behind an opening mark. -/
def parametersFrom : Nat → List Token → Option (List TypeParameter × List Token)
  | 0, _ => none
  | _, [] => none
  | n + 1, t :: ts =>
    if t.isMark ">" then some ([], ts)
    else if t.isMark "," then parametersFrom n ts
    else if t.kind != .word then none
    else if t.isOneOf ["const", "in", "out"] && (ts.head?.map (·.kind == .word)).getD false then
      parametersFrom n ts
    else do
      let rest ← match ts with
        | u :: behind =>
          if u.isWord "extends" then (typeFrom n behind).map (·.2) else some ts
        | [] => some []
      let (given, rest) ← match behindMark? "=" rest with
        | some behind => (typeFrom n behind).map fun r => (some r.1, r.2)
        | none => some (none, rest)
      let (ps, rest) ← parametersFrom n rest
      pure (⟨t.text, given⟩ :: ps, rest)

end

/-- A number of nested calls that suffices for some tokens. -/
def budget (ts : List Token) : Nat :=
  12 * (ts.length + 1)

/-- The type in front of some tokens and the tokens behind it. -/
def parse? (ts : List Token) : Option (TypeExpr × List Token) :=
  typeFrom (budget ts) ts

/-- The result type of a function in front of some tokens and the tokens behind it. -/
def parseResult? (ts : List Token) : Option (TypeExpr × List Token) :=
  resultFrom (budget ts) ts

/-- The type arguments whose opening mark is the first token, and the tokens behind them. -/
def parseArguments? (ts : List Token) : Option (List TypeExpr × List Token) :=
  (behindMark? "<" ts).bind fun rest => argumentsFrom (budget ts) rest

end TypeExpr

/-- The type parameters in front of some tokens, if there are any, and the tokens behind them. -/
def TypeParameter.parse? (ts : List Token) : Option (List TypeParameter × List Token) :=
  match TypeExpr.behindMark? "<" ts with
  | some rest => TypeExpr.parametersFrom (TypeExpr.budget ts) rest
  | none => some ([], ts)

end Metamodel.Source

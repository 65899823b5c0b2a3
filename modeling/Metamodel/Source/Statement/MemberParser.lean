import Metamodel.Decimal.Text
import Metamodel.Source.Expression.Parser
import Metamodel.Source.Statement.Basic

/-!
# Reading heads and members

A head is made of decorators and modifiers; a word is a modifier only where the token behind it can
follow one. Members stand one behind the other, with semicolons or commas or line ends between
them.
-/

namespace Metamodel.Source

/-! ## Heads -/

/-- The words that modify members and parameters. -/
def modifierWords : List String :=
  ["public", "private", "protected", "static", "readonly", "abstract", "override", "declare",
    "async", "accessor"]

/-- Whether a token can stand behind a modifier. -/
def Token.followsModifier (t : Token) : Bool :=
  match t.kind with
  | .word | .privateName | .string | .number | .bigNumber => true
  | .mark => t.isMark "[" || t.isMark "\x7b" || t.isMark "*" || t.isMark "..."
  | _ => false

/-- Whether a token in front of others modifies a member, behind some modifiers. The word `static`
in front of a brace begins a block. -/
def modifiesMember (seen : List String) (t : Token) (ts : List Token) : Bool :=
  t.isOneOf modifierWords &&
    match ts with
    | [] => false
    | u :: _ =>
      u.followsModifier &&
        (if t.isWord "static" then !seen.contains "static" && !u.isMark "\x7b"
          else !u.startsLine)

namespace Head

/-- The decorators and the modifiers in front of some tokens, and the tokens behind them. -/
def partsFrom (modifies : List String → Token → List Token → Bool) :
    Nat → List Expression → List String → List Token →
      List Expression × List String × List Token
  | 0, decorators, modifiers, ts => (decorators, modifiers, ts)
  | _, decorators, modifiers, [] => (decorators, modifiers, [])
  | n + 1, decorators, modifiers, t :: ts =>
    if t.isMark "@" then
      let (e, _, rest) := Expression.parseOperand true ts
      partsFrom modifies n (decorators ++ [e]) modifiers rest
    else if modifies modifiers t ts then
      partsFrom modifies n decorators (modifiers ++ [t.text]) ts
    else (decorators, modifiers, t :: ts)

/-- The head in front of some tokens and the tokens behind it. -/
def parse (modifies : List String → Token → List Token → Bool) (inline : Bool)
    (ts : List Token) : Head × List Token :=
  let (decorators, modifiers, rest) := partsFrom modifies ts.length [] [] ts
  (⟨(ts.head?.map (·.position)).getD .start, decorators, modifiers,
    (((ts.head?.bind (·.doc? inline)).map DocComment.tags).getD [])⟩, rest)

end Head

/-! ## Parts of members -/

/-- The type behind a colon, if there is one. -/
def takeType (ts : List Token) : Option TypeExpr × List Token :=
  match (TypeExpr.behindMark? ":" ts).bind TypeExpr.parse? with
  | some (type, rest) => (some type, rest)
  | none => (none, ts)

/-- The result type behind a colon, if there is one. -/
def takeResult (ts : List Token) : Option TypeExpr × List Token :=
  match (TypeExpr.behindMark? ":" ts).bind TypeExpr.parseResult? with
  | some (type, rest) => (some type, rest)
  | none => (none, ts)

/-- The expression behind an equals sign, if there is one. -/
def takeValue (ts : List Token) : Option Expression × List Token :=
  match TypeExpr.behindMark? "=" ts with
  | some rest =>
    let (e, rest) := Expression.parse rest
    (some e, rest)
  | none => (none, ts)

/-- Whether a mark stands in front, and the tokens behind it. -/
def takeMark (mark : String) (ts : List Token) : Bool × List Token :=
  match TypeExpr.behindMark? mark ts with
  | some rest => (true, rest)
  | none => (false, ts)

/-- The name of a member in front of some tokens. -/
def MemberName.parse? : List Token → Option (MemberName × List Token)
  | [] => none
  | t :: ts =>
    match t.kind with
    | .word => some (.plain t.text, ts)
    | .privateName => some (.private t.text, ts)
    | .string => some (.plain (textValue t.text), ts)
    | .number => some (.plain (numberValue t.text).text, ts)
    | .bigNumber => some (.pattern t.text, ts)
    | .mark => if t.isMark "[" then some (.computed, (splitClosing 0 ts).2) else none
    | _ => none

/-- The name of a parameter or a variable in front of some tokens. -/
def MemberName.parseBinding? : List Token → Option (MemberName × List Token)
  | [] => none
  | t :: ts =>
    if t.kind == .word then some (.plain t.text, ts)
    else if t.isMark "[" || t.isMark "\x7b" then
      let rest := (splitClosing 0 ts).2
      some (.pattern (writtenText (t :: ts.take (ts.length - rest.length))), rest)
    else none

/-- What some tokens, the body of a function, tell about its result. -/
def Body.ofTokens : List Token → Body
  | t :: u :: rest =>
    if t.isWord "return" && !u.startsLine && !u.isMark ";" && !u.closes then .yielding
    else ofTokens (u :: rest)
  | _ => .silent

/-! ## Parameters -/

/-- The parameter in front of some tokens and the tokens behind it. -/
def Parameter.parse? (ts : List Token) : Option (Parameter × List Token) := do
  let (head, rest) := Head.parse modifiesMember true ts
  let (_, rest) := takeMark "..." rest
  let (name, rest) ← MemberName.parseBinding? rest
  let (optional, rest) := takeMark "?" rest
  let (type, rest) := takeType rest
  let (value, rest) := takeValue rest
  pure (⟨head, name, optional, type, value⟩, rest)

/-- The parameters that some tokens are. -/
def Parameter.listFrom : Nat → List Token → List Parameter
  | 0, _ => []
  | n + 1, ts =>
    match Parameter.parse? ts with
    | none => []
    | some (p, rest) =>
      p :: match TypeExpr.behindMark? "," rest with
        | some behind => listFrom n behind
        | none => []

/-- What is written of a function behind its name. -/
structure Signature where
  typeParameters : List TypeParameter
  parameters : List Parameter
  result : Option TypeExpr
  body : Body

/-- The signature in front of some tokens and the tokens behind it. -/
def Signature.parse? (ts : List Token) : Option (Signature × List Token) := do
  let (typeParameters, rest) ← TypeParameter.parse? ts
  let (inside, rest) ← bracketed? "(" rest
  let (result, rest) := takeResult rest
  let (body, rest) := match bracketed? "\x7b" rest with
    | some (inside, rest) => (Body.ofTokens inside, rest)
    | none => (.absent, rest)
  pure (⟨typeParameters, Parameter.listFrom (inside.length + 1) inside, result, body⟩, rest)

/-! ## Members -/

/-- Whether the tokens begin with an index signature. -/
def startsIndex (ts : List Token) : Bool :=
  match bracketed? "[" ts with
  | some (t :: u :: _, _) => t.kind == .word && (u.isMark ":" || u.isMark ",")
  | _ => false

/-- Whether a signature begins with the token. -/
def Token.startsSignature (t : Token) : Bool :=
  t.isMark "(" || t.isMark "<"

/-- The named member, behind its head, in front of some tokens. -/
def NamedMember.parse? (head : Head) (ts : List Token) : Option (NamedMember × List Token) := do
  let (generates, ts) := takeMark "*" ts
  let (name, rest) ← MemberName.parse? ts
  let (optional, rest) := takeMark "?" rest
  if generates || (rest.head?.map Token.startsSignature).getD false then
    let (s, rest) ← Signature.parse? rest
    pure (⟨head, name, optional, .method s.typeParameters s.parameters s.result
      (if generates then .yielding else s.body)⟩, rest)
  else
    let (_, rest) := takeMark "!" rest
    let (type, rest) := takeType rest
    let (value, rest) := takeValue rest
    pure (⟨head, name, optional, .field type value⟩, rest)

/-- The getter or setter, behind its head and its first word, in front of some tokens. -/
def NamedMember.parseAccessor? (head : Head) (gets : Bool) (ts : List Token) :
    Option (NamedMember × List Token) := do
  let (name, rest) ← MemberName.parse? ts
  let (s, rest) ← Signature.parse? rest
  pure (⟨head, name, false,
    if gets then .getter s.result s.body
    else .setter (s.parameters.head?.bind (·.type))⟩, rest)

/-- The member in front of some tokens, if it can be read, and the tokens behind it. -/
def ClassMember.parse? (kind : DeclarationKind) (ts : List Token) :
    Option (ClassMember × List Token) :=
  let (head, rest) := Head.parse modifiesMember false ts
  match rest with
  | [] => none
  | t :: behind =>
    let next := behind.head?
    let named := (NamedMember.parse? head rest).map fun r => (ClassMember.named r.1, r.2)
    let signature (ts : List Token) :=
      (Signature.parse? ts).map fun r => (ClassMember.unnamed, r.2)
    if kind = .class ∧ t.isWord "static" ∧ (next.map (·.isMark "\x7b")).getD false then
      some (.unnamed, ((bracketed? "\x7b" behind).map (·.2)).getD behind)
    else if t.isOneOf ["get", "set"] && (next.map Token.followsModifier).getD false then
      (NamedMember.parseAccessor? head (t.isWord "get") behind).map fun r => (.named r.1, r.2)
    else if kind = .class ∧ (t.isWord "constructor" ∨
        (t.kind = .string ∧ textValue t.text = "constructor")) ∧
        (next.map Token.startsSignature).getD false then
      (Signature.parse? behind).map fun r => (.creation r.1.parameters, r.2)
    else if kind = .interface ∧ t.startsSignature then signature rest
    else if kind = .interface ∧ t.isWord "new" ∧ (next.map Token.startsSignature).getD false then
      signature behind
    else if startsIndex rest then
      some (.unnamed, (takeType (((bracketed? "[" rest).map (·.2)).getD rest)).2)
    else named

/-- The members that some tokens are. A token that begins no member is passed over. -/
def ClassMember.listFrom (kind : DeclarationKind) : Nat → List Token → List ClassMember
  | 0, _ => []
  | _, [] => []
  | n + 1, t :: ts =>
    if t.isMark ";" || t.isMark "," then listFrom kind n ts
    else
      match ClassMember.parse? kind (t :: ts) with
      | some (m, rest) => m :: listFrom kind n rest
      | none => listFrom kind n ts

end Metamodel.Source

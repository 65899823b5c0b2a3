import Metamodel.Source.Lexer
import Metamodel.Source.Literal
import Metamodel.Source.TypeExpr.Parser

/-!
# Texts of settings files

Such a text is a JSON text that may hold comments and commas behind the last item. A text without
any token stands for an empty object.
-/

namespace Metamodel.Source

/-- The value of a text in double quotes that is closed. -/
def Token.quotedValue? (t : Token) : Option String :=
  let cs := t.text.toList
  if t.kind == .string && cs.head? == some '"' && 2 ≤ cs.length && cs.getLast? == some '"' then
    some (textValue t.text)
  else none

namespace SettingsText

mutual

/-- The value in front of some tokens and the tokens behind it. -/
def valueFrom : Nat → List Token → Option (Json × List Token)
  | 0, _ => none
  | _, [] => none
  | n + 1, t :: ts =>
    if t.isMark "\x7b" then (membersFrom n ts).map fun r => (.object r.1, r.2)
    else if t.isMark "[" then (itemsFrom n ts).map fun r => (.array r.1, r.2)
    else if t.isMark "-" then
      match ts with
      | u :: rest =>
        if u.kind == .number then some (.number (numberValue u.text).negate, rest) else none
      | [] => none
    else if t.kind == .number then some (.number (numberValue t.text), ts)
    else if t.isWord "true" then some (.bool true, ts)
    else if t.isWord "false" then some (.bool false, ts)
    else if t.isWord "null" then some (.null, ts)
    else t.quotedValue?.map fun s => (.string s, ts)

/-- The members of an object up to its closing mark. A later member replaces an earlier one. -/
def membersFrom : Nat → List Token → Option (List (String × Json) × List Token)
  | 0, _ => none
  | _, [] => none
  | n + 1, t :: ts =>
    if t.isMark "\x7d" then some ([], ts)
    else do
      let name ← t.quotedValue?
      let (v, rest) ← valueFrom n (← TypeExpr.behindMark? ":" ts)
      match rest with
      | [] => none
      | u :: behind =>
        if u.isMark "\x7d" then pure ([(name, v)], behind)
        else if u.isMark "," then do
          let (ms, rest) ← membersFrom n behind
          pure (if ms.any (·.1 == name) then ms else (name, v) :: ms, rest)
        else none

/-- The items of an array up to its closing mark. -/
def itemsFrom : Nat → List Token → Option (List Json × List Token)
  | 0, _ => none
  | _, [] => none
  | n + 1, t :: ts =>
    if t.isMark "]" then some ([], ts)
    else do
      let (v, rest) ← valueFrom n (t :: ts)
      match rest with
      | [] => none
      | u :: behind =>
        if u.isMark "]" then pure ([v], behind)
        else if u.isMark "," then do
          let (vs, rest) ← itemsFrom n behind
          pure (v :: vs, rest)
        else none

end

/-- The object that a text describes. -/
def parse? (text : String) : Option (List (String × Json)) :=
  match tokens text with
  | [] => some []
  | t :: ts =>
    match valueFrom (2 * ts.length + 3) (t :: ts) with
    | some (.object members, []) => some members
    | _ => none

end SettingsText

end Metamodel.Source

import Metamodel.Source.Lexer
import Metamodel.Source.Statement.MemberParser

/-!
# Reading statements

Declarations and links are read; all other statements are passed over. `Statement.parseText` gives
the statements of a source text.
-/

namespace Metamodel.Source

/-! ## Heads of statements -/

/-- Whether a declaration begins with a token in front of others, modifiers of its own aside. -/
def startsDeclaration (t : Token) (ts : List Token) : Bool :=
  match ts with
  | [] => false
  | u :: _ =>
    if t.isOneOf ["class", "function"] then true
    else if t.isOneOf ["interface", "type", "enum"] then u.kind == .word && !u.startsLine
    else if t.isOneOf ["namespace", "module"] then
      (u.kind == .word || u.kind == .string) && !u.startsLine
    else if t.isOneOf ["const", "let", "var"] then
      (u.kind == .word && !u.isWord "enum") || u.opens
    else if t.isWord "global" then u.isMark "\x7b"
    else t.isWord "import" && u.kind == .word

/-- Whether a declaration, perhaps with modifiers, begins with a token in front of others. -/
def startsModified (t : Token) : List Token → Bool
  | [] => false
  | u :: ts =>
    startsDeclaration t (u :: ts) ||
      (t.isOneOf ["abstract", "declare", "async"] && !u.startsLine && startsModified u ts) ||
      (t.isWord "const" && u.isWord "enum")

/-- Whether a token in front of others modifies a declaration. -/
def modifiesDeclaration (_ : List String) (t : Token) (ts : List Token) : Bool :=
  match ts with
  | [] => false
  | u :: behind =>
    if t.isOneOf ["abstract", "declare", "async"] then
      !startsDeclaration t ts && !u.startsLine && startsModified u behind
    else if t.isWord "const" then u.isWord "enum"
    else if t.isWord "export" then
      u.isMark "@" || startsModified u behind ||
        (u.isWord "default" && (match behind with
          | [] => false
          | v :: rest => v.isMark "@" ||
              (startsModified v rest && !v.isOneOf ["const", "let", "var", "type", "enum",
                "namespace", "module", "import", "declare", "global"])))
    else t.isWord "default" && (u.isMark "@" || startsModified u behind)

/-! ## Parts of statements -/

/-- The supertypes in front of some tokens and the tokens behind them. -/
def Supertype.listFrom : Nat → List Token → List Supertype × List Token
  | 0, ts => ([], ts)
  | n + 1, ts =>
    let (e, written, rest) := Expression.parseOperand false ts
    let rest := ((TypeExpr.parseArguments? rest).map (·.2)).getD rest
    match TypeExpr.behindMark? "," rest with
    | some behind =>
      let (others, rest) := listFrom n behind
      (⟨e, written⟩ :: others, rest)
    | none => ([⟨e, written⟩], rest)

/-- The extended and the implemented supertypes in front of some tokens, and the tokens behind
them. -/
def Supertype.clausesFrom : Nat → List Token → (List Supertype × List Supertype) × List Token
  | 0, ts => (([], []), ts)
  | _, [] => (([], []), [])
  | n + 1, t :: ts =>
    if t.isWord "extends" then
      let (own, rest) := Supertype.listFrom ts.length ts
      let (more, rest) := clausesFrom n rest
      ((own ++ more.1, more.2), rest)
    else if t.isWord "implements" then
      let (own, rest) := Supertype.listFrom ts.length ts
      let (more, rest) := clausesFrom n rest
      ((more.1, own ++ more.2), rest)
    else (([], []), t :: ts)

/-- The class or interface, behind its head and first word, in front of some tokens. -/
def TypeDeclaration.parse? (head : Head) (kind : DeclarationKind) (ts : List Token) :
    Option (TypeDeclaration × List Token) := do
  let (name, rest) := match ts with
    | t :: rest =>
      if t.kind == .word && !t.isOneOf ["extends", "implements"] then (some t.text, rest)
      else (none, ts)
    | [] => (none, [])
  let (typeParameters, rest) ← TypeParameter.parse? rest
  let ((extended, implemented), rest) := Supertype.clausesFrom rest.length rest
  let (inside, rest) ← bracketed? "\x7b" rest
  pure (⟨head, kind, name, typeParameters, extended, implemented,
    ClassMember.listFrom kind inside.length inside⟩, rest)

/-- The members of an enumeration. -/
def enumerationMembers (ts : List Token) : List (String × Option Expression) :=
  (splitCommas 0 ts).filterMap fun part =>
    match MemberName.parse? part with
    | some (name, rest) => name.text?.map (·, (takeValue rest).1)
    | none => none

/-- The names that a pattern binds. -/
def patternNames : Nat → List Token → List String
  | 0, _ => []
  | n + 1, ts =>
    match ts with
    | [] => []
    | t :: rest =>
      if t.opens then
        (splitCommas 0 (splitClosing 0 rest).1).flatMap fun part =>
          let part := (takeMark "..." part).2
          match part with
          | _ :: u :: behind => patternNames n (if u.isMark ":" then behind else part)
          | _ => patternNames n part
      else if t.kind == .word then [t.text]
      else []

/-- The variables in front of some tokens and the tokens behind them. -/
def Variable.listFrom : Nat → List Token → List Variable × List Token
  | 0, ts => ([], ts)
  | n + 1, ts =>
    match MemberName.parseBinding? ts with
    | none => ([], ts)
    | some (name, rest) =>
      let (_, rest) := takeMark "!" rest
      let (type, rest) := takeType rest
      let (value, rest) := takeValue rest
      let own := match name with
        | .plain text => [⟨text, type, value⟩]
        | _ => (patternNames ts.length ts).map fun text => ⟨text, none, none⟩
      match TypeExpr.behindMark? "," rest with
      | some behind =>
        let (others, rest) := listFrom n behind
        (own ++ others, rest)
      | none => (own, rest)

/-- The names in the braces of an import or an export: the name on the other side and the name that
is bound. -/
def linkNames (ts : List Token) : List (String × String) :=
  (splitCommas 0 ts).filterMap fun part =>
    let part := match part with
      | t :: u :: v :: rest =>
        if t.isWord "type" && (!u.isWord "as" || v.isWord "as") then u :: v :: rest
        else part
      | [t, u] => if t.isWord "type" then [u] else part
      | _ => part
    let text (t : Token) := if t.kind == .string then textValue t.text else t.text
    match part with
    | [t] => some (text t, text t)
    | [t, u, v] => if u.isWord "as" then some (text t, text v) else none
    | _ => none

/-- The module named behind the word `from`, if there is one, and the tokens behind it. -/
def takeSource (ts : List Token) : Option String × List Token :=
  match ts with
  | t :: u :: rest =>
    if t.isWord "from" && u.kind == .string then
      (some (textValue u.text), match rest with
        | v :: behind =>
          if v.isOneOf ["with", "assert"] && !v.startsLine then
            ((bracketed? "\x7b" behind).map (·.2)).getD rest
          else rest
        | [] => [])
    else (none, ts)
  | _ => (none, ts)

/-- The tokens without a word `type` that marks a link of types. -/
def withoutTypeMark (ts : List Token) : List Token :=
  match ts with
  | t :: u :: v :: rest =>
    if t.isWord "type" && (u.opens || u.isMark "*" ||
        (u.kind == .word && (!u.isWord "from" || v.isWord "from" || v.isMark "="))) then
      u :: v :: rest
    else ts
  | _ => ts

/-! ## Links -/

/-- The import, behind its first word, in front of some tokens. -/
def parseImport (exported : Bool) (ts : List Token) : Statement × List Token :=
  match withoutTypeMark ts with
  | [] => (.links exported [], [])
  | t :: rest =>
    if t.kind == .string then (.links exported [], rest)
    else
      let assigned := if t.kind == .word then TypeExpr.behindMark? "=" rest else none
      match assigned with
      | some behind =>
        match behind with
        | u :: v :: w :: _ =>
          if u.isWord "require" && v.isMark "(" then
            (.links exported [(t.text, .module (textValue w.text))], behind.drop 4)
          else
            let words := u :: dottedTail (behind.drop 1)
            (.links exported [(t.text, .path (dottedWords words))], behind.drop words.length)
        | _ =>
          (.links exported [(t.text, .path (dottedWords behind))], [])
      | none =>
        let (first, rest) :=
          if t.kind == .word then ([t.text], (takeMark "," rest).2) else ([], t :: rest)
        let (all, rest) := match rest with
          | u :: _ :: w :: behind => if u.isMark "*" then ([w.text], behind) else ([], rest)
          | _ => ([], rest)
        let (named, rest) := match bracketed? "\x7b" rest with
          | some (inside, behind) => (linkNames inside, behind)
          | none => ([], rest)
        match takeSource rest with
        | (some source, rest) =>
          (.links exported (first.map (·, .export source "default") ++
            all.map (·, .module source) ++
            named.map fun p => (p.2, .export source p.1)), rest)
        | (none, rest) => (.links exported [], rest)

/-- The export that declares nothing, behind its first word, in front of some tokens. -/
def parseExport (ts : List Token) : Statement × List Token :=
  let valued (name : String) (rest : List Token) : Statement × List Token :=
    let (e, behind) := Expression.parse rest
    match e.path? with
    | some words => (.links true [(name, .path words)], behind)
    | none =>
      (.values ⟨(ts.head?.map (·.position)).getD .start, [], ["export"], []⟩
        [⟨name, none, some e⟩], behind)
  match withoutTypeMark ts with
  | [] => (.links true [], [])
  | t :: rest =>
    if t.isWord "default" then valued "default" rest
    else if t.isMark "=" then valued "export=" rest
    else if t.isWord "as" then (.links true [], rest.drop 2)
    else if t.isMark "*" then
      match rest with
      | u :: v :: behind =>
        if u.isWord "as" then
          let (source, rest) := takeSource behind
          let name := if v.kind == .string then textValue v.text else v.text
          (.links true [(name, .module (source.getD ""))], rest)
        else
          let (source, rest) := takeSource rest
          (.exportAll (source.getD ""), rest)
      | _ => (.links true [], rest)
    else
      match bracketed? "\x7b" (t :: rest) with
      | none => (.links true [], rest)
      | some (inside, rest) =>
        let names := linkNames inside
        match takeSource rest with
        | (some source, rest) =>
          (.links true (names.map fun p => (p.2, .export source p.1)), rest)
        | (none, rest) => (.links true (names.map fun p => (p.2, .path [p.1])), rest)

/-! ## Statements -/

/-- The words that begin a statement with a condition in brackets. -/
def conditionWords : List String := ["if", "while", "for", "with", "switch", "catch"]

/-- The words that begin a statement in front of another one. -/
def leadingWords : List String :=
  ["else", "do", "try", "finally", "return", "throw", "break", "continue", "debugger", "case",
    "default"]

/-- The tokens behind a statement that declares nothing. -/
def behindStatement (t : Token) (ts : List Token) : List Token :=
  if t.isMark "\x7b" then (splitClosing 0 ts).2
  else if t.isOneOf conditionWords then
    let ts := match ts with
      | u :: rest => if u.isWord "await" then rest else ts
      | [] => []
    ((bracketed? "(" ts).map (·.2)).getD ts
  else if t.isOneOf leadingWords then ts
  else
    let rest := Expression.skip (t :: ts)
    if rest.length ≤ ts.length then rest else ts

/-- The statements that some tokens are; `n` bounds their number and their nesting. -/
def Statement.listFrom : Nat → List Token → List Statement
  | 0, _ => []
  | _, [] => []
  | n + 1, t :: ts =>
    if t.isMark ";" then listFrom n ts
    else
      let (head, rest) := Head.parse modifiesDeclaration false (t :: ts)
      match rest with
      | [] => []
      | u :: behind =>
        if !startsDeclaration u behind then
          if u.isWord "import" && !((behind.head?.map fun v => v.isMark "(" ||
              v.isMark ".").getD false) then
            let (s, rest) := parseImport false behind
            s :: listFrom n rest
          else if u.isWord "export" then
            let (s, rest) := parseExport behind
            s :: listFrom n rest
          else if rest.length < ts.length + 1 then listFrom n rest
          else listFrom n (behindStatement u behind)
        else if u.isOneOf ["class", "interface"] then
          match TypeDeclaration.parse? head
              (if u.isWord "class" then .class else .interface) behind with
          | some (d, rest) => .type d :: listFrom n rest
          | none => listFrom n behind
        else if u.isWord "enum" then
          match behind with
          | v :: rest =>
            match bracketed? "\x7b" rest with
            | some (inside, rest) =>
              .enumeration head v.text (enumerationMembers inside) :: listFrom n rest
            | none => listFrom n behind
          | [] => []
        else if u.isWord "type" then
          match behind with
          | v :: rest =>
            match (do
              let (parameters, rest) ← TypeParameter.parse? rest
              let (written, rest) ← TypeExpr.parse? (← TypeExpr.behindMark? "=" rest)
              pure (parameters, written, rest)) with
            | some (parameters, written, rest) =>
              .alias head v.text parameters written :: listFrom n rest
            | none => listFrom n behind
          | [] => []
        else if u.isOneOf ["namespace", "module"] then
          match behind with
          | v :: rest =>
            let tail := dottedTail rest
            match bracketed? "\x7b" (rest.drop tail.length) with
            | some (inside, rest) =>
              (if v.kind == .string then .moduleBody (textValue v.text) (listFrom n inside)
                else .namespace head (dottedWords (v :: tail)) (listFrom n inside)) ::
                listFrom n rest
            | none => listFrom n behind
          | [] => []
        else if u.isWord "global" then
          match bracketed? "\x7b" behind with
          | some (inside, rest) => .globalBody (listFrom n inside) :: listFrom n rest
          | none => listFrom n behind
        else if u.isWord "function" then
          let name := ((takeMark "*" behind).2.head?.bind fun v =>
            if v.kind == .word then some v.text else none)
          .function head name :: listFrom n (Expression.behindFunctionWord behind)
        else if u.isWord "import" then
          let (s, rest) := parseImport (head.has "export") behind
          s :: listFrom n rest
        else
          let (bound, rest) := Variable.listFrom behind.length behind
          .values head bound :: listFrom n rest

/-- The statements of a source text. -/
def Statement.parseText (text : String) : List Statement :=
  let ts := tokens text
  Statement.listFrom (ts.length + 1) ts

end Metamodel.Source

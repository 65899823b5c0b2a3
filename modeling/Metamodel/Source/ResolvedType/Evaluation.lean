import Metamodel.Source.Program.Resolution
import Metamodel.Source.ResolvedType.Basic

/-!
# Written types to resolved types

A written type is evaluated in a scope: a place and the type parameters that are known there.
Arguments are evaluated to a bounded depth, so that types that contain themselves come to an end;
on each level, every alias of the program is passed at most once.
-/

namespace Metamodel.Source

/-- Where a type is evaluated. -/
structure TypeScope where
  site : Site
  parameters : List (String × ResolvedType)
  deriving Inhabited

/-- The scope with type parameters of which nothing is known. -/
def TypeScope.bind (s : TypeScope) (parameters : List TypeParameter) : TypeScope :=
  ⟨s.site, parameters.map (fun p => (p.name, .shape)) ++ s.parameters⟩

/-- The least and the greatest number of arguments for type parameters. -/
def TypeParameter.arity (ps : List TypeParameter) : Nat × Nat :=
  ((ps.filter (·.default.isNone)).length, ps.length)

namespace Declared

/-- The type parameters of a class or an interface. -/
def parameters? (d : Declared) : Option (Site × List TypeParameter) :=
  d.parts.findSome? fun part => match part.2 with
    | .type t => some (part.1, t.typeParameters)
    | _ => none

/-- The type that an alias stands for. -/
def alias? (d : Declared) : Option (Site × List TypeParameter × TypeExpr) :=
  d.parts.findSome? fun part => match part.2 with
    | .alias _ _ parameters type => some (part.1, parameters, type)
    | _ => none

/-- Whether the name is that of an enumeration. -/
def isEnumeration (d : Declared) : Bool :=
  d.parts.any fun part => part.2 matches .enumeration ..

/-- Whether values of a class can be created. -/
def isConcreteClass (d : Declared) : Bool :=
  d.parts.any fun part => match part.2 with
    | .type t => t.kind == .class && !t.head.has "abstract"
    | _ => false

/-- The variable of the name. -/
def asVariable? (d : Declared) : Option (Site × Variable) :=
  d.parts.findSome? fun part => match part.2 with
    | .values _ vs => (vs.find? (·.name == d.name)).map (part.1, ·)
    | _ => none

end Declared

namespace ResolvedType

/-- The type of a library name with arguments. `named` is set where the type is given a name of its
own. -/
def ofLibrary (strict named : Bool) (n : LibraryName) (args : List ResolvedType) : ResolvedType :=
  let args := args ++ List.replicate (n.arity.2 - args.length) (.any false)
  match n.form, n.name, args with
  | .record, _, _ => .library (if named then "__type" else n.name) args
  | .memberwise, name, [t] => memberwise strict name t
  | .present, _, [t] => t.present
  | .textual, _, _ => .scalar .string
  | .computed, _, _ => .shape
  | _, "Array", [t] => .list false t
  | _, "ReadonlyArray", [t] => .list true t
  | _, _, _ => .library n.name args

/-- The type that a keyword names. -/
def ofKeyword (name : String) : ResolvedType :=
  match name with
  | "any" => .any false
  | "unknown" => .unknown
  | "never" => .never
  | "void" => .void
  | "undefined" => .undefined
  | "string" => .scalar .string
  | "number" => .scalar .number
  | "boolean" => .scalar .boolean
  | "bigint" => .scalar .bigint
  | _ => .shape

end ResolvedType

namespace Program

/-- The name by which a module is known as a value. -/
def moduleName (file : String) : String :=
  let bare := [".d.ts", ".tsx", ".ts"].findSome? fun e => withoutEnding? e file
  "\"" ++ bare.getD file ++ "\""

/-- The number of aliases that a program declares, and one more. -/
def aliasBudget (p : Program) : Nat :=
  p.texts.foldl (fun n t => n + t.2.statements.length) 1

/-- The depth to which arguments are evaluated. -/
def argumentDepth : Nat := 18

mutual

/-- What a written type stands for. `named` is set for the type that an alias stands for. -/
def evaluateFrom (p : Program) (depth chain : Nat) (named : Bool) (s : TypeScope) (e : TypeExpr) :
    ResolvedType :=
  let strict := p.settings.strictNulls
  match e with
  | .keyword name => .ofKeyword name
  | .literal scalar text => .literal scalar text
  | .null => .null
  | .test => .scalar .boolean
  | .assertion => .void
  | .other => .shape
  | .parenthesized inner => evaluateFrom p depth chain named s inner
  | .readonly inner =>
    match evaluateFrom p depth chain named s inner with
    | .list _ element => .list true element
    | t => t
  | .union es => .unionOf strict (evaluateAll p depth chain s es)
  | .intersection es =>
    match ResolvedType.distinct (evaluateAll p depth chain s es) with
    | [t] => t
    | ts =>
      if ts.any fun t => t matches .never then .never
      else if ts.any fun t => t matches .any _ then .any false
      else .shape
  | .array element =>
    match depth with
    | 0 => .any true
    | d + 1 => .list false (evaluateFrom p d p.aliasBudget false s element)
  | .typeOf path =>
    match depth with
    | 0 => .any true
    | d + 1 =>
      match p.resolve? s.site path [.value] with
      | some (.declared v) =>
        match v.asVariable? with
        | some (site, found) =>
          match found.type, found.value with
          | some type, _ => evaluateFrom p d p.aliasBudget false ⟨site, []⟩ type
          | none, some value => inferFrom p d p.aliasBudget true ⟨site, []⟩ value
          | none, none => .any false
        | none => .declared (v.origin p) []
      | some (.module file) => .library (moduleName file) []
      | some (.library n) => .library (n.name ++ "Constructor") []
      | some (.enumMember d name) => d.enumMemberType p name
      | _ => .any true
  | .imported source path args =>
    match depth with
    | 0 => .any true
    | d + 1 =>
      let file := (p.text? s.site.file).bind fun text => text.modules.lookup source
      let start : Option Entity := file.map .module
      let found := path.foldl (fun e name => e.bind fun e => p.memberFrom p.linkBudget e name)
        start
      evaluateEntity p d chain named found (evaluateAll p d p.aliasBudget s args)
  | .reference path _ args =>
    match depth with
    | 0 => .any true
    | d + 1 =>
      match path.head?.bind fun name => s.parameters.lookup name with
      | some t => if path.length = 1 ∧ args.isEmpty then t else .any true
      | none =>
        evaluateEntity p d chain named (p.resolve? s.site path [.type])
          (evaluateAll p d p.aliasBudget s args)
  termination_by (depth, chain, sizeOf e)

/-- What an entity stands for as a type, with evaluated arguments; an alias is evaluated one level
above them. -/
def evaluateEntity (p : Program) (depth chain : Nat) (named : Bool) (found : Option Entity)
    (args : List ResolvedType) : ResolvedType :=
  match found with
  | some (.library n) =>
    if n.arity.1 ≤ args.length ∧ args.length ≤ n.arity.2 then
      .ofLibrary p.settings.strictNulls named n args
    else .any true
  | some (.enumMember d name) => if args.isEmpty then d.enumMemberType p name else .any true
  | some (.declared d) =>
    match d.parameters? with
    | some (site, ps) =>
      let arity := TypeParameter.arity ps
      if arity.1 ≤ args.length ∧ args.length ≤ arity.2 then
        .declared (d.origin p) (evaluateArguments p depth site [] ps args)
      else .any true
    | none =>
      if d.isEnumeration then if args.isEmpty then d.enumType p else .any true
      else
        match d.alias?, chain with
        | some (site, ps, type), c + 1 =>
          let arity := TypeParameter.arity ps
          if arity.1 ≤ args.length ∧ args.length ≤ arity.2 then
            let filled := evaluateArguments p depth site [] ps args
            evaluateFrom p (depth + 1) c true ⟨site, (ps.map (·.name)).zip filled⟩ type
          else .any true
        | _, _ => .any true
  | _ => .any true
  termination_by (depth + 1, chain, 0)

/-- The types of written arguments. -/
def evaluateAll (p : Program) (depth chain : Nat) (s : TypeScope) (es : List TypeExpr) :
    List ResolvedType :=
  match es with
  | [] => []
  | e :: es => evaluateFrom p depth chain false s e :: evaluateAll p depth chain s es
  termination_by (depth, chain, sizeOf es)

/-- Arguments for type parameters, where missing ones are the defaults of the parameters. -/
def evaluateArguments (p : Program) (depth : Nat) (site : Site)
    (known : List (String × ResolvedType)) (ps : List TypeParameter) (args : List ResolvedType) :
    List ResolvedType :=
  match ps, args with
  | [], _ => []
  | q :: ps, t :: args => t :: evaluateArguments p depth site ((q.name, t) :: known) ps args
  | q :: ps, [] =>
    let t := match q.default with
      | some e => evaluateFrom p depth p.aliasBudget false ⟨site, known⟩ e
      | none => .unknown
    t :: evaluateArguments p depth site ((q.name, t) :: known) ps []
  termination_by (depth, p.aliasBudget + 1, sizeOf ps)

/-- The type of a written value. `fixed` is set where the value cannot change. -/
def inferFrom (p : Program) (depth chain : Nat) (fixed : Bool) (s : TypeScope) (e : Expression) :
    ResolvedType :=
  let strict := p.settings.strictNulls
  match e with
  | .text _ | .template => .scalar .string
  | .number _ => .scalar .number
  | .negative inner =>
    match inferFrom p depth chain fixed s inner with
    | .scalar .bigint => .scalar .bigint
    | .any failed => .any failed
    | _ => .scalar .number
  | .bigint => .scalar .bigint
  | .boolean _ => .scalar .boolean
  | .null => if strict then .null else .any false
  | .regex => .library "RegExp" []
  | .object _ => .shape
  | .parenthesized inner => inferFrom p depth chain fixed s inner
  | .checked inner => inferFrom p depth chain fixed s inner
  | .constant inner =>
    if inner matches .array _ then .any false else inferFrom p depth chain true s inner
  | .array items =>
    if items.isEmpty then .list false (if strict then .never else .any false)
    else .list false (.unionOf strict (inferAll p depth chain s items))
  | .cast type =>
    match depth with
    | 0 => .any true
    | d + 1 => evaluateFrom p d p.aliasBudget false s type
  | .construct callee args =>
    match depth with
    | 0 => .any true
    | d + 1 =>
      match callee.path?.bind fun path => p.resolve? s.site path [.value] with
      | some (.declared c) =>
        if !c.isConcreteClass then .any true
        else
          match c.parameters? with
          | some (site, ps) =>
            let arity := TypeParameter.arity ps
            let given := evaluateAll p d p.aliasBudget s args
            if given.isEmpty ∨ (arity.1 ≤ given.length ∧ given.length ≤ arity.2) then
              .declared (c.origin p) (evaluateArguments p d site [] ps given)
            else .any true
          | none => .any true
      | some (.library n) =>
        let given := evaluateAll p d p.aliasBudget s args
        if n.form == .class &&
            (given.isEmpty || (n.arity.1 ≤ given.length && given.length ≤ n.arity.2)) then
          .ofLibrary strict false n given
        else .any true
      | _ => .any true
  | .word _ | .member .. =>
    if e matches .word "undefined" then if strict then .undefined else .any false
    else
      match depth with
      | 0 => .any true
      | d + 1 =>
        match e.path?.bind fun path => p.resolve? s.site path [.value] with
        | some (.enumMember owner name) =>
          if fixed then owner.enumMemberType p name else owner.enumType p
        | some (.declared v) =>
          match v.asVariable? with
          | some (site, found) =>
            match found.type, found.value with
            | some type, _ => evaluateFrom p d p.aliasBudget false ⟨site, []⟩ type
            | none, some value => inferFrom p d p.aliasBudget fixed ⟨site, []⟩ value
            | none, none => .any false
          | none => .declared (v.origin p) []
        | some (.library n) =>
          if n.name = "NaN" ∨ n.name = "Infinity" then .scalar .number else .any false
        | _ => .any true
  | .call .. | .other => .any true
  termination_by (depth, chain, sizeOf e)

/-- The types of written values. -/
def inferAll (p : Program) (depth chain : Nat) (s : TypeScope) (es : List Expression) :
    List ResolvedType :=
  match es with
  | [] => []
  | e :: es => inferFrom p depth chain false s e :: inferAll p depth chain s es
  termination_by (depth, chain, sizeOf es)

end

/-- What a written type stands for in a scope. -/
def evaluate (p : Program) (s : TypeScope) (e : TypeExpr) : ResolvedType :=
  evaluateFrom p argumentDepth p.aliasBudget false s e

/-- The type of a written value in a scope. -/
def infer (p : Program) (s : TypeScope) (fixed : Bool) (e : Expression) : ResolvedType :=
  inferFrom p argumentDepth p.aliasBudget fixed s e

end Program

end Metamodel.Source

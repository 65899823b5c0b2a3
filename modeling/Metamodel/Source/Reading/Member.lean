import Metamodel.Source.Reading.Annotation

/-!
# Members of source texts

The members of a class or an interface in the order in which they are written: fields, the
parameters that declare fields, getters, and methods, of which the first with a name counts. Members
without a name of their own are left out. A getter without a setter cannot be written to.
-/

namespace Metamodel.Source

/-- Where members are read. -/
structure ReadingContext where
  refs : RefContext
  /-- the path of the text in the project -/
  file : String

namespace ReadingContext

/-- The place of a position. -/
def location (c : ReadingContext) (p : Position) : Location :=
  ⟨c.file, some p.line, some p.column⟩

/-- The context with further type parameters. -/
def bind (c : ReadingContext) (ps : List TypeParameter) : ReadingContext :=
  { c with refs := { c.refs with scope := c.refs.scope.bind ps } }

/-- The resolved type that is written, or else the one that is inferred. -/
def typeOf (c : ReadingContext) (written : Option TypeExpr) (inferred : ResolvedType) :
    ResolvedType :=
  match written with
  | some e => c.refs.program.evaluate c.refs.scope e
  | none => inferred

end ReadingContext

/-- The modifiers of a member in their order. -/
def memberModifiers (head : Head) (name : MemberName) (optional : Bool) : List MemberModifier :=
  (if head.has "private" ∨ name matches .private _ then [.private] else []) ++
  (if head.has "protected" then [.protected] else []) ++
  (if head.has "static" then [.static] else []) ++
  (if head.has "readonly" then [.readonly] else []) ++
  (if head.has "abstract" then [.abstract] else []) ++
  (if optional then [.optional] else [])

/-- Whether a parameter of a creation declares a field. -/
def Parameter.declaresField (p : Parameter) : Bool :=
  ["public", "private", "protected", "readonly", "override"].any p.head.has

namespace ReadingContext

/-- The type of a field: the written one, or that of its value. -/
def fieldType (c : ReadingContext) (head : Head) (type : Option TypeExpr)
    (value : Option Expression) : ResolvedType :=
  c.typeOf type (match value with
    | some e => c.refs.program.infer c.refs.scope (head.has "readonly") e
    | none => .any false)

/-- The result type of a function: the written one, or what its body tells. -/
def resultType (c : ReadingContext) (head : Head) (result : Option TypeExpr) (body : Body) :
    ResolvedType :=
  c.typeOf result (match body with
    | .silent => if head.has "async" then .library "Promise" [.void] else .void
    | _ => .any false)

/-- The type that the setter beside a getter takes. -/
def setterType? (ms : List ClassMember) (getter : NamedMember) : Option TypeExpr :=
  ms.findSome? fun m => match m with
    | .named ⟨head, name, _, .setter type⟩ =>
      if name = getter.name ∧ head.has "static" = getter.head.has "static" then type else none
    | _ => none

/-- The type of a getter: the written one, that of the setter beside it, or what its body tells. -/
def getterType (c : ReadingContext) (ms : List ClassMember) (m : NamedMember)
    (result : Option TypeExpr) (body : Body) : ResolvedType :=
  match result, setterType? ms m with
  | none, some e => c.typeOf (some e) (.any false)
  | _, _ => c.resultType m.head result body

/-- A member that is read. -/
def member (c : ReadingContext) (head : Head) (name : String) (kind : MemberKind)
    (parameterCount : Option Nat) (type : TypeRef) (modifiers : List MemberModifier) : Member where
  name := name
  kind := kind
  parameterCount := parameterCount
  type := type
  modifiers := if modifiers.isEmpty then none else some modifiers
  annotations :=
    match c.refs.program.annotations c.refs.scope.site head with
    | [] => none
    | as => some as
  source := some (c.location head.position)

/-- The field that a member or a parameter is. -/
def field (c : ReadingContext) (head : Head) (name : MemberName) (text : String)
    (optional : Bool) (type : Option TypeExpr) (value : Option Expression) : Member :=
  c.member head text .field none (c.refs.ref (c.fieldType head type value) type)
    (memberModifiers head name optional)

/-- The fields that the parameters of a creation declare. -/
def parameterFields (c : ReadingContext) (ps : List Parameter) : List Member :=
  (ps.filter Parameter.declaresField).filterMap fun p =>
    p.name.text?.map fun text => c.field p.head p.name text p.optional p.type p.value

/-- The method that a member is. -/
def method (c : ReadingContext) (m : NamedMember) (text : String) (ps : List TypeParameter)
    (parameters : List Parameter) (result : Option TypeExpr) (body : Body) : Member :=
  let inner := c.bind ps
  c.member m.head text .method (some parameters.length)
    (inner.refs.ref (inner.resultType m.head result body) result)
    (memberModifiers m.head m.name m.optional)

/-- The accessor that a getter is. -/
def accessor (c : ReadingContext) (ms : List ClassMember) (m : NamedMember) (text : String)
    (settable : Bool) (result : Option TypeExpr) (body : Body) : Member :=
  let modifiers := memberModifiers m.head m.name false
  c.member m.head text .accessor none (c.refs.ref (c.getterType ms m result body) result)
    (if settable || modifiers.contains .readonly then modifiers else modifiers ++ [.readonly])

end ReadingContext

/-- The names of the setters among some members. -/
def setterNames (ms : List ClassMember) : List String :=
  ms.filterMap fun m => match m with
    | .named ⟨_, name, _, .setter _⟩ => name.text?
    | _ => none

namespace ReadingContext

/-- The members among some that are read; `all` are the members of the declaration, `seen` the names
of the methods in front. -/
def membersFrom (c : ReadingContext) (all : List ClassMember) (seen : List String) :
    List ClassMember → List Member
  | [] => []
  | .unnamed :: rest => c.membersFrom all seen rest
  | .creation ps :: rest => c.parameterFields ps ++ c.membersFrom all seen rest
  | .named m :: rest =>
    match m.name.text?, m.form with
    | none, _ => c.membersFrom all seen rest
    | some _, .setter _ => c.membersFrom all seen rest
    | some text, .field type value =>
      c.field m.head m.name text m.optional type value :: c.membersFrom all seen rest
    | some text, .getter result body =>
      c.accessor all m text ((setterNames all).contains text) result body ::
        c.membersFrom all seen rest
    | some text, .method ps parameters result body =>
      if seen.contains text then c.membersFrom all seen rest
      else
        c.method m text ps parameters result body :: c.membersFrom all (text :: seen) rest

/-- The members of a class or an interface. -/
def members (c : ReadingContext) (ms : List ClassMember) : List Member :=
  c.membersFrom ms [] ms

/-- The resolved types of members, in the order in which they are read. -/
def memberTypes (c : ReadingContext) (ms : List ClassMember) : List ResolvedType :=
  ms.flatMap fun m => match m with
    | .unnamed => []
    | .creation ps =>
      (ps.filter Parameter.declaresField).map fun p => c.fieldType p.head p.type p.value
    | .named m =>
      match m.form with
      | .field type value => [c.fieldType m.head type value]
      | .getter result body => [c.getterType ms m result body]
      | .setter _ => []
      | .method ps _ result body => [(c.bind ps).resultType m.head result body]

end ReadingContext

end Metamodel.Source

import Metamodel.Declaration.Basic
import Metamodel.Source.DocComment
import Metamodel.Source.Expression.Basic

/-!
# Statements

The statements of a source text that declare names, with the members of classes and interfaces, and
those that link names of different texts.
-/

namespace Metamodel.Source

/-- What stands in front of a declaration, and where it begins. -/
structure Head where
  position : Position
  decorators : List Expression
  modifiers : List String
  /-- the tags of its documentation comment -/
  tags : List DocComment.Tag
  deriving Inhabited

/-- Whether a declaration has a modifier. -/
def Head.has (h : Head) (modifier : String) : Bool :=
  h.modifiers.contains modifier

/-! ## Members -/

/-- The name of a member or a parameter. -/
inductive MemberName where
  /-- a name, or the value of a text or a number that stands for one -/
  | plain (text : String)
  | «private» (text : String)
  /-- an expression in square brackets -/
  | computed
  /-- anything else, as written -/
  | pattern (written : String)
  deriving DecidableEq, Inhabited

/-- The text of a name that has one. -/
def MemberName.text? : MemberName → Option String
  | plain text => some text
  | «private» text => some text
  | computed => none
  | pattern written => if written = "" then none else some written

/-- A parameter of a function. -/
structure Parameter where
  head : Head
  name : MemberName
  optional : Bool
  type : Option TypeExpr
  value : Option Expression
  deriving Inhabited

/-- What can be told about the result of a function from its body. -/
inductive Body where
  /-- no body is written -/
  | absent
  /-- no result is given -/
  | silent
  | yielding
  deriving DecidableEq, Inhabited

/-- The form of a named member. -/
inductive MemberForm where
  | field (type : Option TypeExpr) (value : Option Expression)
  | method (typeParameters : List TypeParameter) (parameters : List Parameter)
      (result : Option TypeExpr) (body : Body)
  | getter (result : Option TypeExpr) (body : Body)
  | setter (type : Option TypeExpr)
  deriving Inhabited

/-- A named member of a class or an interface. -/
structure NamedMember where
  head : Head
  name : MemberName
  optional : Bool
  form : MemberForm
  deriving Inhabited

/-- A member of a class or an interface. -/
inductive ClassMember where
  | named (member : NamedMember)
  /-- the creation of a value, whose parameters may declare fields -/
  | creation (parameters : List Parameter)
  /-- an initial block, or what can be called on or taken from a value without a name -/
  | unnamed
  deriving Inhabited

/-! ## Statements -/

/-- A supertype as written, without its type arguments. -/
structure Supertype where
  expression : Expression
  written : String
  deriving Inhabited

/-- A class or an interface. -/
structure TypeDeclaration where
  head : Head
  kind : DeclarationKind
  name : Option String
  typeParameters : List TypeParameter
  extended : List Supertype
  implemented : List Supertype
  members : List ClassMember
  deriving Inhabited

/-- A variable. -/
structure Variable where
  name : String
  type : Option TypeExpr
  value : Option Expression
  deriving Inhabited

/-- What a linked name stands for. -/
inductive Link where
  /-- a name that a module exports -/
  | export (source name : String)
  /-- all names that a module exports -/
  | module (source : String)
  /-- what a dotted name of the text itself stands for -/
  | path (words : List String)
  deriving Inhabited

/-- A statement. -/
inductive Statement where
  | type (declaration : TypeDeclaration)
  | enumeration (head : Head) (name : String) (members : List (String × Option Expression))
  | alias (head : Head) (name : String) (typeParameters : List TypeParameter) (type : TypeExpr)
  | namespace (head : Head) (path : List String) (body : List Statement)
  | function (head : Head) (name : Option String)
  | values (head : Head) (bound : List Variable)
  /-- names that are linked, for the text itself or for others -/
  | links (exported : Bool) (bindings : List (String × Link))
  /-- all exported names of a module, exported on -/
  | exportAll (source : String)
  /-- declarations for a module of a name -/
  | moduleBody (source : String) (body : List Statement)
  /-- declarations for all texts -/
  | globalBody (body : List Statement)
  deriving Inhabited

/-- The head of a declaration. -/
def Statement.head? : Statement → Option Head
  | .type d => some d.head
  | .enumeration head .. => some head
  | .alias head .. => some head
  | .namespace head .. => some head
  | .function head _ => some head
  | .values head _ => some head
  | _ => none

/-- Whether a statement exports what it declares. -/
def Statement.isExported (s : Statement) : Bool :=
  (s.head?.map (·.has "export")).getD false

/-- Whether a statement makes the text that it stands in a module. -/
def Statement.marksModule : Statement → Bool
  | .links exported bindings =>
    exported || bindings.isEmpty || bindings.any fun b => !(b.2 matches .path _)
  | .exportAll _ => true
  | s => s.isExported

end Metamodel.Source

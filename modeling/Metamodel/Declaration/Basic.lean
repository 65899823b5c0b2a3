import Metamodel.Annotation.Basic
import Metamodel.Location

/-!
# Declarations

The raw view of annotated data-model declarations: classes and interfaces with their members,
annotations and supertypes, as some reader supplies them.
-/

namespace Metamodel

/-- The form in which a member is declared. -/
inductive MemberKind where
  | field
  | accessor
  | method
  deriving DecidableEq, Inhabited

namespace MemberKind

def text : MemberKind → String
  | field => "FIELD"
  | accessor => "ACCESSOR"
  | method => "METHOD"

def all : List MemberKind := [field, accessor, method]

/-- The kind with the given text. -/
def ofText? (s : String) : Option MemberKind :=
  all.find? (·.text == s)

end MemberKind

/-- A modifier of a member. -/
inductive MemberModifier where
  | «private»
  | «protected»
  | static
  | readonly
  | abstract
  | optional
  deriving DecidableEq

namespace MemberModifier

def text : MemberModifier → String
  | «private» => "private"
  | «protected» => "protected"
  | static => "static"
  | readonly => "readonly"
  | abstract => "abstract"
  | optional => "optional"

def all : List MemberModifier :=
  [«private», «protected», static, readonly, abstract, optional]

/-- The modifier with the given text. -/
def ofText? (s : String) : Option MemberModifier :=
  all.find? (·.text == s)

end MemberModifier

/-- A member of a declaration. -/
structure Member where
  name : String
  kind : MemberKind
  /-- the number of parameters of a method -/
  parameterCount : Option Nat
  /-- the type of a field or accessor, or a method's result -/
  type : TypeRef
  modifiers : Option (List MemberModifier)
  annotations : Option (List Annotation)
  source : Option Location
  deriving Inhabited

/-- Whether the member has a modifier. -/
def Member.has (m : Member) (modifier : MemberModifier) : Bool :=
  (m.modifiers.getD []).contains modifier

/-- What is declared. -/
inductive DeclarationKind where
  | «class»
  | interface
  deriving DecidableEq, Inhabited

namespace DeclarationKind

def text : DeclarationKind → String
  | «class» => "CLASS"
  | interface => "INTERFACE"

def all : List DeclarationKind := [«class», interface]

/-- The kind with the given text. -/
def ofText? (s : String) : Option DeclarationKind :=
  all.find? (·.text == s)

end DeclarationKind

/-- A modifier of a declaration. -/
inductive TypeModifier where
  | abstract
  | sealed
  deriving DecidableEq

namespace TypeModifier

def text : TypeModifier → String
  | abstract => "abstract"
  | sealed => "sealed"

def all : List TypeModifier := [abstract, sealed]

/-- The modifier with the given text. -/
def ofText? (s : String) : Option TypeModifier :=
  all.find? (·.text == s)

end TypeModifier

/-- A class or interface. -/
structure Declaration where
  packageName : String
  simpleName : String
  /-- nothing for a declaration that cannot be named -/
  qualifiedName : Option String
  kind : DeclarationKind
  modifiers : Option (List TypeModifier)
  annotations : Option (List Annotation)
  /-- the direct supertypes, extended ones before implemented ones -/
  superTypes : Option (List TypeRef)
  members : Option (List Member)
  source : Option Location
  deriving Inhabited

namespace Declaration

def isInterface (d : Declaration) : Bool :=
  d.kind == .interface

/-- Whether the declaration has a modifier. -/
def has (d : Declaration) (modifier : TypeModifier) : Bool :=
  (d.modifiers.getD []).contains modifier

/-- The direct supertypes as written. -/
def supers (d : Declaration) : List TypeRef :=
  d.superTypes.getD []

end Declaration

end Metamodel

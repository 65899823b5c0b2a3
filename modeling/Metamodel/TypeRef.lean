/-!
# Type references

A reference names a type as a member or a supertype uses it: a primitive, a declared type, a
container with its arguments, no value at all, or a name that could not be resolved.
-/

namespace Metamodel

/-- The container shapes that are told apart. -/
inductive ContainerShape where
  | list
  | set
  | collection
  | map
  deriving DecidableEq

namespace ContainerShape

def text : ContainerShape → String
  | list => "LIST"
  | set => "SET"
  | collection => "COLLECTION"
  | map => "MAP"

def all : List ContainerShape := [list, set, collection, map]

/-- The shape with the given text. -/
def ofText? (s : String) : Option ContainerShape :=
  all.find? (·.text == s)

end ContainerShape

/-- What a type reference stands for. -/
inductive TypeKind where
  | primitive
  | named
  | container
  /-- no value -/
  | void
  | unresolved
  deriving DecidableEq

namespace TypeKind

def text : TypeKind → String
  | primitive => "PRIMITIVE"
  | named => "NAMED"
  | container => "CONTAINER"
  | void => "VOID"
  | unresolved => "UNRESOLVED"

def all : List TypeKind := [primitive, named, container, void, unresolved]

/-- The kind with the given text. -/
def ofText? (s : String) : Option TypeKind :=
  all.find? (·.text == s)

end TypeKind

/-- A reference to a type. -/
structure TypeRef where
  kind : TypeKind
  /-- the primitive's name, the qualified or displayed name of a declared type, the container's own
  name, or the name as written -/
  name : String
  container : Option ContainerShape := none
  typeArgs : Option (List TypeRef) := none
  /-- the project's file that declares the type -/
  file : Option String := none
  /-- whether the written type admits an absent value -/
  nullable : Option Bool := none

namespace TypeRef

instance : Inhabited TypeRef := ⟨⟨.void, "void", none, none, none, none⟩⟩

/-- The type arguments. -/
def args (t : TypeRef) : List TypeRef :=
  t.typeArgs.getD []

def primitive (name : String) : TypeRef :=
  ⟨.primitive, name, none, none, none, none⟩

/-- The absence of a value. -/
def void : TypeRef :=
  ⟨.void, "void", none, none, none, none⟩

/-- A type of which nothing is known. -/
def unknown : TypeRef :=
  primitive "unknown"

/-- A reference that could not be resolved, with its name as written where that is known. -/
def unresolved (written : Option String) : TypeRef :=
  ⟨.unresolved, written.getD "<unresolved>", none, none, none, none⟩

def isUnresolved (t : TypeRef) : Bool :=
  t.kind == .unresolved

/-- The same reference, admitting an absent value. -/
def asNullable (t : TypeRef) : TypeRef :=
  { t with nullable := some true }

mutual

/-- The name with its type arguments, such as `Array<src.model.Phone>`. -/
def display : TypeRef → String
  | ⟨_, name, _, typeArgs, _, _⟩ =>
    match typeArgs with
    | none => name
    | some [] => name
    | some (t :: ts) => name ++ "<" ++ display t ++ displayRest ts ++ ">"

/-- The names of the arguments behind the first one. -/
def displayRest : List TypeRef → String
  | [] => ""
  | t :: ts => ", " ++ display t ++ displayRest ts

end

end TypeRef

end Metamodel

import Metamodel.Source.Library
import Metamodel.Source.Program.Basic

/-!
# Declared names of a program

A name may be declared several times in one place; all its declarations together are one entity. A
place is a text or a namespace in it.
-/

namespace Metamodel.Source

/-- The meanings in which a name is used. -/
inductive Meaning where
  | type
  | value
  | namespace
  deriving DecidableEq

/-- A text, or a namespace in it. -/
structure Site where
  file : String
  path : List String
  deriving DecidableEq, Inhabited

namespace Site

/-- The place itself and the places around it, the innermost first. -/
def outwards (s : Site) : List Site :=
  (List.range (s.path.length + 1)).map fun n => ⟨s.file, s.path.take (s.path.length - n)⟩

/-- The namespace of a name in the place. -/
def inner (s : Site) (name : String) : Site :=
  ⟨s.file, s.path ++ [name]⟩

end Site

/-! ## Statements by name -/

namespace Statement

/-- The names that a statement declares. -/
def names : Statement → List String
  | .type d => d.name.toList
  | .enumeration _ name _ => [name]
  | .alias _ name .. => [name]
  | .namespace _ path _ => path.head?.toList
  | .function _ name => name.toList
  | .values _ vs => vs.map (·.name)
  | _ => []

/-- Whether what a statement declares has a meaning. -/
def has (s : Statement) (m : Meaning) : Bool :=
  match s, m with
  | .type d, .type => d.kind == .class || d.kind == .interface
  | .type d, .value => d.kind == .class
  | .enumeration .., _ => true
  | .alias .., .type => true
  | .namespace _ _ body, .value => !body.isEmpty
  | .namespace .., .namespace => true
  | .function .., .value => true
  | .values .., .value => true
  | _, _ => false

/-- Whether a statement exports what it declares under the name `default`. -/
def isDefault (s : Statement) : Bool :=
  s.isExported && ((s.head?.map (·.has "default")).getD false)

/-- The statements in a namespace that some statements declare. -/
def within (path : List String) (ss : List Statement) : List Statement :=
  match path with
  | [] => ss
  | name :: path =>
    within path (ss.flatMap fun s => match s with
      | .namespace head (x :: xs) body =>
        if x = name then
          if xs.isEmpty then body
          else [.namespace { head with modifiers := "export" :: head.modifiers } xs body]
        else []
      | _ => [])

/-- Whether a namespace that some statements declare is only described by them. -/
def isAmbient (path : List String) (ss : List Statement) : Bool :=
  ss.any fun s => match s with
    | .namespace head p _ => p.isPrefixOf path && head.has "declare"
    | _ => false

end Statement

/-! ## Entities -/

/-- A name with its declarations and their places. -/
structure Declared where
  name : String
  parts : List (Site × Statement)
  deriving Inhabited

/-- What a name stands for. -/
inductive Entity where
  | declared (d : Declared)
  | enumMember (owner : Declared) (name : String)
  /-- a member of a class or an object that is declared in a file -/
  | property (file name : String)
  | module (file : String)
  | library (n : LibraryName)
  /-- a member of a value of the library -/
  | libraryMember (name : String)
  deriving Inhabited

/-- Whether an entity has a meaning. -/
def Entity.has (e : Entity) (m : Meaning) : Bool :=
  match e with
  | .declared d => d.parts.any (·.2.has m)
  | .enumMember .. => m != .namespace
  | .property .. => m == .value
  | .module _ => m != .type
  | .library n => (m == .type && n.isType) || (m == .value && n.isValue) || n.name == "Intl"
  | .libraryMember _ => m == .value

namespace Program

/-- The statements in a place. -/
def statementsAt (p : Program) (s : Site) : List Statement :=
  match p.text? s.file with
  | some text => Statement.within s.path text.statements
  | none => []

/-- The declarations of a name in a place. -/
def declarationsAt (p : Program) (s : Site) (name : String) : List (Site × Statement) :=
  ((p.statementsAt s).filter fun st => st.names.contains name).map (s, ·)

/-- What a name is linked to in a place. -/
def linkAt? (p : Program) (s : Site) (exported : Bool) (name : String) : Option Link :=
  (p.statementsAt s).findSome? fun st => match st with
    | .links e bindings => if e == exported then bindings.lookup name else none
    | _ => none

/-- The entity that some declarations of a name are, if there are any. -/
def entity? (name : String) (parts : List (Site × Statement)) : Option Declared :=
  if parts.isEmpty then none
  else some ⟨if parts.any (·.2.isDefault) then "default" else name, parts⟩

/-- Whether all that is declared in a place is exported. -/
def exportsAll (p : Program) (s : Site) : Bool :=
  ".d.ts".toList.isSuffixOf s.file.toList ||
    ((p.text? s.file).map fun text => Statement.isAmbient s.path text.statements).getD false

/-- The exported declarations of a name in a place. -/
def exportedAt (p : Program) (s : Site) (name : String) : List (Site × Statement) :=
  if name = "default" then
    ((p.statementsAt s).filter fun st =>
      st.isDefault || (st.isExported && st.names.contains name)).map (s, ·)
  else
    (p.declarationsAt s name).filter fun d =>
      (d.2.isExported && !d.2.isDefault) || p.exportsAll s

/-- The declarations of a name that all texts know: those of texts that are no modules, and those
that modules make for all texts. -/
def globalDeclarations (p : Program) (name : String) : List (Site × Statement) :=
  (p.texts.flatMap fun t =>
    if t.2.isModule then [] else p.declarationsAt ⟨t.1, []⟩ name) ++
  p.texts.flatMap fun t =>
    t.2.statements.flatMap fun st => match st with
      | .globalBody body =>
        (body.filter fun st => st.names.contains name).map fun st => (⟨t.1, []⟩, st)
      | _ => []

/-- Whether declarations for all texts cannot stand beside a name of the library. -/
def conflicts (parts : List (Site × Statement)) (n : LibraryName) : Bool :=
  parts.any fun d => match d.2 with
    | .type t => t.kind == .class
    | .enumeration .. => true
    | .alias .. => n.isType
    | .function .. | .values .. => n.isValue
    | _ => false

end Program

end Metamodel.Source

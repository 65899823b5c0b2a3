import Metamodel.Declaration.Source
import Metamodel.Entity.Basic

/-!
# Ancestry

The ancestors whose members an entity takes over: the chain of first supertypes, nearest first,
and then the interfaces among its direct supertypes. The chain ends at a supertype that is
missing, unresolved, undeclared, unnamed or met before; since each step uses up one of the
declared names, it always ends.

`Members.merge` adds an ancestor's members: a property only if there is none of its name, and a
listener only if no nearer type listens with a method of its name.
-/

namespace Metamodel

/-- The ancestors of a declaration, and the references among its supertypes that do not resolve. -/
structure Ancestry where
  ancestors : List String
  unresolved : List String
  deriving DecidableEq

namespace Ancestry

/-- The names of the chain of first supertypes from a declaration, as long as they are among the
names not met before, and the unresolved reference that ends the chain. -/
def chain (s : DeclarationSource) (unmet : List String) (d : Declaration) :
    List String × Option String :=
  match d.supers.head? with
  | none => ([], none)
  | some ref =>
    if ref.kind = .unresolved then ([], some ref.name)
    else
      match s.declarationOf? ref with
      | none => ([], none)
      | some next =>
        match next.knownName? with
        | none => ([], none)
        | some name =>
          if h : name ∈ unmet then
            have := List.length_pos_of_mem h
            have : (unmet.erase name).length < unmet.length := by
              rw [List.length_erase_of_mem h]
              omega
            let (names, last) := chain s (unmet.erase name) next
            (name :: names, last)
          else ([], none)
  termination_by unmet.length

/-- The declared names other than a type's own, each once. -/
def otherNames (s : DeclarationSource) (own : String) : List String :=
  (s.declarations.filterMap Declaration.knownName?).eraseDups.filter (· ≠ own)

/-- The names of the interfaces among the direct supertypes. -/
def interfaces (s : DeclarationSource) (d : Declaration) : List String :=
  d.supers.filterMap fun ref =>
    ((s.declarationOf? ref).filter (·.isInterface)).bind Declaration.knownName?

/-- The ancestry of a declaration with the given qualified name. -/
def of (s : DeclarationSource) (d : Declaration) (own : String) : Ancestry :=
  let (names, last) := chain s (otherNames s own) d
  { ancestors := names ++ interfaces s d
    unresolved :=
      (last.toList ++ (d.supers.filter (·.isUnresolved)).map (·.name)).eraseDups }

end Ancestry

/-- The properties and listeners of a type. -/
structure Members where
  properties : List Property
  listeners : List Listener

namespace Members

/-- Adds a property unless there is one of its name. -/
def addProperty (ancestor : String) (ps : List Property) (p : Property) : List Property :=
  if ps.any (·.name == p.name) then ps else ps ++ [p.inherited ancestor]

/-- Adds the members of an ancestor. -/
def merge (m : Members) (ancestor : Entity) : Members where
  properties := ancestor.properties.foldl (addProperty ancestor.qualifiedName) m.properties
  listeners := m.listeners ++
    (ancestor.listeners.filter fun l => !m.listeners.any (·.methodName == l.methodName)).map
      (·.inherited ancestor.qualifiedName)

/-- Adds the members of the ancestors that have been built, in order. -/
def mergeAll (m : Members) (lookup : String → Option Entity) (names : List String) : Members :=
  (names.filterMap lookup).foldl merge m

end Members

end Metamodel

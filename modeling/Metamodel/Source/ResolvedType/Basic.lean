import Metamodel.Source.Program.Entity

/-!
# Resolved types

What a written type stands for in a program. Unions are flat and hold no member twice
(`ResolvedType.unionOf`).
-/

namespace Metamodel.Source

/-- Where a declared type comes from. -/
structure Origin where
  name : String
  file : String
  path : List String
  /-- the path, in the project, of its first declaration in a scanned file -/
  home : Option String
  deriving DecidableEq, Inhabited

/-- The origin of a declared name. -/
def Declared.origin (p : Program) (d : Declared) : Origin :=
  let site := (d.parts.head?.map (·.1)).getD default
  ⟨d.name, site.file, site.path, d.parts.findSome? fun part => p.scanned.lookup part.1.file⟩

/-- A resolved type. -/
inductive ResolvedType where
  /-- a type of which nothing is known; `failed` is set where an error is the reason -/
  | any (failed : Bool)
  | unknown
  | never
  | void
  | undefined
  | null
  | scalar (s : Scalar)
  | literal (s : Scalar) (text : String)
  /-- one value of an enumeration; `sole` is set where the enumeration has no other -/
  | enumMember (owner : Origin) (value : String) (s : Scalar) (sole : Bool)
  /-- an enumeration of several values of the given classes, or of none -/
  | enumeration (owner : Origin) (values : List Scalar)
  | list (readonly : Bool) (element : ResolvedType)
  | library (name : String) (args : List ResolvedType)
  | declared (origin : Origin) (args : List ResolvedType)
  | union (members : List ResolvedType)
  /-- a function, an object without a name, a tuple, a type parameter -/
  | shape
  deriving Inhabited

namespace ResolvedType

mutual

/-- Whether two types are the same. -/
def same : ResolvedType → ResolvedType → Bool
  | .any a, .any b => a == b
  | .unknown, .unknown => true
  | .never, .never => true
  | .void, .void => true
  | .undefined, .undefined => true
  | .null, .null => true
  | .scalar a, .scalar b => a == b
  | .literal a s, .literal b t => a == b && s == t
  | .enumMember o v _ _, .enumMember q w _ _ => o == q && v == w
  | .enumeration o _, .enumeration q _ => o == q
  | .list r a, .list s b => r == s && same a b
  | .library n as, .library m bs => n == m && sameAll as bs
  | .declared o as, .declared q bs => o == q && sameAll as bs
  | .union as, .union bs => sameAll as bs
  | .shape, .shape => true
  | _, _ => false

/-- Whether two lists of types are the same. -/
def sameAll : List ResolvedType → List ResolvedType → Bool
  | [], [] => true
  | a :: as, b :: bs => same a b && sameAll as bs
  | _, _ => false

end

/-! ## Unions -/

/-- The members of a type as a member of a union. -/
def members : ResolvedType → List ResolvedType
  | .union ts => ts
  | t => [t]

/-- Whether a type is that of an absent value. -/
def isAbsent : ResolvedType → Bool
  | .void | .undefined | .null => true
  | _ => false

/-- The first occurrences of some types. -/
def distinct (ts : List ResolvedType) : List ResolvedType :=
  (ts.foldl (fun seen t => if seen.any (same t) then seen else t :: seen) []).reverse

/-- The union of some types. A type of which nothing is known takes up all others. Where absent
values are not told apart, null and undefined do not count beside other types. -/
def unionOf (strict : Bool) (ts : List ResolvedType) : ResolvedType :=
  let all := ts.flatMap members
  if all.any fun t => t matches .any _ then .any (all.any fun t => t matches .any true)
  else if all.any fun t => t matches .unknown then .unknown
  else
    let kept := distinct (all.filter fun t =>
      match t with
      | .never => false
      | .null | .undefined => strict
      | _ => true)
    match kept with
    | [] => (all.find? isAbsent).getD .never
    | [t] => t
    | ts => .union ts

/-- The type without its absent values. -/
def present (t : ResolvedType) : ResolvedType :=
  unionOf true (t.members.filter fun m => match m with
    | .null | .undefined => false
    | _ => true)

/-! ## Types made member by member -/

/-- The type of a name made of the members of another type one by one. Plain values stay what they
are; the elements of a list are the members of a list. -/
def memberwise (strict : Bool) (name : String) (t : ResolvedType) : ResolvedType :=
  let single (t : ResolvedType) : ResolvedType := match t with
    | .any false => .library name [t]
    | .unknown => .library name [t]
    | .list readonly element =>
      if name = "Readonly" then .list true element
      else if name = "Partial" then .list readonly (unionOf strict [element, .undefined])
      else .list readonly element.present
    | .library _ _ => .library name [t]
    | .declared _ _ => .library name [t]
    | .shape => .library name [t]
    | _ => t
  unionOf strict (t.members.map single)

end ResolvedType

/-! ## Values of enumerations -/

/-- The value of a member of an enumeration. -/
inductive EnumValue where
  | number (value : Decimal.Binary64)
  | text (value : String)
  /-- a value that is known when it is computed -/
  | computed
  deriving DecidableEq

/-- The values of the members of an enumeration. A member without a value takes the number behind
that of the member in front of it. -/
def enumValues : Option Decimal.Binary64 → List (String × EnumValue) →
    List (String × Option Expression) → List (String × EnumValue)
  | _, known, [] => known
  | next, known, (name, e) :: rest =>
    let earlier (n : String) : EnumValue := (known.lookup n).getD .computed
    let value : EnumValue := match e with
      | none => (next.map EnumValue.number).getD .computed
      | some (.number v) => .number v
      | some (.negative (.number v)) => .number v.negate
      | some (.text s) => .text s
      | some (.word n) => earlier n
      | some (.member _ n _) => earlier n
      | _ => .computed
    let next := match value with
      | .number v => some (v.add (.ofNat 1))
      | _ => none
    enumValues next (known ++ [(name, value)]) rest

namespace Declared

/-- The members of an enumeration with their values. -/
def enumMembers (d : Declared) : List (String × EnumValue) :=
  d.parts.flatMap fun part => match part.2 with
    | .enumeration _ _ members => enumValues (some (.ofNat 0)) [] members
    | _ => []

/-- What tells the value of a member from others: the value, or the name where it is computed. -/
def enumKey (name : String) : EnumValue → String
  | .number v => "number " ++ v.text
  | .text s => "text " ++ s
  | .computed => "computed " ++ name

/-- The class of a value. -/
def enumScalar : EnumValue → Scalar
  | .text _ => .string
  | _ => .number

/-- The type of a member of an enumeration. -/
def enumMemberType (p : Program) (d : Declared) (name : String) : ResolvedType :=
  let members := d.enumMembers
  let keys := (members.map fun m => enumKey m.1 m.2).eraseDups
  let value := (members.lookup name).getD .computed
  .enumMember (d.origin p) (enumKey name value) (enumScalar value) (keys.length < 2)

/-- The type of an enumeration: that of its member when it has only one. -/
def enumType (p : Program) (d : Declared) : ResolvedType :=
  let members := d.enumMembers
  match members, (members.map fun m => enumKey m.1 m.2).eraseDups with
  | m :: _, [_] => d.enumMemberType p m.1
  | _, _ => .enumeration (d.origin p) (members.map fun m => enumScalar m.2)

end Declared

end Metamodel.Source

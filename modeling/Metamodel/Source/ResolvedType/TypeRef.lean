import Metamodel.Package
import Metamodel.Source.ResolvedType.Evaluation
import Metamodel.TypeRef

/-!
# Resolved types to type references

A reference keeps of a type what a data model can use: plain values, declared types with their
arguments, containers, and the absence of a value. A written name that leads nowhere stays visible:
its type says nothing any more, so the written type is followed beside the resolved one.
-/

namespace Metamodel.Source

/-- The library's types that count as plain values. -/
def libraryPrimitives : List String := ["Date", "Uint8Array"]

/-- The library's containers. -/
def libraryContainers : List (String × ContainerShape) :=
  [("Array", .list), ("ReadonlyArray", .list), ("Set", .set), ("ReadonlySet", .set),
    ("Map", .map), ("ReadonlyMap", .map), ("Record", .map), ("Iterable", .collection)]

/-- The depth beyond which a type is unknown. -/
def maxTypeDepth : Nat := 16

/-- The reference to a declared type. -/
def Origin.typeRef (o : Origin) (args : List TypeRef) : TypeRef :=
  { kind := .named
    name := match o.home with
      | some file => qualify (packageOfFile file) o.name
      | none => o.name
    container := none
    typeArgs := if args.isEmpty then none else some args
    file := o.home
    nullable := none }

/-- The reference to a type that is known by its name alone. -/
def namedRef (name : String) : TypeRef :=
  ⟨.named, name, none, none, none, none⟩

namespace TypeExpr

/-- The only member of a written union that is not absent; any other type is itself. -/
def presentMember? : TypeExpr → Option TypeExpr
  | .union es =>
    match es.filter fun e => match e with
      | .null => false
      | .keyword name => name != "undefined" && name != "void"
      | _ => true with
    | [e] => some e
    | _ => none
  | e => some e

/-- Whether a written type is a union. -/
def isUnion (e : TypeExpr) : Bool :=
  e matches .union _

/-- The written types that stand for the arguments of a type. -/
def argumentExprs : TypeExpr → List TypeExpr
  | .array e => [e]
  | .readonly e => argumentExprs e
  | .reference _ _ args => args
  | _ => []

end TypeExpr

/-- The name of a written type, as written, that leads nowhere. -/
def Program.unresolvedName? (p : Program) (s : TypeScope) : TypeExpr → Option String
  | .reference path written _ =>
    if path.head?.any fun name => s.parameters.any (·.1 == name) then none
    else if (p.resolve? s.site path [.type]).isSome then none
    else some written
  | _ => none

namespace ResolvedType

/-- Whether a type has only values of a class of plain values. -/
def isOf (scalar : Scalar) : ResolvedType → Bool
  | .scalar s => s == scalar
  | .literal s _ => s == scalar
  | .enumMember _ _ s _ => s == scalar
  | .enumeration _ values => values.all (· == scalar)
  | _ => false

/-- The enumeration that a type is a part of. -/
def enumOrigin? : ResolvedType → Option Origin
  | .enumMember o .. => some o
  | .enumeration o _ => some o
  | _ => none

/-- The position of a type's enumeration among others. -/
def enumRank (order : List Origin) (t : ResolvedType) : Nat :=
  (t.enumOrigin?.map fun o => order.idxOf o).getD order.length

/-- The member of some types whose enumeration comes first. -/
def firstEnum? (order : List Origin) (ts : List ResolvedType) : Option ResolvedType :=
  ts.foldl
    (fun found t => match found with
      | none => some t
      | some u => if t.enumRank order < u.enumRank order then some t else some u) none

end ResolvedType

/-- What the references of a program's types depend on. -/
structure RefContext where
  program : Program
  scope : TypeScope
  /-- the enumerations in the order in which the program mentions them -/
  enums : List Origin

namespace RefContext

/-- The reference to an enumeration, or to the plain value that the only member of one is. -/
def enumRef (t : ResolvedType) : TypeRef :=
  match t with
  | .enumMember o _ s sole => if sole then .primitive s.name else o.typeRef []
  | .enumeration o _ => o.typeRef []
  | _ => .unknown

/-- The reference to a union of the given members, none of them absent, of which there are
several. -/
def mixedRef (c : RefContext) (ts : List ResolvedType) : TypeRef :=
  if ts.all (·.isOf .boolean) then .primitive "boolean"
  else if ts.all (·.enumOrigin?.isSome) then
    ((ResolvedType.firstEnum? c.enums ts).map enumRef).getD .unknown
  else if ts.all (·.isOf .string) then .primitive "string"
  else if ts.all (·.isOf .number) then .primitive "number"
  else .unknown

mutual

/-- The reference to a type that is written as the given expression; `n` bounds its depth. -/
def refFrom (c : RefContext) : Nat → ResolvedType → Option TypeExpr → TypeRef
  | 0, _, _ => .unknown
  | n + 1, t, written =>
    match (written.bind TypeExpr.presentMember?).bind (c.program.unresolvedName? c.scope) with
    | some name =>
      if (written.map TypeExpr.isUnion).getD false then (TypeRef.unresolved (some name)).asNullable
      else .unresolved (some name)
    | none =>
      let exprs := (written.map TypeExpr.argumentExprs).getD []
      match t with
      | .any _ | .unknown | .shape => .unknown
      | .never | .void | .undefined | .null => .void
      | .scalar s => .primitive s.name
      | .literal s _ => .primitive s.name
      | .enumMember _ _ s _ => .primitive s.name
      | .enumeration o _ => o.typeRef []
      | .list _ element =>
        ⟨.container, "Array", some .list, some (refsFrom c n [element] exprs), none, none⟩
      | .library name args =>
        if libraryPrimitives.contains name then .primitive name
        else
          match libraryContainers.lookup name with
          | some shape =>
            ⟨.container, name, some shape, some (refsFrom c n args exprs), none, none⟩
          | none => namedRef name
      | .declared o args => o.typeRef (refsFrom c n args exprs)
      | .union ts =>
        let rest := ts.filter fun t => !t.isAbsent
        let whole := match rest with
          | [] => .void
          | [t] => refFrom c n t (written.bind TypeExpr.presentMember?)
          | ts => c.mixedRef ts
        if rest.length < ts.length && !rest.isEmpty then whole.asNullable else whole

/-- The references to arguments that are written as the given expressions. -/
def refsFrom (c : RefContext) : Nat → List ResolvedType → List TypeExpr → List TypeRef
  | _, [], _ => []
  | n, t :: ts, exprs => refFrom c n t exprs.head? :: refsFrom c n ts (exprs.drop 1)

end

/-- The reference to a type, with the expression that it is written as. -/
def ref (c : RefContext) (t : ResolvedType) (written : Option TypeExpr) : TypeRef :=
  c.refFrom (maxTypeDepth + 1) t written

end RefContext

namespace Program

/-- The reference to what a name stands for. -/
def entityRef (p : Program) : Entity → TypeRef
  | .declared d => (d.origin p).typeRef []
  | .enumMember d name => ({ d.origin p with name := name } : Origin).typeRef []
  | .property file name => (Origin.mk name file [] (p.scanned.lookup file)).typeRef []
  | .module file => (Origin.mk (moduleName file) file [] (p.scanned.lookup file)).typeRef []
  | .library n => namedRef n.name
  | .libraryMember name => namedRef name

/-- The reference to a supertype of a declaration. -/
def supertypeRef (p : Program) (s : TypeScope) (ms : List Meaning) (t : Supertype) : TypeRef :=
  match t.expression.path? with
  | none => .unresolved (some t.written)
  | some path =>
    match s.parameters.find? (fun q => [q.1] == path), p.resolve? s.site path ms with
    | some q, _ => p.entityRef (.property s.site.file q.1)
    | none, some e => p.entityRef e
    | none, none => .unresolved (some t.written)

end Program

end Metamodel.Source

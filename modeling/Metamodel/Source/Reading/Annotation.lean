import Metamodel.Annotation.Catalog
import Metamodel.Annotation.TagComment
import Metamodel.Source.ResolvedType.TypeRef

/-!
# Annotations of source texts

The annotations of a declaration are its decorators and then the tags of its documentation comment,
as far as their names are recognized. The first argument of a decorator gives the values: an object
gives one for each of its fields, any other argument the one under `value`.
-/

namespace Metamodel.Source

/-- The names of recognized annotations. -/
def annotationNames : List String := (Catalog.create true).names

namespace Program

/-- The value of a name in an annotation: the name of a member of an enumeration, or the type that
it refers to. -/
def referenceValue (p : Program) (s : Site) (e : Expression) (written : String) :
    AnnotationValue :=
  match e.path?.bind fun path => p.resolve? s path [.value] with
  | some (.enumMember _ name) => .string name
  | some found => .type (p.entityRef found)
  | none => .type (.unresolved (some written))

/-- The value that an expression gives to an annotation, if it gives one. -/
def expressionValue? (p : Program) (s : Site) (e : Expression) : Option AnnotationValue :=
  match e with
  | .text value => some (.string value)
  | .number value => some (.number value)
  | .negative (.number value) => some (.number value.negate)
  | .boolean value => some (.boolean value)
  | .word name => some (p.referenceValue s (.word name) name)
  | .member base name written => some (p.referenceValue s (.member base name written) written)
  | .array items => some (.strings (items.filterMap fun item => match item with
    | .text value => some value
    | .word name => enumName? (.word name)
    | .member base name written => enumName? (.member base name written)
    | _ => none))
  | _ => none
where
  enumName? (e : Expression) : Option String :=
    match e.path?.bind fun path => p.resolve? s path [.value] with
    | some (.enumMember _ name) => some name
    | _ => none

/-- The values that the first argument of a decorator gives. A later field of a name replaces an
earlier one; the prototype's name is no field. -/
def argumentValues (p : Program) (s : Site) (e : Expression) : List (String × AnnotationValue) :=
  match e with
  | .object fields =>
    Json.visitingOrder (fields.foldl
      (fun acc f =>
        if f.1 = "" ∨ f.1 = Json.prototypeName then acc
        else match p.expressionValue? s f.2 with
          | some v => Json.setMember acc f.1 v
          | none => acc) [])
  | e => ((p.expressionValue? s e).map ("value", ·)).toList

/-- The annotation that a decorator is, if its name is recognized. -/
def decoratorAnnotation? (p : Program) (s : Site) (e : Expression) : Option Annotation :=
  let (callee, values) := match e with
    | .call callee args => (callee, (args.head?.map (p.argumentValues s)).getD [])
    | e => (e, [])
  callee.lastName?.bind fun name =>
    if annotationNames.contains name then
      some ⟨name, if values.isEmpty then none else some values⟩
    else none

/-- The annotations of a declaration. -/
def annotations (p : Program) (s : Site) (head : Head) : List Annotation :=
  head.decorators.filterMap (p.decoratorAnnotation? s) ++
    head.tags.filterMap fun t =>
      if annotationNames.contains t.name then some ⟨t.name, TagComment.values? t.comment⟩
      else none

end Program

/-- Whether the documentation comment of a declaration says that it has no subtypes. -/
def Head.isSealed (head : Head) : Bool :=
  head.tags.any fun t => t.name == "sealed" || t.name == "final"

end Metamodel.Source

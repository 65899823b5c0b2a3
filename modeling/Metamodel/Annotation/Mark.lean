import Metamodel.Annotation.Basic
import Metamodel.Annotation.Catalog
import Metamodel.Text.Blank

/-!
# Marks

A mark is an annotation that the catalog recognizes, with its kind and a typed view of its
values.
-/

namespace Metamodel

/-- A recognized annotation. -/
structure Mark where
  name : String
  kind : AnnotationKind
  dialect : Dialect
  values : List (String × AnnotationValue)

namespace Mark

/-- Whether a value stands under the key. -/
def has (m : Mark) (key : String) : Bool :=
  (m.values.lookup key).isSome

/-- The keys in dictionary order. -/
def keys (m : Mark) : List String :=
  Text.collated (m.values.map (·.1))

def getString? (m : Mark) (key : String) : Option String :=
  match m.values.lookup key with
  | some (.string s) => some s
  | _ => none

def getBoolean? (m : Mark) (key : String) : Option Bool :=
  match m.values.lookup key with
  | some (.boolean b) => some b
  | _ => none

def getNumber? (m : Mark) (key : String) : Option Decimal.Binary64 :=
  match m.values.lookup key with
  | some (.number x) => some x
  | _ => none

/-- The strings under a key, of which a single string is one. -/
def getStrings? (m : Mark) (key : String) : Option (List String) :=
  match m.values.lookup key with
  | some (.strings xs) => some xs
  | some (.string s) => some [s]
  | _ => none

def getType? (m : Mark) (key : String) : Option TypeRef :=
  match m.values.lookup key with
  | some (.type t) => some t
  | _ => none

/-- The string under `name`, or else the unnamed one, unless it is blank. -/
def givenName? (m : Mark) : Option String :=
  ((m.getString? "name").or (m.getString? "value")).filter (!Text.isBlankText ·)

end Mark

/-- The recognized ones among annotations, in the order as written. -/
def marksOf (catalog : Catalog) (annotations : List Annotation) : List Mark :=
  annotations.filterMap fun a =>
    (catalog.lookup? a.name).map fun e => ⟨a.name, e.kind, e.dialect, a.values.getD []⟩

/-- The first mark of a kind. -/
def findMark? (marks : List Mark) (kind : AnnotationKind) : Option Mark :=
  marks.find? (·.kind == kind)

/-- Whether there is a mark of a kind. -/
def hasMark (marks : List Mark) (kind : AnnotationKind) : Bool :=
  marks.any (·.kind == kind)

end Metamodel

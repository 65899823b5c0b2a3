import Mathlib.Data.List.Forall2
import Metamodel.Declaration.Json
import Metamodel.Proofs.Schema.Acceptance

/-!
# The JSON forms of declarations

`WrittenAs` relates each record of a declaration set to the values that are its JSON form: objects
with the members of the record and no others, of which the optional ones may be missing. The
schema accepts a value as a record exactly when it is the form of one
(`Declaration.setProblems_eq_nil_iff` for whole sets).
-/

namespace Metamodel

open Decimal (Binary64)

/-! ## Parts of records -/

section Parts

variable {α : Type}

/-- An array of what the items of a list are written as. -/
def ListWrittenAs (item : α → Json → Prop) (as : List α) (v : Json) : Prop :=
  ∃ xs, v = .array xs ∧ List.Forall₂ item as xs

/-- An object of what the values of a table are written as, under the same names. -/
def TableWrittenAs (value : α → Json → Prop) (as : List (String × α)) (v : Json) : Prop :=
  ∃ ms, v = .object ms ∧ List.Forall₂ (fun a m => a.1 = m.1 ∧ value a.2 m.2) as ms

end Parts

/-- A member that counts something, from a minimum on. A text such as `1e999` stands for a number
beyond all finite ones, which is at least the minimum but counts nothing. -/
inductive CountWrittenAs (minimum : Nat) : Option Nat → Option Json → Prop where
  | absent : CountWrittenAs minimum none none
  | whole {n : Nat} {x : Binary64} (value : x.toInt? = some (n : Int)) (least : minimum ≤ n) :
    CountWrittenAs minimum (some n) (some (.number x))
  | infinite : CountWrittenAs minimum none (some (.number (.infinite false)))

/-- A member for a name that may be missing; null says that it is. -/
inductive NameWrittenAs : Option String → Option Json → Prop where
  | absent : NameWrittenAs none none
  | null : NameWrittenAs none (some .null)
  | name (s : String) : NameWrittenAs (some s) (some (.string s))

/-! ## Records -/

/-- The value is the JSON form of a location. -/
structure Location.WrittenAs (l : Location) (v : Json) : Prop where
  members : v.HasOnly ["file", "line", "col"]
  file : v.get? "file" = some (.string l.file)
  line : CountWrittenAs 1 l.line (v.get? "line")
  column : CountWrittenAs 1 l.column (v.get? "col")

/-- The value has the members of a type reference, whatever its arguments are. -/
structure TypeRef.HeadWrittenAs (t : TypeRef) (v : Json) : Prop where
  members : v.HasOnly ["kind", "name", "container", "typeArgs", "file", "nullable"]
  kind : v.get? "kind" = some (.string t.kind.text)
  name : v.get? "name" = some (.string t.name)
  container : v.get? "container" = t.container.map (.string ·.text)
  file : v.get? "file" = t.file.map .string
  nullable : v.get? "nullable" = t.nullable.map .bool

/-- The value is the JSON form of a type reference. -/
inductive TypeRef.WrittenAs : TypeRef → Json → Prop where
  | bare {t : TypeRef} {v : Json} (head : t.HeadWrittenAs v) (args : t.typeArgs = none)
    (written : v.get? "typeArgs" = none) : TypeRef.WrittenAs t v
  | applied {t : TypeRef} {v : Json} {ts : List TypeRef} {xs : List Json}
    (head : t.HeadWrittenAs v) (args : t.typeArgs = some ts)
    (written : v.get? "typeArgs" = some (.array xs))
    (items : List.Forall₂ TypeRef.WrittenAs ts xs) : TypeRef.WrittenAs t v

/-- An object with a kind and a value. -/
structure Json.IsTagged (v : Json) (kind : String) (value : Json) : Prop where
  members : v.HasOnly ["kind", "value"]
  kind : v.get? "kind" = some (.string kind)
  value : v.get? "value" = some value

/-- The value is the JSON form of an annotation value, in one of five forms. -/
inductive AnnotationValue.WrittenAs : AnnotationValue → Json → Prop where
  | string {v : Json} {s : String} (h : v.IsTagged "string" (.string s)) :
    AnnotationValue.WrittenAs (.string s) v
  | number {v : Json} {x : Binary64} (h : v.IsTagged "number" (.number x)) :
    AnnotationValue.WrittenAs (.number x) v
  | boolean {v : Json} {b : Bool} (h : v.IsTagged "boolean" (.bool b)) :
    AnnotationValue.WrittenAs (.boolean b) v
  | strings {v : Json} {xs : List String} (h : v.IsTagged "strings" (.strings xs)) :
    AnnotationValue.WrittenAs (.strings xs) v
  | type {v w : Json} {t : TypeRef} (h : v.IsTagged "type" w) (ref : t.WrittenAs w) :
    AnnotationValue.WrittenAs (.type t) v

/-- The value is the JSON form of an annotation. -/
structure Annotation.WrittenAs (a : Annotation) (v : Json) : Prop where
  members : v.HasOnly ["name", "values"]
  name : v.get? "name" = some (.string a.name)
  nameGiven : a.name ≠ ""
  values : Option.Rel (TableWrittenAs AnnotationValue.WrittenAs) a.values (v.get? "values")

/-- The value is the JSON form of a member. -/
structure Member.WrittenAs (m : Member) (v : Json) : Prop where
  members : v.HasOnly
    ["name", "kind", "parameterCount", "type", "modifiers", "annotations", "source"]
  name : v.get? "name" = some (.string m.name)
  kind : v.get? "kind" = some (.string m.kind.text)
  parameterCount : CountWrittenAs 0 m.parameterCount (v.get? "parameterCount")
  type : Option.Rel TypeRef.WrittenAs (some m.type) (v.get? "type")
  modifiers : v.get? "modifiers" = m.modifiers.map fun ms => .strings (ms.map (·.text))
  annotations : Option.Rel (ListWrittenAs Annotation.WrittenAs) m.annotations
    (v.get? "annotations")
  source : Option.Rel Location.WrittenAs m.source (v.get? "source")

/-- The value is the JSON form of a declaration. -/
structure Declaration.WrittenAs (d : Declaration) (v : Json) : Prop where
  members : v.HasOnly
    ["packageName", "simpleName", "qualifiedName", "declarationKind", "modifiers", "annotations",
      "superTypes", "members", "source"]
  packageName : v.get? "packageName" = some (.string d.packageName)
  simpleName : v.get? "simpleName" = some (.string d.simpleName)
  qualifiedName : NameWrittenAs d.qualifiedName (v.get? "qualifiedName")
  kind : v.get? "declarationKind" = some (.string d.kind.text)
  modifiers : v.get? "modifiers" = d.modifiers.map fun ms => .strings (ms.map (·.text))
  annotations : Option.Rel (ListWrittenAs Annotation.WrittenAs) d.annotations
    (v.get? "annotations")
  superTypes : Option.Rel (ListWrittenAs TypeRef.WrittenAs) d.superTypes (v.get? "superTypes")
  ownMembers : Option.Rel (ListWrittenAs Member.WrittenAs) d.members (v.get? "members")
  source : Option.Rel Location.WrittenAs d.source (v.get? "source")

namespace Schema

variable {α Shape : Type} {R : Records Shape} {name : String} {form : Form Shape}

end Schema

namespace Declaration

open Schema

theorem sizeOf_of_mem_get? {v : Json} {name : String} {xs : List Json} {x : Json}
    (h : v.get? name = some (.array xs)) (hx : x ∈ xs) : sizeOf x < sizeOf v := by
  cases v with
  | object ms => exact Nat.lt_trans (sizeOf_of_mem_items hx) (sizeOf_of_lookup h)
  | _ => cases h

theorem writtenAs_typeRef_iff {t : TypeRef} {v : Json} :
    t.WrittenAs v ↔ t.HeadWrittenAs v ∧
      Option.Rel (ListWrittenAs TypeRef.WrittenAs) t.typeArgs (v.get? "typeArgs") := by
  constructor
  · intro h
    cases h with
    | bare head args written =>
      rw [args, written]
      exact ⟨head, .none⟩
    | applied head args written items =>
      rw [args, written]
      exact ⟨head, .some ⟨_, rfl, items⟩⟩
  · rintro ⟨head, hargs⟩
    generalize hts : t.typeArgs = args, hw : v.get? "typeArgs" = w at hargs
    cases hargs with
    | none => exact .bare head hts hw
    | some h =>
      obtain ⟨xs, rfl, items⟩ := h
      exact .applied head hts hw items

end Declaration

end Metamodel

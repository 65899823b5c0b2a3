import Metamodel.Json.Basic

/-!
# Schemas

A schema says which form a JSON value must have. A form is a kind of atom, a list of values of one
form, a table of them under free names, a record with named fields, or exactly one of several
records. Records are named by the elements of a type `Shape`, so that a record may hold others
like itself.

`problems` lists all that is wrong with a value: at a record first the missing fields, then one
problem for each unknown member, and then the problems of the fields in the order of the schema.
-/

namespace Metamodel.Schema

/-- The kinds of JSON values that a schema asks for. -/
inductive ValueKind where
  | object
  | array
  | string
  | boolean
  | number
  | integer
  | stringOrNull
  deriving DecidableEq

def ValueKind.text : ValueKind → String
  | object => "object"
  | array => "array"
  | string => "string"
  | boolean => "boolean"
  | number => "number"
  | integer => "integer"
  | stringOrNull => "string,null"

/-- What is wrong with a value. -/
inductive Issue where
  | kind (expected : ValueKind)
  | missing (field : String)
  | unknownMember
  | notConstant
  | notAllowed
  | tooShort (length : Nat)
  | tooSmall (minimum : Nat)
  | notExactlyOne
  deriving DecidableEq

def Issue.message : Issue → String
  | kind expected => "must be " ++ expected.text
  | missing field => "must have required property '" ++ field ++ "'"
  | unknownMember => "must NOT have additional properties"
  | notConstant => "must be equal to constant"
  | notAllowed => "must be equal to one of the allowed values"
  | tooShort length => "must NOT have fewer than " ++ toString length ++ " characters"
  | tooSmall minimum => "must be >= " ++ toString minimum
  | notExactlyOne => "must match exactly one schema in oneOf"

/-- Something wrong with the part of a value that a path of names and indexes leads to. -/
structure Problem where
  path : List String
  issue : Issue
  deriving DecidableEq

/-- A name within a path, with its slashes and tildes escaped. -/
def escapeName (name : String) : String :=
  String.ofList (name.toList.flatMap fun c =>
    if c = '~' then ['~', '0'] else if c = '/' then ['~', '1'] else [c])

/-- The path of a problem; the whole value is `/`. -/
def Problem.pathText (p : Problem) : String :=
  if p.path.isEmpty then "/" else String.join (p.path.map fun name => "/" ++ escapeName name)

/-- The problem on one line. -/
def Problem.line (p : Problem) : String :=
  p.pathText ++ " " ++ p.issue.message

/-- The form of a value, where records are named by shapes. -/
inductive Form (Shape : Type) where
  | string (minLength : Nat)
  | stringOrNull
  | boolean
  | number
  | integer (minimum : Nat)
  | constant (text : String)
  | oneOfTexts (texts : List String)
  | list (items : Form Shape)
  | table (values : Form Shape)
  | record (shape : Shape)
  | exactlyOne (shapes : List Shape)

/-- A field of a record. -/
structure FieldForm (Shape : Type) where
  name : String
  required : Bool
  form : Form Shape

/-- The fields of each shape of record. -/
abbrev Records (Shape : Type) := Shape → List (FieldForm Shape)

theorem sizeOf_of_lookup {ms : List (String × Json)} {name : String} {v : Json}
    (h : ms.lookup name = some v) : sizeOf v < sizeOf (Json.object ms) := by
  induction ms with
  | nil => simp at h
  | cons m ms ih =>
    obtain ⟨k, w⟩ := m
    rw [List.lookup_cons] at h
    split at h
    · simp only [Option.some.injEq] at h
      subst h
      simp
      omega
    · have := ih h
      simp at this ⊢
      omega

theorem sizeOf_of_mem_members {ms : List (String × Json)} {m : String × Json} (h : m ∈ ms) :
    sizeOf m.2 < sizeOf (Json.object ms) := by
  have := List.sizeOf_lt_of_mem h
  obtain ⟨k, v⟩ := m
  simp at this ⊢
  omega

theorem sizeOf_of_mem_items {xs : List Json} {x : Json} (h : x ∈ xs) :
    sizeOf x < sizeOf (Json.array xs) := by
  have := List.sizeOf_lt_of_mem h
  simp
  omega

/-- The required fields that an object lacks, and then its unknown members. -/
def memberProblems {Shape : Type} (path : List String) (fields : List (FieldForm Shape))
    (ms : List (String × Json)) : List Problem :=
  (fields.filter fun f => f.required && (ms.lookup f.name).isNone).map
    (⟨path, .missing ·.name⟩) ++
  (ms.filter fun m => !fields.any (·.name == m.1)).map fun _ => ⟨path, .unknownMember⟩

mutual

/-- What is wrong with a value of a form. -/
def problems {Shape : Type} (records : Records Shape) (path : List String) (form : Form Shape)
    (v : Json) : List Problem :=
  match form with
  | .string minLength =>
    match v with
    | .string s => if s.length < minLength then [⟨path, .tooShort minLength⟩] else []
    | _ => [⟨path, .kind .string⟩]
  | .stringOrNull =>
    match v with
    | .string _ | .null => []
    | _ => [⟨path, .kind .stringOrNull⟩]
  | .boolean =>
    match v with
    | .bool _ => []
    | _ => [⟨path, .kind .boolean⟩]
  | .number =>
    match v with
    | .number _ => []
    | _ => [⟨path, .kind .number⟩]
  | .integer minimum =>
    match v with
    | .number x =>
      (if x.isWhole then [] else [⟨path, .kind .integer⟩]) ++
        if x.atLeast minimum then [] else [⟨path, .tooSmall minimum⟩]
    | _ => [⟨path, .kind .integer⟩]
  | .constant text =>
    match v with
    | .string s => if s = text then [] else [⟨path, .notConstant⟩]
    | _ => [⟨path, .notConstant⟩]
  | .oneOfTexts texts =>
    match v with
    | .string s => if s ∈ texts then [] else [⟨path, .notAllowed⟩]
    | _ => [⟨path, .notAllowed⟩]
  | .list items =>
    match v with
    | .array xs =>
      xs.attach.zipIdx.flatMap fun p =>
        have := sizeOf_of_mem_items p.1.2
        problems records (path ++ [toString p.2]) items p.1.1
    | _ => [⟨path, .kind .array⟩]
  | .table values =>
    match v with
    | .object ms =>
      ms.attach.flatMap fun m =>
        have := sizeOf_of_mem_members m.2
        problems records (path ++ [m.1.1]) values m.1.2
    | _ => [⟨path, .kind .object⟩]
  | .record shape => recordProblems records path shape v
  | .exactlyOne shapes =>
    let found := shapes.map fun shape => recordProblems records path shape v
    if found.countP (·.isEmpty) = 1 then [] else found.flatten ++ [⟨path, .notExactlyOne⟩]
  termination_by (sizeOf v, 1)
  decreasing_by all_goals (first | (apply Prod.Lex.left; assumption) | (apply Prod.Lex.right; simp))

/-- What is wrong with a value as a record of a shape. -/
def recordProblems {Shape : Type} (records : Records Shape) (path : List String) (shape : Shape)
    (v : Json) : List Problem :=
  match v with
  | .object ms =>
    memberProblems path (records shape) ms ++
      (records shape).flatMap fun f =>
        match h : ms.lookup f.name with
        | some w =>
          have := sizeOf_of_lookup h
          problems records (path ++ [f.name]) f.form w
        | none => []
  | _ => [⟨path, .kind .object⟩]
  termination_by (sizeOf v, 0)
  decreasing_by apply Prod.Lex.left; assumption

end

end Metamodel.Schema

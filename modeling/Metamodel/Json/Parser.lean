import Metamodel.Json.Lexer

/-!
# Reading JSON texts

The tokens of a text are read by a machine with a stack of the arrays and objects that are still
open: each token completes a value, opens a container or closes the innermost one. `Json.parse?`
gives the value of a text that is exactly one JSON value.
-/

namespace Metamodel.Json

/-- An open container with the parts read so far, the last one first. -/
inductive Frame where
  | items (done : List Json)
  | members (done : List (String × Json))
  | member (done : List (String × Json)) (name : String)

/-- What may come next inside the innermost open container. -/
inductive Expect where
  /-- a value, or the end of the array just opened -/
  | firstItem
  /-- a member name, or the end of the object just opened -/
  | firstName
  | value
  | name
  | colon
  /-- a comma or the end of the container -/
  | separator
  /-- the end of the text -/
  | done (result : Json)

/-- The machine's state. -/
structure Machine where
  stack : List Frame
  expect : Expect

namespace Machine

/-- A value is complete: it goes to the innermost container, or is the result. -/
def complete (stack : List Frame) (v : Json) : Option Machine :=
  match stack with
  | [] => some ⟨[], .done v⟩
  | .items done :: rest => some ⟨.items (v :: done) :: rest, .separator⟩
  | .member done name :: rest => some ⟨.members ((name, v) :: done) :: rest, .separator⟩
  | .members _ :: _ => none

/-- Opens a container or completes an atom where a value may stand. -/
def startValue (stack : List Frame) (t : Token) : Option Machine :=
  match t with
  | .openArray => some ⟨.items [] :: stack, .firstItem⟩
  | .openObject => some ⟨.members [] :: stack, .firstName⟩
  | .string s => complete stack (.string s)
  | .atom v => complete stack v
  | _ => none

/-- One token. -/
def step (m : Machine) (t : Token) : Option Machine :=
  match m.expect, t, m.stack with
  | .firstItem, .closeArray, .items done :: rest => complete rest (.array done.reverse)
  | .firstItem, t, stack => startValue stack t
  | .value, t, stack => startValue stack t
  | .firstName, .closeObject, .members done :: rest =>
    complete rest (ofMembers done.reverse)
  | .firstName, .string s, .members done :: rest => some ⟨.member done s :: rest, .colon⟩
  | .name, .string s, .members done :: rest => some ⟨.member done s :: rest, .colon⟩
  | .colon, .colon, stack => some ⟨stack, .value⟩
  | .separator, .comma, .items done :: rest => some ⟨.items done :: rest, .value⟩
  | .separator, .comma, .members done :: rest => some ⟨.members done :: rest, .name⟩
  | .separator, .closeArray, .items done :: rest => complete rest (.array done.reverse)
  | .separator, .closeObject, .members done :: rest => complete rest (ofMembers done.reverse)
  | _, _, _ => none

end Machine

/-- The value of a JSON text, or nothing when the text is not exactly one value. -/
def parse? (text : String) : Option Json :=
  match tokens? text.toList with
  | some ts =>
    match ts.foldlM Machine.step ⟨[], .value⟩ with
    | some ⟨_, .done v⟩ => some v
    | _ => none
  | none => none

end Metamodel.Json

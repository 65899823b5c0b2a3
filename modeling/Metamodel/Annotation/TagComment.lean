import Metamodel.Annotation.Basic
import Metamodel.Decimal.Text
import Metamodel.Json.Printer
import Metamodel.Text.Blank

/-!
# Tag comments

A documentation tag gives the values of an annotation in its comment: pairs `key=value` anywhere
in the text, or, when there is no pair, one bare word that stands under `value`. A quoted value
keeps its blanks and is a string whatever it holds; a bare one is a truth value, a number or a
string. Each reading step leaves a shorter rest, which ends the recursion of `TagComment.pairs`.
-/

namespace Metamodel.TagComment

/-- Whether a key can start with the character. -/
def isKeyStart (c : Char) : Bool :=
  c.isAlpha || c == '_'

/-- Whether a key can go on with the character. -/
def isKeyChar (c : Char) : Bool :=
  c.isAlphanum || c == '_'

/-- Whether a value without quotes can hold the character. -/
def isBareChar (c : Char) : Bool :=
  !Text.isBlank c && c != ','

/-- A number without exponent, with digits on both sides of a point. -/
def bareNumber? (cs : List Char) : Option Decimal.Binary64 :=
  if cs.all fun c => c.isDigit || c == '-' || c == '.' then
    (Decimal.Numeral.read? cs).map (·.value)
  else none

/-- The value of a word without quotes. -/
def bareValue (cs : List Char) : AnnotationValue :=
  if cs = "true".toList then .boolean true
  else if cs = "false".toList then .boolean false
  else
    match bareNumber? cs with
    | some x => .number x
    | none => .string (String.ofList cs)

/-- A value without quotes in front of a text. -/
def takeBare? (cs : List Char) : Option (AnnotationValue × List Char) :=
  if (cs.takeWhile isBareChar).isEmpty then none
  else some (bareValue (cs.takeWhile isBareChar), cs.dropWhile isBareChar)

/-- A value in front of a text: in double quotes, in single quotes, or bare. A quote that is not
closed belongs to a bare value. -/
def takeValue? (cs : List Char) : Option (AnnotationValue × List Char) :=
  match cs with
  | [] => none
  | c :: rest =>
    if (c == '"' || c == '\x27') && rest.contains c then
      some (.string (String.ofList (rest.takeWhile (· != c))), (rest.dropWhile (· != c)).drop 1)
    else takeBare? cs

/-- A pair in front of a text: a key, an equals sign between blanks, and a value. -/
def takePair? (cs : List Char) : Option ((String × AnnotationValue) × List Char) :=
  match cs with
  | [] => none
  | c :: rest =>
    if isKeyStart c then
      match Text.trimStart (rest.dropWhile isKeyChar) with
      | '=' :: after =>
        (takeValue? (Text.trimStart after)).map fun r =>
          ((String.ofList (c :: rest.takeWhile isKeyChar), r.1), r.2)
      | _ => none
    else none

theorem length_of_takeBare? {cs : List Char} {r : AnnotationValue × List Char}
    (h : takeBare? cs = some r) : r.2.length ≤ cs.length := by
  unfold takeBare? at h
  split at h
  · simp at h
  · simp only [Option.some.injEq] at h
    subst h
    exact (List.dropWhile_sublist _).length_le

theorem length_of_takeValue? {cs : List Char} {r : AnnotationValue × List Char}
    (h : takeValue? cs = some r) : r.2.length ≤ cs.length := by
  unfold takeValue? at h
  split at h
  · simp at h
  · rename_i c rest
    split at h
    · simp only [Option.some.injEq] at h
      subst h
      have := (List.dropWhile_sublist (l := rest) (· != c)).length_le
      simp only [List.length_drop, List.length_cons]
      omega
    · exact length_of_takeBare? h

/-- What follows a pair is shorter than the text. -/
theorem length_of_takePair? {cs : List Char} {r : (String × AnnotationValue) × List Char}
    (h : takePair? cs = some r) : r.2.length < cs.length := by
  unfold takePair? at h
  split at h
  · simp at h
  · rename_i c rest
    split at h
    · split at h
      · rename_i after heq
        simp only [Option.map_eq_some_iff] at h
        obtain ⟨v, hv, rfl⟩ := h
        have h1 := length_of_takeValue? hv
        have h2 := (List.dropWhile_sublist (l := after) Text.isBlank).length_le
        have h3 := (List.dropWhile_sublist (l := rest.dropWhile isKeyChar) Text.isBlank).length_le
        have h4 := (List.dropWhile_sublist (l := rest) isKeyChar).length_le
        unfold Text.trimStart at heq h1
        rw [heq] at h3
        simp only [List.length_cons] at *
        omega
      · simp at h
    · simp at h

/-- The pairs of a text, from left to right. -/
def pairs (cs : List Char) : List (String × AnnotationValue) :=
  match cs with
  | [] => []
  | c :: rest =>
    match h : takePair? (c :: rest) with
    | some r =>
      have := length_of_takePair? h
      r.1 :: pairs r.2
    | none => pairs rest
  termination_by cs.length
  decreasing_by all_goals simp_all

/-- The text without a quote at its start and one at its end. -/
def unquote (cs : List Char) : List Char :=
  let isQuote := fun c => c == '"' || c == '\x27'
  let dropQuote := fun (cs : List Char) =>
    match cs with
    | c :: rest => if isQuote c then rest else cs
    | [] => []
  (dropQuote (dropQuote cs).reverse).reverse

/-- The values that a tag comment gives; nothing when the comment is blank. The last value of a key
counts, and the prototype's name is no key. -/
def values? (comment : String) : Option (List (String × AnnotationValue)) :=
  let text := Text.trim comment.toList
  if text.isEmpty then none
  else
    match pairs text with
    | [] => some [("value", bareValue (unquote (Text.firstWord text)))]
    | found =>
      some ((found.filter (·.1 != Json.prototypeName)).foldl
        (fun acc p => Json.setMember acc p.1 p.2) [])

end Metamodel.TagComment

/-!
# Brace expansion

A choice in braces, `src/{a,b}.ts`, stands for one text per alternative. Braces may be nested; those
without a comma, and those that are not closed, are ordinary characters, and so is what stands in
square brackets or behind a backslash.
-/

namespace Metamodel.Glob

/-- A part of a text with choices. -/
inductive BracePart where
  | char (c : Char)
  | choice (alternatives : List (List BracePart))

/-- Braces that are still open: the complete alternatives and the parts of the present one, both
with the last one first. -/
structure OpenBrace where
  done : List (List BracePart)
  parts : List BracePart

/-- The state of reading: the parts outside all braces, the last one first, and the open braces, the
innermost one first. -/
structure BraceReader where
  outside : List BracePart
  opened : List OpenBrace
  /-- whether the next character follows a backslash -/
  escaped : Bool
  /-- whether square brackets are open -/
  bracketed : Bool

namespace BraceReader

def start : BraceReader := ⟨[], [], false, false⟩

/-- Adds parts, given with the last one first, at the present place. -/
def add (r : BraceReader) (ps : List BracePart) : BraceReader :=
  match r.opened with
  | [] => { r with outside := ps ++ r.outside }
  | b :: rest => { r with opened := { b with parts := ps ++ b.parts } :: rest }

/-- The parts of braces that turned out to be ordinary characters, with the last one first. -/
def plainParts (b : OpenBrace) : List BracePart :=
  b.parts ++ b.done.flatMap (fun alternative => BracePart.char ',' :: alternative) ++
    [.char '\x7b']

/-- One character. -/
def step (r : BraceReader) (c : Char) : BraceReader :=
  if r.escaped then { r.add [.char c] with escaped := false }
  else if c == '\\' then { r.add [.char c] with escaped := true }
  else if r.bracketed then { r.add [.char c] with bracketed := c != ']' }
  else if c == '[' then { r.add [.char c] with bracketed := true }
  else if c == '\x7b' then { r with opened := ⟨[], []⟩ :: r.opened }
  else
    match r.opened with
    | [] => r.add [.char c]
    | b :: rest =>
      if c == ',' then { r with opened := ⟨b.parts :: b.done, []⟩ :: rest }
      else if c == '\x7d' then
        let outer := { r with opened := rest }
        if b.done.isEmpty then outer.add (.char c :: plainParts b)
        else outer.add [.choice ((b.parts :: b.done).reverse.map List.reverse)]
      else r.add [.char c]

/-- The parts of the whole text; braces that are still open are ordinary characters. -/
def finish (r : BraceReader) : List BracePart :=
  ((r.opened.flatMap plainParts) ++ r.outside).reverse

end BraceReader

mutual

/-- The texts that a part stands for. -/
def BracePart.texts : BracePart → List (List Char)
  | .char c => [[c]]
  | .choice alternatives => choiceTexts alternatives

/-- The texts that one of several alternatives stands for. -/
def choiceTexts : List (List BracePart) → List (List Char)
  | [] => []
  | a :: rest => sequenceTexts a ++ choiceTexts rest

/-- The texts that a sequence of parts stands for. -/
def sequenceTexts : List BracePart → List (List Char)
  | [] => [[]]
  | p :: rest => p.texts.flatMap fun t => (sequenceTexts rest).map (t ++ ·)

end

/-- The texts that a text with choices in braces stands for. -/
def expandBraces (text : String) : List String :=
  (sequenceTexts (text.toList.foldl BraceReader.step .start).finish).map String.ofList

end Metamodel.Glob

import Metamodel.Glob.Braces
import Metamodel.Path

/-!
# Glob patterns

A pattern for paths, segment by segment: `*` is any run of characters within a segment, `?` any
character, `[a-c]` one of a set, `**` any number of segments, none included, and a leading `!` turns
the pattern around. A pattern that ends in a slash matches no path.
-/

namespace Metamodel.Glob

/-- A place in a segment. -/
inductive Place where
  | char (c : Char)
  /-- one character -/
  | single
  /-- any number of characters -/
  | run
  /-- one character in, or outside, some ranges; or the set exactly as it is written -/
  | set (outside : Bool) (ranges : List (Char × Char)) (written : List Char)
  deriving DecidableEq

/-- What a pattern says about one segment, or about any number of them. -/
inductive Segment where
  | deep
  | places (ps : List Place)
  deriving DecidableEq

end Glob

/-- A pattern for paths. -/
structure Glob where
  negated : Bool
  segments : List Glob.Segment
  deriving DecidableEq

namespace Glob

/-! ## Matching -/

/-- Whether a character is in one of the ranges. -/
def inRanges (ranges : List (Char × Char)) (c : Char) : Bool :=
  ranges.any fun r => r.1.toNat ≤ c.toNat && c.toNat ≤ r.2.toNat

/-- Whether the places match exactly the characters. -/
def matchPlaces : List Place → List Char → Bool
  | [], cs => cs.isEmpty
  | .char c :: ps, cs =>
    match cs with
    | [] => false
    | d :: rest => c == d && matchPlaces ps rest
  | .single :: ps, cs => !cs.isEmpty && matchPlaces ps (cs.drop 1)
  | .run :: ps, cs => (List.range (cs.length + 1)).any fun n => matchPlaces ps (cs.drop n)
  | .set outside ranges written :: ps, cs =>
    (match cs with
      | [] => false
      | d :: rest => (inRanges ranges d != outside) && matchPlaces ps rest) ||
      (written.isPrefixOf cs && matchPlaces ps (cs.drop written.length))

/-- Whether the segments of a pattern match exactly the segments of a path. -/
def matchSegments : List Segment → List String → Bool
  | [], path => path.isEmpty
  | .deep :: rest, path =>
    (List.range (path.length + 1)).any fun n => matchSegments rest (path.drop n)
  | .places ps :: rest, path =>
    match path with
    | [] => false
    | s :: path => matchPlaces ps s.toList && matchSegments rest path

/-- Whether the pattern matches a path. -/
def admits (g : Glob) (path : List String) : Bool :=
  matchSegments g.segments path != g.negated

/-! ## Reading -/

/-- The ranges of a set, from what is written between its brackets. -/
def rangesOf : List Char → List (Char × Char)
  | a :: '-' :: b :: rest => (a, b) :: rangesOf rest
  | a :: rest => (a, a) :: rangesOf rest
  | [] => []

/-- The set of what is written between brackets. A set of plain characters also matches its own
text. -/
def setOf (content : List Char) : Place :=
  let written := '[' :: content ++ [']']
  let literal := if content.all Char.isAlphanum then written else []
  match content with
  | '^' :: rest => .set true (rangesOf rest) []
  | '!' :: rest => .set true (rangesOf rest) []
  | _ => .set false (rangesOf content) literal

/-- The places of a segment. -/
def placesOf : List Char → List Place
  | [] => []
  | '\\' :: c :: rest => .char c :: placesOf rest
  | '?' :: rest => .single :: placesOf rest
  | '*' :: rest => .run :: placesOf rest
  | '[' :: rest =>
    have : (rest.dropWhile (· != ']')).length ≤ rest.length :=
      (List.dropWhile_sublist _).length_le
    if rest.contains ']' then
      setOf (rest.takeWhile (· != ']')) :: placesOf ((rest.dropWhile (· != ']')).drop 1)
    else .char '[' :: placesOf rest
  | c :: rest => .char c :: placesOf rest
  termination_by cs => cs.length
  decreasing_by all_goals (simp only [List.length_cons, List.length_drop]; omega)

/-- The segment of what is written between two slashes. -/
def segmentOf (text : String) : Segment :=
  if text = "**" then .deep
  else
    match placesOf text.toList with
    | [] => .places [.char '/']
    | ps => .places ps

/-- The characters with one slash in place of several. -/
def singleSlashes : List Char → List Char
  | '/' :: '/' :: rest => singleSlashes ('/' :: rest)
  | c :: rest => c :: singleSlashes rest
  | [] => []

/-- The characters without the marks that turn a pattern around, and whether they do so. -/
def stripNegation : List Char → Bool × List Char
  | '!' :: rest => let (n, cs) := stripNegation rest; (!n, cs)
  | cs => (false, cs)

/-- The pattern of a text without braces. -/
def ofPlain (text : String) : Glob :=
  let (negated, cs) := stripNegation (singleSlashes text.toList)
  let body := match cs with
    | '.' :: '/' :: rest => rest
    | _ => cs
  ⟨negated, (Path.segments (String.ofList body)).map segmentOf⟩

/-- The patterns of a text. -/
def ofText (text : String) : List Glob :=
  ((expandBraces text).filter (· ≠ "")).map ofPlain

/-- Whether the pattern, when it matches a directory, speaks of all that lies under it: its last
segment is a plain name, or any number of segments behind some other one. -/
def coversDirectories (g : Glob) : Bool :=
  match g.segments.getLast? with
  | some .deep => 1 < g.segments.length
  | some (.places ps) => ps.all fun p => (p matches .char _)
  | none => false

end Glob

end Metamodel

import Metamodel.Text.Split

/-!
# Paths

Paths with `/` between their segments. Relative paths are resolved against the root `/`, so a
path never leads above it. `normalize` settles the segments `.` and `..`, `resolve` makes a path
absolute, `relative` leads from one path to another, and `directory` and `extension` cut a path.
-/

namespace Metamodel.Path

/-- The segments of a path, empty ones included. -/
def segments (path : String) : List String :=
  Text.splitText '/' path

/-- Segments with `/` between them. -/
def ofSegments (segs : List String) : String :=
  "/".intercalate segs

/-- Takes one more segment onto the settled ones, which are kept last first. A `..` removes the
last segment; at the start it stays when the path may lead upwards and is dropped otherwise. -/
def settleStep (upwards : Bool) (settled : List String) (seg : String) : List String :=
  if seg = "" ∨ seg = "." then settled
  else if seg = ".." then
    match settled with
    | [] => if upwards then [".."] else []
    | last :: rest => if last = ".." then ".." :: settled else rest
  else seg :: settled

/-- The segments without empty ones, `.` and settled `..`. -/
def settle (upwards : Bool) (segs : List String) : List String :=
  (segs.foldl (settleStep upwards) []).reverse

/-- Whether the path starts at the root. -/
def isAbsolute (path : String) : Bool :=
  path.toList.head? == some '/'

/-- The shortest form of a path; a slash at its end is kept. -/
def normalize (path : String) : String :=
  if path = "" then "."
  else
    let body := ofSegments (settle (!isAbsolute path) (segments path))
    let trailing := path.toList.getLast? == some '/'
    if isAbsolute path then
      if body = "" then "/" else "/" ++ body ++ (if trailing then "/" else "")
    else if body = "" then (if trailing then "./" else ".")
    else body ++ (if trailing then "/" else "")

/-- The parts one behind the other, as one normal path; empty parts do not count. -/
def join (parts : List String) : String :=
  normalize (ofSegments (parts.filter (· ≠ "")))

/-- The parts from the last absolute one on. -/
def fromRoot (parts : List String) : List String :=
  parts.foldl (fun acc p => if isAbsolute p then [p] else acc ++ [p]) []

/-- The segments of the absolute path that the parts lead to from the root. -/
def resolvedSegments (parts : List String) : List String :=
  settle false ((fromRoot parts).flatMap segments)

/-- The absolute path of segments. -/
def absolute (segs : List String) : String :=
  "/" ++ ofSegments segs

/-- The absolute path that the parts lead to from the root. -/
def resolve (parts : List String) : String :=
  absolute (resolvedSegments parts)

/-- The segments that two lists have in common at their start are dropped from both. -/
def dropCommon : List String → List String → List String × List String
  | a :: as, b :: bs => if a = b then dropCommon as bs else (a :: as, b :: bs)
  | as, bs => (as, bs)

/-- The segments that lead from one list of settled segments to another. -/
def relativeSegments (source target : List String) : List String :=
  let (up, down) := dropCommon source target
  up.map (fun _ => "..") ++ down

/-- The path from one path to another. -/
def relative (source target : String) : String :=
  ofSegments (relativeSegments (resolvedSegments [source]) (resolvedSegments [target]))

/-- The path of the directory that holds a path. -/
def directory (path : String) : String :=
  match path.toList with
  | [] => "."
  | c :: cs =>
    match ((cs.reverse.dropWhile (· == '/')).dropWhile (· != '/')) with
    | [] => if c == '/' then "/" else "."
    | _ :: rest =>
      if c == '/' && rest.isEmpty then "//" else String.ofList (c :: rest.reverse)

/-- The last segment of a path that ends in any number of slashes. -/
def baseName (path : String) : List Char :=
  ((path.toList.reverse.dropWhile (· == '/')).takeWhile (· != '/')).reverse

/-- The last dot of the last segment and what follows it; nothing when only that dot, or two dots
and nothing more, make up the segment's start. -/
def extension (path : String) : String :=
  let name := (baseName path).reverse
  let after := (name.takeWhile (· != '.')).reverse
  match name.dropWhile (· != '.') with
  | [] => ""
  | _ :: before =>
    if before.isEmpty || (before == ['.'] && after.isEmpty) then ""
    else String.ofList ('.' :: after)

/-- The path with `/` in place of each backslash. -/
def withSlashes (path : String) : String :=
  String.ofList (path.toList.map fun c => if c = '\\' then '/' else c)

end Metamodel.Path

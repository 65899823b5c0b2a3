import Metamodel.CommandLine.Option
import Metamodel.CommandLine.Suggestion
import Metamodel.CommandLine.Truth
import Metamodel.Run.Project

/-!
# Requests

What the words of a command line ask for: the version, the help, or a run. `Reading.ofWords` finds
the options among the words, and `Request.ofArguments` is the request or the reason why there is
none.
-/

namespace Metamodel.CommandLine

/-- Why a command line asks for nothing. -/
inductive UsageError where
  /-- an option stands without what it needs -/
  | missingArgument (option : OptionName)
  /-- a mandatory option is missing -/
  | notSpecified (option : OptionName)
  /-- a word that may be an option is none -/
  | unknownOption (word : String)
  deriving DecidableEq

/-- The known words that an unknown one may mean, as the message puts them. -/
def suggestionText (word : String) : String :=
  match word.toList with
  | '-' :: '-' :: name =>
    match closest (String.ofList name) (OptionName.all.map (·.text) ++ ["help"]) with
    | [] => ""
    | [one] => "\n(Did you mean --" ++ one ++ "?)"
    | several => "\n(Did you mean one of " ++ ", ".intercalate (several.map ("--" ++ ·)) ++ "?)"
  | _ => ""

def UsageError.message : UsageError → String
  | missingArgument o => "error: option '" ++ o.usage ++ "' argument missing"
  | notSpecified o => "error: required option '" ++ o.usage ++ "' not specified"
  | unknownOption word => "error: unknown option '" ++ word ++ "'" ++ suggestionText word

/-! ## Reading the words -/

/-- What has been read from the words. -/
structure Reading where
  /-- the options in the order in which they stand, each with its value -/
  given : List (OptionName × Option String)
  /-- the first word that might be an option but is none, and all that is no option behind it -/
  unknown : List String
  deriving DecidableEq

/-- What ends the reading before the last word. -/
inductive Interruption where
  /-- the version is asked for -/
  | version
  /-- an option stands without what it needs -/
  | missingArgument (option : OptionName)
  deriving DecidableEq

namespace Reading

/-- Takes an option with its value. -/
def give (r : Reading) (o : OptionName) (value : Option String) : Reading :=
  { r with given := r.given ++ [(o, value)] }

/-- Passes over words that are no options; they count once there is an unknown one. -/
def skip (r : Reading) (words : List String) : Reading :=
  if r.unknown.isEmpty then r else { r with unknown := r.unknown ++ words }

/-- Takes a word that might be an option but is none. -/
def addUnknown (r : Reading) (word : String) : Reading :=
  { r with unknown := r.unknown ++ [word] }

/-- The value of the last occurrence of an option. -/
def last? (r : Reading) (o : OptionName) : Option (Option String) :=
  (r.given.filter (·.1 == o)).getLast?.map (·.2)

/-- All values of an option. -/
def values (r : Reading) (o : OptionName) : List String :=
  r.given.filterMap fun g => if g.1 = o then g.2 else none

end Reading

/-- Whether a word may be an option: it starts with a dash, and something follows. -/
def mayBeOption (word : List Char) : Bool :=
  word matches '-' :: _ :: _

/-- The option that a word names. -/
def namedOption? (word : List Char) : Option OptionName :=
  OptionName.ofWord? (String.ofList word)

/-- The option of the first letter in a word of several letters, with the other letters. -/
def letterOption? (word : List Char) : Option (OptionName × List Char) :=
  match word with
  | '-' :: c :: rest =>
    if c = '-' ∨ rest.isEmpty then none else (namedOption? ['-', c]).map (·, rest)
  | _ => none

theorem length_of_letterOption {word rest : List Char} {o : OptionName}
    (h : letterOption? word = some (o, rest)) : rest.length + 2 = word.length := by
  unfold letterOption? at h
  split at h
  · split at h
    · simp at h
    · simp only [Option.map_eq_some_iff, Prod.mk.injEq] at h
      obtain ⟨_, _, _, rfl⟩ := h
      simp
  · simp at h

/-- The option and the value in a word of the form `--name=value`. -/
def assignedOption? (word : List Char) : Option (OptionName × String) :=
  match word.dropWhile (· != '=') with
  | [] => none
  | _ :: value =>
    match namedOption? (word.takeWhile (· != '=')) with
    | some o => if o.argument = .none then none else some (o, String.ofList value)
    | none => none

/-- The length of some words, each counted with its end. -/
def wordsLength (words : List (List Char)) : Nat :=
  words.foldr (fun w n => w.length + 1 + n) 0

/-- Reads the options among words; `taking` is an option that takes all words up to the next one.
The word `--` ends the options. -/
def readFrom (taking : Option OptionName) (r : Reading) (words : List (List Char)) :
    Except Interruption Reading :=
  match words with
  | [] => .ok r
  | w :: ws =>
    if w = ['-', '-'] then .ok (r.skip ((w :: ws).map String.ofList))
    else if !mayBeOption w then
      match taking with
      | some o => readFrom taking (r.give o (some (String.ofList w))) ws
      | none => readFrom none (r.skip [String.ofList w]) ws
    else
      match namedOption? w with
      | some o =>
        match o.argument, ws with
        | .none, vs => if o = .version then .error .version else readFrom none (r.give o none) vs
        | .optional _, v :: vs =>
          if mayBeOption v then readFrom none (r.give o none) (v :: vs)
          else readFrom none (r.give o (some (String.ofList v))) vs
        | .optional _, [] => .ok (r.give o none)
        | .required _, v :: vs => readFrom none (r.give o (some (String.ofList v))) vs
        | .several _, v :: vs => readFrom (some o) (r.give o (some (String.ofList v))) vs
        | .required _, [] | .several _, [] => .error (.missingArgument o)
      | none =>
        match _h : letterOption? w with
        | some (o, rest) =>
          if o = .version then .error .version
          else readFrom none (r.give o none) (('-' :: rest) :: ws)
        | none =>
          match assignedOption? w with
          | some (o, value) => readFrom none (r.give o (some value)) ws
          | none => readFrom none (r.addUnknown (String.ofList w)) ws
termination_by wordsLength words
decreasing_by
  all_goals simp only [wordsLength, List.foldr_cons, List.length_cons]
  all_goals first
    | omega
    | have := length_of_letterOption _h
      omega

/-! ## The request -/

/-- What a command line asks for. -/
inductive Request where
  | version
  | help
  | run (options : ProjectOptions) (verbose : Bool)

namespace Reading

/-- The text of an option, unless it is blank. -/
def text? (r : Reading) (o : OptionName) : Option String :=
  ((r.last? o).bind id).filter (!Text.isBlankText ·)

/-- The truth value of an option that may stand without a value. -/
def truth? (r : Reading) (o : OptionName) (default : Bool) : Option Bool :=
  (r.last? o).map fun value => (value.map (truthOfText · default)).getD true

/-- The settings that options give. -/
def overrides (r : Reading) : ConfigLayer where
  jpa := (r.last? .withoutJpa).map fun _ => false
  generateAlways := r.truth? .generateAlways true
  generateModel := r.truth? .generateModel true
  failOnError := r.truth? .failOnError true
  classPrefixes := none
  runtimeModule := none

/-- The run that options ask for. -/
def projectOptions (r : Reading) : ProjectOptions where
  source := ((r.last? .source).bind id).getD ""
  out := ((r.last? .out).bind id).getD ""
  declarations := r.text? .declarations
  tsconfig := r.text? .tsconfig
  config := r.text? .config
  excludeGlobs := r.values .exclude
  includeTests := (r.truth? .includeTests false).getD false
  report := r.text? .report
  graph := r.text? .graph
  overrides := r.overrides

/-- What the options ask for. The help wins over all faults, and a missing option over an unknown
one. -/
def request (r : Reading) : Except UsageError Request :=
  if r.unknown.any helpWords.contains then .ok .help
  else
    match OptionName.all.find? fun o => o.isMandatory && (r.last? o).isNone with
    | some o => .error (.notSpecified o)
    | none =>
      match r.unknown with
      | word :: _ => .error (.unknownOption word)
      | [] => .ok (.run r.projectOptions (r.last? .verbose).isSome)

end Reading

/-- What the arguments of the program ask for. -/
def Request.ofArguments (args : List String) : Except UsageError Request :=
  match readFrom none ⟨[], []⟩ (args.map String.toList) with
  | .error .version => .ok .version
  | .error (.missingArgument o) => .error (.missingArgument o)
  | .ok r => r.request

end Metamodel.CommandLine

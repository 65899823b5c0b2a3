import Metamodel.CommandLine.Option
import Metamodel.Text.Split

/-!
# Help

The page that describes the options in two columns, for a screen of 80 columns. Descriptions are
filled into lines word by word.
-/

namespace Metamodel.CommandLine

/-- The columns of the screen. -/
def screenWidth : Nat := 80

/-- What stands in front of each option. -/
def helpIndent : Nat := 2

/-- The blanks between an option and its description. -/
def helpGap : Nat := 2

/-- Fills a line with as many words as fit into the width, then the next one. A line takes at
least one word. -/
def fillFrom (width : Nat) (line : String) : List String → List String
  | [] => [line]
  | w :: ws =>
    if line.length + 1 + w.length ≤ width then fillFrom width (line ++ " " ++ w) ws
    else line :: fillFrom width w ws

/-- The lines of a text that is filled into a width. -/
def filled (width : Nat) (text : String) : List String :=
  match Text.splitText ' ' text with
  | [] => []
  | w :: ws => fillFrom width w ws

/-- Some blanks. -/
def blanks (n : Nat) : String :=
  String.ofList (List.replicate n ' ')

/-- The entries of the help: each option with its description, and the help itself last. -/
def helpEntries : List (String × String) :=
  OptionName.all.map (fun o => (o.usage, o.description)) ++
    [(", ".intercalate helpWords, "display help for command")]

/-- The width of the options' column. -/
def usageWidth : Nat :=
  ((helpEntries.map (·.1.length)).max?).getD 0

/-- The lines of an entry. -/
def entryLines (entry : String × String) : List String :=
  let column := helpIndent + usageWidth + helpGap
  match filled (screenWidth - column - 1) entry.2 with
  | [] => []
  | first :: rest =>
    (blanks helpIndent ++ entry.1 ++ blanks (usageWidth - entry.1.length + helpGap) ++ first) ::
      rest.map (blanks column ++ ·)

/-- The name under which the program is called. -/
def commandName : String := "entity-graph"

/-- What the program does. -/
def purpose : String :=
  "Build, validate and emit entity metadata from decorated TypeScript data models"

/-- The page of the help. -/
def helpText : String :=
  "\n".intercalate
    (["Usage: " ++ commandName ++ " [options]", ""] ++ filled (screenWidth - 1) purpose ++
      ["", "Options:"] ++ helpEntries.flatMap entryLines ++ [""])

end Metamodel.CommandLine

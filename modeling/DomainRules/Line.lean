import DomainRules.Item
/-!
The lines of a list. A line is trimmed and then is blank, a comment, the inclusion of another list,
or a rule. A value ends at the first space; a rule without a value says nothing.
-/
namespace DomainRules

inductive Line where
  | nothing
  | comment (text : String)
  | rule (rule : Rule)
  /-- The whole line is kept, because it is shown where the other list begins. -/
  | inclusion (name : String) (text : String)
  deriving DecidableEq, Repr

namespace Line

def inclusionMark : List Char := "include:".toList

def token (line : List Char) : List Char := line.takeWhile (· ≠ ' ')

def behindToken (line : List Char) : List Char := (line.dropWhile (· ≠ ' ')).drop 1

/-- The kind that a line shows by its mark. A line without a mark is a bare domain. -/
def kindOf (line : List Char) : Option Comparison :=
  [Comparison.suffix, .exact, .keyword, .regex].find? fun kind => kind.mark.isPrefixOf line

def readRule (line : List Char) : Line :=
  let kind := (kindOf line).getD .suffix
  let markLength := ((kindOf line).map (·.mark.length)).getD 0
  let value := (token line).drop markLength
  if value.isEmpty then nothing
  else rule { kind, value := String.ofList value, comment := String.ofList (behindToken line) }

def readTrimmed (line : List Char) : Line :=
  match line with
  | [] => nothing
  | '#' :: _ => comment (String.ofList line)
  | _ =>
    if inclusionMark.isPrefixOf line then
      inclusion (String.ofList ((token line).drop inclusionMark.length)) (String.ofList line)
    else readRule line

def read (line : List Char) : Line := readTrimmed (Text.trim line)

def ofText (text : String) : List Line := (Text.splitOn '\n' text.toList).map read

end Line

end DomainRules

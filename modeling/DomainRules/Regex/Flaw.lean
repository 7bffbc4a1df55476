namespace DomainRules.Regex

inductive Flaw where
  | unterminatedGroup
  | unmatchedParenthesis
  /-- A question mark behind a parenthesis says nothing known. -/
  | invalidGroup
  | invalidGroupName
  | duplicateGroupName
  /-- A reference by name has no name. -/
  | invalidReference
  | unknownReference
  | nothingToRepeat
  /-- A lookbehind is repeated. -/
  | invalidQuantifier
  | disorderedBounds
  | unterminatedClass
  | disorderedRange
  | invalidEscape
  | invalidUnicodeEscape
  | trailingBackslash
  deriving DecidableEq, Repr

def Flaw.message : Flaw → String
  | .unterminatedGroup => "Unterminated group"
  | .unmatchedParenthesis => "Unmatched ')'"
  | .invalidGroup => "Invalid group"
  | .invalidGroupName => "Invalid capture group name"
  | .duplicateGroupName => "Duplicate capture group name"
  | .invalidReference => "Invalid named reference"
  | .unknownReference => "Invalid named capture referenced"
  | .nothingToRepeat => "Nothing to repeat"
  | .invalidQuantifier => "Invalid quantifier"
  | .disorderedBounds => "numbers out of order in \x7b\x7d quantifier"
  | .unterminatedClass => "Unterminated character class"
  | .disorderedRange => "Range out of order in character class"
  | .invalidEscape => "Invalid escape"
  | .invalidUnicodeEscape => "Invalid Unicode escape"
  | .trailingBackslash => "\\ at end of pattern"

end DomainRules.Regex

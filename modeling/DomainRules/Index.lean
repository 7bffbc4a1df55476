import DomainRules.Text.Blank
import DomainRules.Text.Units
import DomainRules.Value

namespace DomainRules.Index

/-- The address of a list under a base, whose slashes at the end are dropped. -/
def address (base name : List Char) : List Char := Text.dropTrailingSlashes base ++ '/' :: name

def line (base name : List Char) : List Char :=
  ' ' :: ' ' :: (Text.quote name ++ ':' :: ' ' :: Text.quote (address base name))

/-- The text of the index for the names, which are given in order. -/
def render (names : List String) (base : String) : String :=
  if names.isEmpty then "\x7b\x7d"
  else
    let lines := names.map fun name => line base.toList name.toList
    String.ofList ('\x7b' :: '\n' :: (Text.joinWith [',', '\n'] lines ++ ['\n', '\x7d']))

end DomainRules.Index

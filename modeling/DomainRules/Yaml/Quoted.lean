import DomainRules.Text.Units
import DomainRules.Value
/-!
Double-quoted YAML scalars. They are spelled as JSON strings, with the shorter escapes that YAML
has for control characters. In a long scalar a line feed is written as a line break.
-/
namespace DomainRules.Yaml

open Text

def escape (c : Char) : List Char :=
  let n := c.toNat
  if n = 0x00 then ['\\', '0']
  else if n = 0x07 then ['\\', 'a']
  else if n = 0x0B then ['\\', 'v']
  else if n = 0x1B then ['\\', 'e']
  else match quoteChar c with
    | ['\\', 'u', _, _, high, low] => ['\\', 'x', high, low]
    | spelled => spelled

/-- The length of the JSON spelling from which on line feeds become line breaks. -/
def longLength : Nat := 40

/-- The inside of a scalar. A line break is folded away when it stands alone, so the first one is
doubled; a line feed at the end is always escaped. A space next to a line feed is escaped because
it would be folded away too. -/
def quotedBody (isLong : Bool) (indent : List Char) : Bool → List Char → List Char
  | _, [] => []
  | broken, c :: rest =>
    if c = '\n' && isLong && !rest.isEmpty then
      (if broken then ['\n'] else ['\n', '\n']) ++ quotedBody isLong indent true rest
    else
      (if broken then indent ++ (if c = ' ' then ['\\'] else []) else []) ++
        (if c = ' ' && rest.head? = some '\n' then ['\\', ' '] else escape c) ++
        quotedBody isLong indent false rest

def quoted (indent s : List Char) : List Char :=
  '"' :: (quotedBody (longLength ≤ unitLength (quote s)) indent false s ++ ['"'])

end DomainRules.Yaml

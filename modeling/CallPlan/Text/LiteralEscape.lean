import CallPlan.Text.Hexadecimal

/-!
# Escapes in source literals

The text between the quotes of a character or string literal in source text. Quotes, backslashes and
the usual control characters have escapes of two characters; every other control character is given
by its code. All else stands for itself.
-/

namespace CallPlan.Text

/-- Whether the character is a control character: of the C0 set, the C1 set, or delete. -/
def isControl (c : Char) : Bool :=
  c.toNat < 0x20 || (0x7F ≤ c.toNat && c.toNat < 0xA0)

/-- The character between single quotes. -/
def escapeInChar (c : Char) : List Char :=
  if c = '\\' then ['\\', '\\']
  else if c = '\n' then ['\\', 'n']
  else if c = '\r' then ['\\', 'r']
  else if c = '\t' then ['\\', 't']
  else if c = '\'' then ['\\', '\'']
  else if isControl c then ['\\', 'u'] ++ hexDigits4 c.toNat
  else [c]

/-- One character between double quotes: a double quote is escaped, a single one is not. -/
def escapeInString (c : Char) : List Char :=
  if c = '"' then ['\\', '"']
  else if c = '\'' then ['\'']
  else escapeInChar c

/-- The text between double quotes. -/
def escapeText (s : String) : String :=
  String.ofList (s.toList.flatMap escapeInString)

end CallPlan.Text

import CallPlan.Text.Extender
import CallPlan.Text.Hexadecimal
import CallPlan.Text.Unprintable

/-!
# Quoted texts and characters

A text or a character written between quotes so that every character can be seen. Five characters
have a short escape, a quote is escaped where it would end the text, and characters without a
printed form are given by their code point, as are the marks that would be drawn on another
character.
-/

namespace CallPlan.Text

/-- The character by its code point, `\u\x7b301\x7d`. -/
def codeEscape (c : Char) : List Char :=
  ['\\', 'u', '{'] ++ hexDigits c.toNat ++ ['}']

/-- One character of a quotation that ends at `quote`. -/
def quotedCharacter (quote : Char) (c : Char) : List Char :=
  if c = '\x00' then ['\\', '0']
  else if c = '\t' then ['\\', 't']
  else if c = '\r' then ['\\', 'r']
  else if c = '\n' then ['\\', 'n']
  else if c = '\\' ∨ c = quote then ['\\', c]
  else if extenders.contains c || unprintables.contains c then codeEscape c
  else [c]

/-- A character in single quotes. -/
def quoteChar (c : Char) : String :=
  String.ofList (['\''] ++ quotedCharacter '\'' c ++ ['\''])

/-- A text in double quotes. -/
def quoteString (s : String) : String :=
  String.ofList (['"'] ++ s.toList.flatMap (quotedCharacter '"') ++ ['"'])

end CallPlan.Text

import CallPlan.Text.Hexadecimal
import CallPlan.Text.Lines

/-!
# Data for other programs

Reports are also written as JSON: every element and every field on a line of its own, two blanks
further in than what it belongs to. Only quotes, backslashes and characters below the blank are
escaped.
-/

namespace CallPlan

/-- The data of a report. -/
inductive Json where
  | number (n : Nat)
  | text (s : String)
  | list (elements : List Json)
  | object (fields : List (String × Json))

namespace Json

/-- A character between quotes. -/
def escape (c : Char) : List Char :=
  if c = '"' ∨ c = '\\' then ['\\', c]
  else if c = '\x08' then ['\\', 'b']
  else if c = '\x0c' then ['\\', 'f']
  else if c = '\n' then ['\\', 'n']
  else if c = '\r' then ['\\', 'r']
  else if c = '\t' then ['\\', 't']
  else if c.toNat < 0x20 then ['\\', 'u'] ++ Text.hexDigits4 c.toNat
  else [c]

/-- A text between quotes. -/
def quoted (s : String) : String :=
  "\"" ++ String.ofList (s.toList.flatMap escape) ++ "\""

/-- Entries between brackets, one on each line. -/
def bracketed (opening closing : String) (level : Nat) (entries : List String) : String :=
  if entries.isEmpty then opening ++ closing
  else
    let inner := "\n" ++ Text.repeated "  " (level + 1)
    opening ++ inner ++ ("," ++ inner).intercalate entries ++ "\n" ++
      Text.repeated "  " level ++ closing

mutual

/-- The text of data, so many levels further in than the outermost. -/
def render (level : Nat) : Json → String
  | number n => toString n
  | text s => quoted s
  | list elements => bracketed "[" "]" level (renderAll (level + 1) elements)
  | object fields => bracketed "\x7b" "\x7d" level (renderFields (level + 1) fields)

/-- The texts of several elements. -/
def renderAll (level : Nat) : List Json → List String
  | [] => []
  | e :: es => e.render level :: renderAll level es

/-- The texts of several fields. -/
def renderFields (level : Nat) : List (String × Json) → List String
  | [] => []
  | (name, value) :: rest =>
    (quoted name ++ ": " ++ value.render level) :: renderFields level rest

end

/-- The text of data. -/
def pretty (j : Json) : String := j.render 0

end Json

end CallPlan

import CallPlan.Text.Hexadecimal

/-!
# Quoted texts of TOML

Texts are written in four ways: between single characters on one line or between groups of three on
several, and with escapes (basic texts, in double quotes) or without (literal texts, in single
quotes). The end of a text is found first; then its content is checked and its escapes are resolved.
-/

namespace CallPlan.Toml

/-- Reads something from the front of a text and returns the rest. -/
abbrev Reader (α : Type) := List Char → Option (α × List Char)

/-- Whether a character may stand in the document as itself, line ends apart. -/
def isPlain (c : Char) : Bool :=
  c = '\t' || (0x20 ≤ c.toNat && c.toNat ≠ 0x7F)

/-! ### Finding the end -/

/-- The end of a text between single quote characters. -/
def endOfLineText (quote : Char) : Reader (List Char)
  | c :: rest => if c = quote then some ([], rest) else none
  | [] => none

/-- The end of a text between groups of three quote characters. Up to two more of them in front of
the group belong to the text. -/
def endOfBlockText (quote : Char) (cs : List Char) : Option (List Char × List Char) :=
  let quotes := min 5 (cs.takeWhile (· = quote)).length
  if quotes < 3 then none else some (cs.take (quotes - 3), cs.drop quotes)

/-- Everything up to the end that `close` recognises. After a backslash, where there are `escapes`,
the next character is passed over. -/
def upTo (close : Reader (List Char)) (escapes : Bool) (escaped : Bool) : Reader (List Char)
  | [] => none
  | c :: rest =>
    match if escaped then none else close (c :: rest) with
    | some found => some found
    | none =>
      (upTo close escapes (escapes && !escaped && c = '\\') rest).map fun (content, rest) =>
        (c :: content, rest)

/-! ### Content -/

/-- The content of a text on several lines, with every line end written as a line feed. -/
def withLineFeeds : List Char → Option (List Char)
  | [] => some []
  | '\r' :: '\n' :: rest => (withLineFeeds rest).map ('\n' :: ·)
  | c :: rest => if c = '\n' || isPlain c then (withLineFeeds rest).map (c :: ·) else none

/-- Where in an escape the reader stands. -/
inductive Pending where
  | none
  | backslash
  /-- A code point: how many digits are missing after the next one, and the value so far. -/
  | code (missing value : Nat)
  /-- Blanks that a backslash at the end of a line removes, before or after that line's end. -/
  | lineBreak (passed : Bool)

/-- The character with a code point, if it is one. -/
def charOfCode? (n : Nat) : Option Char :=
  if h : n.isValidChar then some (Char.ofNatAux n h) else none

/-- What stands for a character that a backslash and a letter denote. -/
def shortEscape? : Char → Option Char
  | 'b' => some '\x08'
  | 't' => some '\t'
  | 'n' => some '\n'
  | 'f' => some '\x0c'
  | 'r' => some '\r'
  | '"' => some '"'
  | '\\' => some '\\'
  | _ => none

/-- One character outside an escape. -/
def plainStep (c : Char) : Pending × List Char :=
  if c = '\\' then (.backslash, []) else (.none, [c])

/-- One character of a basic text: where the reader stands then, and the characters that are
complete. -/
def escapeStep (block : Bool) : Pending → Char → Option (Pending × List Char)
  | .none, c => some (plainStep c)
  | .backslash, c =>
    if c = 'u' then some (.code 3 0, [])
    else if c = 'U' then some (.code 7 0, [])
    else if block && (c = ' ' || c = '\t') then some (.lineBreak false, [])
    else if block && c = '\n' then some (.lineBreak true, [])
    else (shortEscape? c).map fun d => (.none, [d])
  | .code missing value, c => do
    let value := 16 * value + (← Text.hexValue? c)
    match missing with
    | 0 => return (.none, [← charOfCode? value])
    | missing + 1 => return (.code missing value, [])
  | .lineBreak passed, c =>
    if c = '\n' then some (.lineBreak true, [])
    else if c = ' ' || c = '\t' then some (.lineBreak passed, [])
    else if passed then some (plainStep c)
    else none

/-- Resolves the escapes of a basic text. -/
def resolve (block : Bool) : Pending → List Char → Option (List Char)
  | .none, [] => some []
  | .lineBreak true, [] => some []
  | _, [] => none
  | pending, c :: rest => do
    let (pending, done) ← escapeStep block pending c
    let content ← resolve block pending rest
    return done ++ content

/-! ### Whole texts -/

/-- A text on one line, behind its opening quote. -/
def lineText (quote : Char) (cs : List Char) : Option (String × List Char) := do
  let (content, rest) ← upTo (endOfLineText quote) (quote = '"') false cs
  guard (content.all isPlain)
  let content ← if quote = '"' then resolve false .none content else some content
  return (String.ofList content, rest)

/-- A text on several lines, behind its opening quotes. A line end right behind them is not part of
the text. -/
def blockText (quote : Char) (cs : List Char) : Option (String × List Char) := do
  let cs := match cs with
    | '\n' :: rest => rest
    | '\r' :: '\n' :: rest => rest
    | _ => cs
  let (content, rest) ← upTo (endOfBlockText quote) (quote = '"') false cs
  let content ← withLineFeeds content
  let content ← if quote = '"' then resolve true .none content else some content
  return (String.ofList content, rest)

/-- A text in either kind of quotes, on one line or several. -/
def anyText : Reader String
  | q₁ :: q₂ :: q₃ :: rest =>
    if q₁ = q₂ ∧ q₂ = q₃ then blockText q₁ rest else lineText q₁ (q₂ :: q₃ :: rest)
  | quote :: rest => lineText quote rest
  | [] => none

end CallPlan.Toml

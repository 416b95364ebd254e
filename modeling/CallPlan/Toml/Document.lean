import CallPlan.Toml.Scalar
import CallPlan.Toml.Table

/-!
# TOML documents

A document is a sequence of lines: headers, fields and blanks. `parse` reads them one after the
other into tables under construction, and gives `none` for a text that is no document. Arrays and
inline tables nest up to `maxNesting` deep, and a dotted key has at most as many parts.
-/

namespace CallPlan.Toml

/-- The deepest nesting of values, and the greatest number of parts of a key. -/
def maxNesting : Nat := 79

/-! ### Blanks, comments and line ends -/

/-- What is behind the blanks of a line. -/
def skipBlanks (cs : List Char) : List Char :=
  cs.dropWhile fun c => c = ' ' || c = '\t'

/-- What is behind the end of a line; nothing may stand in front of it but blanks and a comment. -/
def lineEnd (cs : List Char) : Option (List Char) :=
  let cs := skipBlanks cs
  let cs := match cs with
    | '#' :: rest => rest.dropWhile isPlain
    | _ => cs
  match cs with
  | [] => some []
  | '\n' :: rest => some rest
  | '\r' :: '\n' :: rest => some rest
  | _ => none

/-- What is behind blanks, line ends and comments, as between the elements of an array. -/
def skipFiller (comment : Bool) : List Char → Option (List Char)
  | [] => if comment then none else some []
  | '\n' :: rest => skipFiller false rest
  | '\r' :: '\n' :: rest => skipFiller false rest
  | c :: rest =>
    if comment then if isPlain c then skipFiller true rest else none
    else if c = ' ' || c = '\t' then skipFiller false rest
    else if c = '#' then skipFiller true rest
    else some (c :: rest)

/-! ### Keys -/

/-- Whether a key without quotes contains the character. -/
def isKeyChar (c : Char) : Bool :=
  c.isAlphanum || c = '_' || c = '-'

/-- One part of a key, on one line. -/
def keyPart : Reader String := fun cs =>
  match cs with
  | '"' :: rest => lineText '"' rest
  | '\'' :: rest => lineText '\'' rest
  | _ =>
    let word := cs.takeWhile isKeyChar
    if word.isEmpty then none else some (String.ofList word, cs.drop word.length)

/-- A key of at most so many parts with dots between them; blanks around each part. -/
def keyPath : Nat → Reader (List String)
  | 0, _ => none
  | most + 1, cs => do
    let (part, cs) ← keyPart (skipBlanks cs)
    match skipBlanks cs with
    | '.' :: rest =>
      let (parts, rest) ← keyPath most rest
      return (part :: parts, rest)
    | rest => return ([part], rest)

/-- A key as the path to its table and its last part. -/
def splitKey (parts : List String) : List String × String :=
  (parts.dropLast, parts.getLast?.getD "")

/-! ### Data -/

/-- A key, an equals sign and a value. -/
def pair (value : Reader Datum) : Reader (List String × Datum) := fun cs => do
  let (key, cs) ← keyPath maxNesting cs
  match cs with
  | '=' :: rest =>
    let (v, rest) ← value (skipBlanks rest)
    return ((key, v), rest)
  | _ => none

/-- The elements of an array behind its bracket, of which there are less than `most`. -/
def elements (value : Reader Datum) : Nat → Reader (List Datum)
  | 0, _ => none
  | most + 1, cs => do
    match ← skipFiller false cs with
    | ']' :: rest => return ([], rest)
    | cs =>
      let (v, cs) ← value cs
      match ← skipFiller false cs with
      | ',' :: rest =>
        let (vs, rest) ← elements value most rest
        return (v :: vs, rest)
      | ']' :: rest => return ([v], rest)
      | _ => none

/-- The pairs of an inline table behind its brace, of which there are at most so many. -/
def pairs (value : Reader Datum) : Nat → Reader (List (List String × Datum))
  | 0, _ => none
  | most + 1, cs => do
    let (p, cs) ← pair value cs
    match skipBlanks cs with
    | ',' :: rest =>
      let (ps, rest) ← pairs value most rest
      return (p :: ps, rest)
    | '\x7d' :: rest => return ([p], rest)
    | _ => none

/-- Adds a pair to a table. -/
def addPair (fields : Fields) (p : List String × Datum) : Option Fields :=
  let (path, key) := splitKey p.1
  fields.insert p.2 key path

/-- An inline table, behind its brace. -/
def inlineTable (value : Reader Datum) : Reader Datum := fun cs => do
  let (ps, rest) ← match skipBlanks cs with
    | '\x7d' :: rest => some ([], rest)
    | _ => pairs value (cs.length + 1) cs
  let fields ← ps.foldlM addPair []
  return (.table (fieldData fields), rest)

/-- A value in which arrays and inline tables nest at most so deep. -/
def value : Nat → Reader Datum
  | 0, cs =>
    match cs with
    | '[' :: _ | '\x7b' :: _ => none
    | _ => scalar cs
  | depth + 1, cs =>
    match cs with
    | '[' :: rest =>
      (elements (value depth) (rest.length + 1) rest).map fun (vs, rest) => (.array vs, rest)
    | '\x7b' :: rest => inlineTable (value depth) rest
    | _ => scalar cs

/-! ### Lines -/

/-- A line of a document. -/
inductive Line where
  | blank
  | header (repeated : Bool) (key : List String)
  | field (key : List String) (v : Datum)

/-- One line, with its end. -/
def line (cs : List Char) : Option (Line × List Char) := do
  match skipBlanks cs with
  | '[' :: '[' :: rest =>
    let (key, rest) ← keyPath maxNesting rest
    match rest with
    | ']' :: ']' :: rest => return (.header true key, ← lineEnd rest)
    | _ => none
  | '[' :: rest =>
    let (key, rest) ← keyPath maxNesting rest
    match rest with
    | ']' :: rest => return (.header false key, ← lineEnd rest)
    | _ => none
  | c :: rest =>
    if c = '#' || c = '\n' || c = '\r' then return (.blank, ← lineEnd (c :: rest))
    else
      let ((key, v), rest) ← pair (value maxNesting) (c :: rest)
      return (.field key v, ← lineEnd rest)
  | [] => return (.blank, [])

/-- All lines, of which there are at most so many. -/
def lines : Nat → List Char → Option (List Line)
  | 0, cs => if cs.isEmpty then some [] else none
  | most + 1, cs => do
    if cs.isEmpty then return []
    let (l, rest) ← line cs
    return l :: (← lines most rest)

/-- The tables of a document as far as it is read, and the path of the last header. -/
structure Draft where
  fields : Fields
  header : List String

/-- Reads one more line. -/
def Draft.add (d : Draft) : Line → Option Draft
  | .blank => some d
  | .header repeated key => (d.fields.openTable repeated key).map fun fields => ⟨fields, key⟩
  | .field key v =>
    (d.fields.within (fun fields => addPair fields (key, v)) d.header).map fun fields =>
      { d with fields }

/-- The fields of a document, which a byte order mark may precede. -/
def parse (text : String) : Option (List (String × Datum)) := do
  let cs := match text.toList with
    | '\ufeff' :: rest => rest
    | cs => cs
  let draft ← (← lines cs.length cs).foldlM Draft.add ⟨[], []⟩
  return fieldData draft.fields

end CallPlan.Toml

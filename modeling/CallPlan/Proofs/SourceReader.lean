import CallPlan.Proofs.SourceTexts

/-!
# A reader of source text

A reader of source text tells code from literals and comments, and keeps account of the brackets
that are open. What it finds are the texts between the outermost braces, each with the code in front
of it (`Source.groups?`). It finds nothing in a text that is not well nested, that has a literal of
more than one line, or that ends inside of a literal or a comment.
-/

namespace CallPlan.Source

open Text (brackets)

/-- The characters that lead a reader: brackets, quotes and the slash. -/
def guides : List Char := ['(', ')', '[', ']', '{', '}', '"', '\'', '/']

/-! ### The reader -/

/-- A text between braces, and the code in front of it. -/
structure Group where
  front : List Char
  inside : List Char
deriving DecidableEq, Repr

/-- What kind of text a reader is in. -/
inductive Place where
  | code
  /-- Behind a slash that may begin a comment. -/
  | slash
  /-- In a comment that ends with its line. -/
  | line
  /-- In a comment between marks, maybe behind a star. -/
  | comment (star : Bool)
  /-- In a literal, maybe behind the backslash of an escape. -/
  | literal (quote : Char) (escaped : Bool)
deriving DecidableEq, Repr

/-- A reader of source text. -/
structure Reader where
  place : Place := .code
  /-- The brackets that will close those that are open, the innermost one first. -/
  pending : List Char := []
  /-- What stands between the outermost braces that are closed. -/
  groups : List Group := []
  /-- The code behind them, up to the outermost brace that is open. -/
  front : List Char := []
  /-- The text behind the outermost brace that is open. -/
  inside : List Char := []
deriving DecidableEq, Repr

namespace Reader

/-- Whether a brace is open. -/
def IsDeep (r : Reader) : Prop := '}' ∈ r.pending

instance (r : Reader) : Decidable r.IsDeep := inferInstanceAs (Decidable (_ ∈ _))

/-- Keeps a text, or in front of a group what it is as code. -/
def put (r : Reader) (text code : List Char) : Reader :=
  if r.IsDeep then { r with inside := r.inside ++ text }
  else { r with front := r.front ++ code }

/-- Goes on in a text of another kind. -/
def goTo (r : Reader) (place : Place) : Reader := { r with place }

/-- Goes on with other brackets open. -/
def withPending (r : Reader) (pending : List Char) : Reader := { r with pending }

/-- Opens a bracket. The outermost brace is no part of what stands behind it. -/
def openBracket (r : Reader) (c closer : Char) : Reader :=
  let opened := r.withPending (closer :: r.pending)
  if opened.IsDeep ∧ ¬ r.IsDeep then opened else opened.put [c] [c]

/-- Closes the innermost bracket. The outermost brace ends a group. -/
def closeBracket (r : Reader) (c : Char) : Option Reader :=
  match r.pending with
  | [] => none
  | closer :: rest =>
    let closed := r.withPending rest
    if closer ≠ c then none
    else if r.IsDeep ∧ ¬ closed.IsDeep then
      some { closed with groups := r.groups ++ [⟨r.front, r.inside⟩], front := [], inside := [] }
    else some (closed.put [c] [c])

/-- Reads a character of code. -/
def nextCode (r : Reader) (c : Char) : Option Reader :=
  if c = '/' then some (r.goTo .slash)
  else if c = '"' ∨ c = '\'' then some ((r.put [c] [c]).goTo (.literal c false))
  else
    match brackets.lookup c with
    | some closer => some (r.openBracket c closer)
    | none => if c ∈ brackets.map Prod.snd then r.closeBracket c else some (r.put [c] [c])

/-- Reads a character. A comment is white space to the code around it. -/
def next (r : Reader) (c : Char) : Option Reader :=
  match r.place with
  | .code => r.nextCode c
  | .slash =>
    if c = '/' then some ((r.put ['/', '/'] []).goTo .line)
    else if c = '*' then some ((r.put ['/', '*'] []).goTo (.comment false))
    else ((r.put ['/'] ['/']).goTo .code).nextCode c
  | .line =>
    if c = '\n' ∨ c = '\r' then some ((r.put [c] [c]).goTo .code) else some (r.put [c] [])
  | .comment star =>
    if star = true ∧ c = '/' then some ((r.put [c] [' ']).goTo .code)
    else some ((r.put [c] []).goTo (.comment (c == '*')))
  | .literal quote escaped =>
    if c = '\n' ∨ c = '\r' then none
    else if escaped then some ((r.put [c] [c]).goTo (.literal quote false))
    else if c = quote then some ((r.put [c] [c]).goTo .code)
    else some ((r.put [c] [c]).goTo (.literal quote (c == '\\')))

/-- Reads a text. -/
def run (r : Reader) (text : List Char) : Option Reader := text.foldlM next r

end Reader

/-- The groups of a well nested text, and the code behind the last one. -/
def groups? (text : List Char) : Option (List Group × List Char) := do
  let r ← ({} : Reader).run text
  if r.place = .code ∧ r.pending = [] then some (r.groups, r.front) else none

/-! ### What is kept -/

namespace Reader

variable {r : Reader} {text more code : List Char}

@[simp]
theorem run_nil (r : Reader) : r.run [] = some r := rfl

@[simp]
theorem run_cons (r : Reader) (c : Char) (text : List Char) :
    r.run (c :: text) = (r.next c).bind (·.run text) := rfl

/-- A joined text is read from where its first part leaves the reader. -/
theorem run_append (r : Reader) (text more : List Char) :
    r.run (text ++ more) = (r.run text).bind (·.run more) :=
  List.foldlM_append

@[simp]
theorem put_nil (r : Reader) : r.put [] [] = r := by
  simp [put]

/-- What is kept does not change what kind of text the reader is in. -/
@[simp]
theorem place_put : (r.put text code).place = r.place := by
  unfold put
  split_ifs <;> rfl

/-- What is kept does not change which brackets are open. -/
@[simp]
theorem pending_put : (r.put text code).pending = r.pending := by
  unfold put
  split_ifs <;> rfl

@[simp]
theorem isDeep_put : (r.put text code).IsDeep ↔ r.IsDeep := by
  simp [IsDeep]

/-- One text kept after another is both of them, kept as one. -/
theorem put_put (r : Reader) (text code more moreCode : List Char) :
    (r.put text code).put more moreCode = r.put (text ++ more) (code ++ moreCode) := by
  by_cases h : r.IsDeep
  · have h' : ({ r with inside := r.inside ++ text } : Reader).IsDeep := h
    simp [put, h, h']
  · have h' : ¬ ({ r with front := r.front ++ code } : Reader).IsDeep := h
    simp [put, h, h']

/-- Between braces texts are kept as they are. -/
theorem put_of_isDeep (h : r.IsDeep) (text code other : List Char) :
    r.put text code = r.put text other := by
  simp [put, h]

/-- A reader stays as it is if it goes on in the kind of text that it is in. -/
theorem goTo_of_place {place : Place} (h : r.place = place) : r.goTo place = r := by
  rw [← h, goTo]

@[simp]
theorem place_goTo (r : Reader) (place : Place) : (r.goTo place).place = place := rfl

@[simp]
theorem goTo_goTo (r : Reader) (place other : Place) : (r.goTo place).goTo other = r.goTo other :=
  rfl

/-- How deep a reader is does not depend on the kind of text. -/
@[simp]
theorem isDeep_goTo (place : Place) : (r.goTo place).IsDeep ↔ r.IsDeep := Iff.rfl

/-- A text can be kept before the reader goes on in another kind of text, or behind. -/
@[simp]
theorem put_goTo (r : Reader) (place : Place) (text code : List Char) :
    (r.goTo place).put text code = (r.put text code).goTo place := by
  by_cases h : r.IsDeep
  · simp [put, h]
    rfl
  · simp [put, h]
    rfl

@[simp]
theorem place_withPending (pending : List Char) : (r.withPending pending).place = r.place := rfl

@[simp]
theorem pending_withPending (pending : List Char) : (r.withPending pending).pending = pending := rfl

@[simp]
theorem withPending_withPending (pending other : List Char) :
    (r.withPending pending).withPending other = r.withPending other := rfl

@[simp]
theorem withPending_pending (r : Reader) : r.withPending r.pending = r := rfl

@[simp]
theorem isDeep_withPending (pending : List Char) : (r.withPending pending).IsDeep ↔ '}' ∈ pending :=
  Iff.rfl

/-- What is kept depends on the brackets that are open only as far as one of them is a brace. -/
theorem put_withPending {pending : List Char} (h : '}' ∈ pending ↔ r.IsDeep)
    (text code : List Char) :
    (r.withPending pending).put text code = (r.put text code).withPending pending := by
  rw [← r.isDeep_withPending] at h
  by_cases hr : r.IsDeep
  · simp only [put, if_pos (h.mpr hr), if_pos hr]
    rfl
  · simp only [put, if_neg (mt h.mp hr), if_neg hr]
    rfl

/-- In code, a character is read as code. -/
theorem next_of_code (h : r.place = .code) (c : Char) : r.next c = r.nextCode c := by
  rw [next, h]

/-- A slash in code may begin a comment, so it is not kept yet. -/
theorem next_slash (h : r.place = .code) : r.next '/' = some (r.goTo .slash) := by
  rw [next_of_code h, nextCode, if_pos rfl]

/-- Opening a bracket keeps it, and has the one that closes it pending. The reader must be as deep
behind the bracket as it is in front. -/
theorem nextCode_openBracket {bracket : Char × Char} (hmem : bracket ∈ brackets)
    (hdeep : '}' ∈ bracket.2 :: r.pending ↔ r.IsDeep) :
    r.nextCode bracket.1 =
      some ((r.put [bracket.1] [bracket.1]).withPending (bracket.2 :: r.pending)) := by
  have hkinds : ∀ bracket ∈ brackets, bracket.1 ≠ '/' ∧ bracket.1 ≠ '"' ∧ bracket.1 ≠ '\'' ∧
      brackets.lookup bracket.1 = some bracket.2 := by decide
  obtain ⟨hslash, hdouble, hsingle, hlookup⟩ := hkinds _ hmem
  have hopened : r.openBracket bracket.1 bracket.2 =
      (r.put [bracket.1] [bracket.1]).withPending (bracket.2 :: r.pending) := by
    rw [openBracket, if_neg fun h => h.2 (hdeep.mp h.1), put_withPending hdeep]
  rw [nextCode, if_neg hslash, if_neg (not_or_intro hdouble hsingle), hlookup]
  exact congrArg some hopened

/-- Closing that bracket keeps it as well, and leaves those pending that were pending before. -/
theorem nextCode_closeBracket {bracket : Char × Char} (hmem : bracket ∈ brackets)
    (hdeep : '}' ∈ bracket.2 :: r.pending ↔ r.IsDeep) :
    (r.withPending (bracket.2 :: r.pending)).nextCode bracket.2 =
      some (r.put [bracket.2] [bracket.2]) := by
  have hkinds : ∀ bracket ∈ brackets, bracket.2 ≠ '/' ∧ bracket.2 ≠ '"' ∧ bracket.2 ≠ '\'' ∧
      brackets.lookup bracket.2 = none ∧ bracket.2 ∈ brackets.map Prod.snd := by decide
  obtain ⟨hslash, hdouble, hsingle, hlookup, hcloser⟩ := hkinds _ hmem
  have hclosed : (r.withPending (bracket.2 :: r.pending)).closeBracket bracket.2 =
      some (r.put [bracket.2] [bracket.2]) := by
    rw [closeBracket, withPending]
    dsimp only
    rw [if_neg (not_not_intro rfl), if_neg]
    · rfl
    · exact fun h => h.2 (hdeep.mp h.1)
  rw [nextCode, if_neg hslash, if_neg (not_or_intro hdouble hsingle), hlookup, if_pos hcloser]
  exact hclosed

/-- The outermost brace starts a group. -/
theorem next_openBrace (hcode : r.place = .code) (hdeep : ¬ r.IsDeep) :
    r.next '{' = some (r.withPending ('}' :: r.pending)) := by
  have hlookup : brackets.lookup '{' = some '}' := by decide
  have hopened : r.openBracket '{' '}' = r.withPending ('}' :: r.pending) := by
    rw [openBracket, if_pos ⟨List.mem_cons_self, hdeep⟩]
  rw [next_of_code hcode, nextCode, if_neg (by decide), if_neg (by decide), hlookup]
  exact congrArg some hopened

/-- The brace that closes the outermost one ends a group. -/
theorem next_closeBrace (hcode : r.place = .code) (hdeep : ¬ r.IsDeep) :
    (r.withPending ('}' :: r.pending)).next '}' =
      some { r with groups := r.groups ++ [⟨r.front, r.inside⟩], front := [], inside := [] } := by
  have hlookup : brackets.lookup '}' = none := by decide
  have hclosed : (r.withPending ('}' :: r.pending)).closeBracket '}' =
      some { r with groups := r.groups ++ [⟨r.front, r.inside⟩], front := [], inside := [] } := by
    rw [closeBracket, withPending]
    dsimp only
    rw [if_neg (not_not_intro rfl), if_pos ⟨List.mem_cons_self, hdeep⟩]
    rfl
  have hcode' : (r.withPending ('}' :: r.pending)).place = .code := hcode
  rw [next_of_code hcode', nextCode, if_neg (by decide), if_neg (by decide), hlookup,
    if_pos (by decide)]
  exact hclosed

/-- All other characters than those that lead a reader are kept. -/
theorem nextCode_of_notMem {c : Char} (h : c ∉ guides) : r.nextCode c = some (r.put [c] [c]) := by
  simp only [guides, List.mem_cons, List.not_mem_nil, or_false, not_or] at h
  obtain ⟨hopen, hclose, hopen', hclose', hopen'', hclose'', hdouble, hsingle, hslash⟩ := h
  have hlookup : brackets.lookup c = none := by
    simp [brackets, List.lookup, beq_false_of_ne, *]
  have hcloser : c ∉ brackets.map Prod.snd := by simp [brackets, *]
  rw [nextCode, if_neg hslash, if_neg (not_or_intro hdouble hsingle), hlookup]
  exact if_neg hcloser

end Reader

end CallPlan.Source

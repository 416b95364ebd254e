import CallPlan.Text.CharSet

/-!
# White space

The 25 code points with the property White_Space, and the removal of white space from the two ends
of a text. Core's `Char.isWhitespace` knows only the four of them that source text usually holds.
-/

namespace CallPlan.Text

/-- The characters with the property **White_Space**. -/
def blanks : CharSet :=
  [(0x9, 0xD), (0x20, 0x20), (0x85, 0x85), (0xA0, 0xA0), (0x1680, 0x1680), (0x2000, 0x200A),
   (0x2028, 0x2029), (0x202F, 0x202F), (0x205F, 0x205F), (0x3000, 0x3000)]

/-- Whether the character is white space. -/
def isBlank (c : Char) : Bool :=
  blanks.contains c

/-- The text without its leading white space. -/
def trimStart (cs : List Char) : List Char :=
  cs.dropWhile isBlank

/-- The text without its trailing white space. -/
def trimEnd (cs : List Char) : List Char :=
  (trimStart cs.reverse).reverse

/-- The text without leading and trailing white space. -/
def trim (cs : List Char) : List Char :=
  trimEnd (trimStart cs)

/-- Whether the text is empty or all white space. -/
def allBlank (cs : List Char) : Bool :=
  cs.all isBlank

/-- A text that does not start with white space is its own `trimStart`. -/
theorem trimStart_cons_of_not_isBlank {c : Char} (h : isBlank c = false) (cs : List Char) :
    trimStart (c :: cs) = c :: cs := by
  simp [trimStart, h]

end CallPlan.Text

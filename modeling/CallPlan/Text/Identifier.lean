import CallPlan.Text.Letter
import CallPlan.Text.Numeral

/-!
# Identifiers

An identifier starts with a letter or an underscore and goes on with letters, numerals and
underscores, where letters and numerals are those of every script.
-/

namespace CallPlan.Text

/-- Whether the character may start an identifier. -/
def startsIdentifier (c : Char) : Bool :=
  c == '_' || letters.contains c

/-- Whether the character may stand inside an identifier. -/
def continuesIdentifier (c : Char) : Bool :=
  startsIdentifier c || numerals.contains c

/-- Whether the text is an identifier. -/
def isIdentifier : List Char → Bool
  | [] => false
  | c :: cs => startsIdentifier c && cs.all continuesIdentifier

/-- Every character of an identifier may stand inside an identifier. -/
theorem continuesIdentifier_of_mem {cs : List Char} (h : isIdentifier cs = true) {c : Char}
    (hc : c ∈ cs) : continuesIdentifier c = true := by
  cases cs with
  | nil => simp at hc
  | cons d ds =>
    simp only [isIdentifier, Bool.and_eq_true, List.all_eq_true] at h
    rcases List.mem_cons.mp hc with rfl | hd
    · simp [continuesIdentifier, h.1]
    · exact h.2 c hd

end CallPlan.Text

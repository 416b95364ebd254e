import CallPlan.Proofs.Lines
import CallPlan.Proofs.Paths

/-!
# Where leading comments end

A source file starts with a comment, which the first `*/` of the file closes. That is the one of the
last line of the comment exactly if the text of the comment has none: the text is copied as it is
(`SourceFile.isLeast_closings_iff`). The prefixes of the lines and the line ends put no `*/`
together, wherever the text is cut.
-/

namespace CallPlan

namespace Text

/-! ### The first place of a text -/

/-- What closes a comment. -/
def closing : List Char := ['*', '/']

/-- The positions in a text at which a comment can be closed. -/
def closings (cs : List Char) : Set Nat := {n | closing <+: cs.drop n}

instance (cs : List Char) (n : Nat) : Decidable (n ∈ closings cs) :=
  inferInstanceAs (Decidable (closing <+: cs.drop n))

/-- The mark behind `front` is the first one if none stands in `front`, and the first character of
the mark puts none together with the end of `front`. -/
theorem isLeast_closings_append_iff {front rest : List Char} :
    IsLeast (closings (front ++ closing ++ rest)) front.length ↔
      ¬ closing <:+: front ++ ['*'] := by
  have hmem : front.length ∈ closings (front ++ closing ++ rest) := by
    change closing <+: (front ++ closing ++ rest).drop front.length
    rw [List.append_assoc, List.drop_left]
    exact List.prefix_append _ _
  have hsplit : front ++ closing ++ rest = (front ++ ['*']) ++ '/' :: rest := by simp [closing]
  rw [IsLeast, and_iff_right hmem, mem_lowerBounds, hsplit]
  constructor
  · rintro hleast ⟨before, behind, happend⟩
    have hplace : before.length ∈ closings ((front ++ ['*']) ++ '/' :: rest) := by
      change closing <+: ((front ++ ['*']) ++ '/' :: rest).drop before.length
      rw [← happend, List.append_assoc, List.append_assoc, List.drop_left]
      exact List.prefix_append _ _
    have hle := hleast _ hplace
    have hlength := congrArg List.length happend
    simp only [List.length_append, closing, List.length_cons, List.length_nil] at hlength
    omega
  · intro hnot n hn
    by_contra hlt
    -- a mark that begins in `front` ends at the latest with the star behind it
    refine hnot (List.IsInfix.trans ?_ (List.drop_suffix n (front ++ ['*'])).isInfix)
    change closing <+: ((front ++ ['*']) ++ '/' :: rest).drop n at hn
    have hlength : closing.length ≤ ((front ++ ['*']).drop n).length := by
      simp only [closing, List.length_drop, List.length_append, List.length_cons, List.length_nil]
      omega
    rw [List.drop_append_of_le_length (by simp; omega)] at hn
    exact (List.prefix_of_prefix_length_le hn (List.prefix_append _ _) hlength).isInfix

/-! ### Lines with ends -/

section

variable {α : Type} {p gap : List α} (hne : gap ≠ []) (hlacks : ∀ a ∈ gap, a ∉ p)

include hne hlacks

/-- A text stands on one side of a gap that it has no element of. -/
theorem infix_append_gap_iff {xs ys : List α} :
    p <:+: xs ++ gap ++ ys ↔ p <:+: xs ∨ p <:+: ys := by
  induction gap generalizing xs with
  | nil => exact absurd rfl hne
  | cons a gap ih =>
    rw [List.append_assoc, List.cons_append, infix_append_cons_iff (hlacks a List.mem_cons_self)]
    by_cases hgap : gap = []
    · rw [hgap, List.nil_append]
    · have hbehind : p <:+: [] ++ gap ++ ys ↔ p <:+: [] ∨ p <:+: ys :=
        ih hgap fun b hb => hlacks b (List.mem_cons_of_mem a hb)
      rw [List.nil_append, List.infix_nil] at hbehind
      rw [hbehind]
      exact or_congr_right ⟨fun h => h.elim (· ▸ List.nil_infix) id, .inr⟩

/-- A text stands in one of the lines, or behind them. -/
theorem infix_flatMap_append_iff {lines : List (List α)} {ys : List α} :
    p <:+: lines.flatMap (· ++ gap) ++ ys ↔ (∃ line ∈ lines, p <:+: line) ∨ p <:+: ys := by
  induction lines with
  | nil => simp
  | cons line lines ih =>
    rw [List.flatMap_cons, List.append_assoc, infix_append_gap_iff hne hlacks, ih,
      List.exists_mem_cons_iff, or_assoc]

end

end Text

open Text (closing closings)

namespace Style

/-- Lines that are not indented differ from their texts in their ends only. -/
theorem toList_textOf_zero (s : Style) (lines : List String) :
    (s.textOf (lines.map (SourceLine.mk 0))).toList =
      (lines.map String.toList).flatMap (· ++ s.newline.toList) := by
  rw [toList_textOf, List.flatMap_map, List.flatMap_map]
  exact List.flatMap_congr fun text _ => s.charsOf_zero text

end Style

/-! ### Source files -/

namespace SourceFile

variable {f : SourceFile} {s : Style}

/-- The file in front of the mark that its last line of the comment is there for. -/
def front (f : SourceFile) (s : Style) : List Char :=
  (s.textOf (f.commentLines.dropLast.map (SourceLine.mk 0))).toList ++ [' ']

/-- The code of the file: its package and its class. -/
def code (f : SourceFile) (s : Style) : String :=
  s.textOf (f.packageLines.map (SourceLine.mk 0)) ++ f.body

/-- The comment stands in front of the code. -/
theorem toList_text (f : SourceFile) (s : Style) :
    (f.text s).toList =
      f.front s ++ closing ++ (s.newline.toList ++ (f.code s).toList) := by
  have hcomment : f.commentLines = f.commentLines.dropLast ++ [" */"] := by
    rw [commentLines, List.dropLast_concat]
  rw [text, code, front, String.toList_append, String.toList_append, List.map_append,
    Style.toList_textOf, List.flatMap_append, ← Style.toList_textOf, ← Style.toList_textOf]
  conv_lhs => rw [hcomment]
  simp [Style.toList_textOf, Style.charsOf_zero, closing]

/-- A line of the comment holds a mark only if the text in it does. -/
theorem infix_commentLine_iff {line : List Char} :
    closing <:+: (commentLine line).toList ↔ closing <:+: line := by
  rw [commentLine]
  split_ifs with hempty
  · rw [List.isEmpty_iff.mp hempty]
    decide
  · have hfront : (" * " ++ String.ofList line).toList = [' ', '*'] ++ ' ' :: line := by simp
    rw [hfront, Text.infix_append_cons_iff (by decide)]
    exact or_iff_right (by decide)

/-- A file whose name is an identifier has a mark in its comment only if the text of the comment has
one. -/
theorem infix_front_iff (hname : Text.isIdentifier f.className.toList = true)
    (hs : s.fault? = none) :
    closing <:+: f.front s ++ ['*'] ↔ closing <:+: f.comment.toList := by
  -- no mark reaches over a line end, so the lines are looked at one by one
  have hnewline : s.newline.toList ≠ [] ∧ ∀ c ∈ s.newline.toList, c ∉ closing := by
    rcases s.newline_of_fault? hs with h | h <;> rw [h] <;> simp [closing]
  have hopening : ¬ closing <:+: ['/', '*'] ∧ ¬ closing <:+: [' ', '*'] := by decide
  have hfile : ¬ closing <:+: ' ' :: '*' :: ' ' :: f.fileName.toList := by
    have hname : '/' ∉ f.className.toList := Text.notMem_of_isIdentifier hname (by decide)
    have hslash : '/' ∉ ' ' :: '*' :: ' ' :: f.fileName.toList := by simp [fileName, hname]
    exact fun hclosing => hslash (hclosing.mem (by decide))
  rw [front, Style.toList_textOf_zero, List.append_assoc,
    Text.infix_flatMap_append_iff hnewline.1 hnewline.2,
    or_iff_left (by decide : ¬ closing <:+: [' '] ++ ['*']), commentLines, List.dropLast_concat,
    Text.infix_iff_lines (by decide) (by decide) (by decide)]
  simp [hopening, hfile, infix_commentLine_iff]

/-- **Leading comments.** A file is its comment and its code, in this order, and the mark in the
last line of the comment is the first one of the file exactly if the text of the comment holds
none. -/
theorem isLeast_closings_iff (hname : Text.isIdentifier f.className.toList = true)
    (hs : s.fault? = none) :
    (f.text s).toList = f.front s ++ closing ++ (s.newline.toList ++ (f.code s).toList) ∧
      (IsLeast (closings (f.text s).toList) (f.front s).length ↔
        ¬ closing <:+: f.comment.toList) := by
  refine ⟨f.toList_text s, ?_⟩
  rw [toList_text, Text.isLeast_closings_append_iff, infix_front_iff hname hs]

/-! ### Two comments -/

/-- A file with a comment, beside the class `demo.Gate`. -/
def noting (comment : String) : SourceFile where
  className := "GateTest"
  package := "demo"
  comment := comment
  body := "public class GateTest \x7b\n\x7d\n"

/-- Stars at the ends of lines, and slashes at the starts of the next ones. -/
def stars : SourceFile := noting "one *\n/ two *\r/ three"

/-- A pattern of file names. -/
def pattern : SourceFile := noting "Tests of src/**/Gate.java"

/-- A star at the end of a line and a slash at the start of the next one do no harm. -/
theorem isLeast_closings_iff_stars :
    let s : Style := { newline := "\r\n" }
    Text.isIdentifier stars.className.toList = true ∧ s.fault? = none ∧
      ¬ closing <:+: stars.comment.toList ∧
      (stars.text s).toList =
        stars.front s ++ closing ++ (s.newline.toList ++ (stars.code s).toList) ∧
      IsLeast (closings (stars.text s).toList) (stars.front s).length := by
  intro s
  have hname : Text.isIdentifier stars.className.toList = true := by decide
  have hs : s.fault? = none := by decide
  have hcomment : ¬ closing <:+: stars.comment.toList := by decide
  obtain ⟨htext, hleast⟩ := isLeast_closings_iff hname hs
  exact ⟨hname, hs, hcomment, htext, hleast.mpr hcomment⟩

/-- A pattern of file names in a comment ends the comment. -/
theorem not_isLeast_closings_pattern :
    Text.isIdentifier pattern.className.toList = true ∧
      Text.isIdentifier pattern.package.toList = true ∧ ({} : Style).fault? = none ∧
      ¬ IsLeast (closings (pattern.text {}).toList) (pattern.front {}).length := by
  refine ⟨by decide, by decide, by decide, fun hleast => ?_⟩
  have hmem : 40 ∈ closings (pattern.text {}).toList := by decide
  have hle := hleast.2 hmem
  have hlength : (pattern.front {}).length = 53 := by decide
  omega

end SourceFile

end CallPlan

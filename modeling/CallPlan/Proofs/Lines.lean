import CallPlan.Proofs.Words
import CallPlan.Render.SourceFile

/-!
# Lines

Lines that are written below each other are read line by line: a text that holds no line end stands
on one side of each line end (`Text.infix_append_cons_iff`), and it stands in a text exactly if it
stands in one of the lines that the text is cut into (`Text.infix_iff_lines`).
-/

namespace CallPlan

namespace Text

/-! ### Texts without an element -/

section

variable {α : Type} {p xs ys : List α} {a : α}

theorem eq_nil_of_prefix_cons (ha : a ∉ p) (h : p <+: a :: ys) : p = [] := by
  cases p with
  | nil => rfl
  | cons b p =>
    obtain ⟨rfl, -⟩ := List.cons_prefix_cons.mp h
    exact absurd List.mem_cons_self ha

/-- A text does not reach beyond an element that it lacks. -/
theorem prefix_append_cons_iff (ha : a ∉ p) : p <+: xs ++ a :: ys ↔ p <+: xs := by
  refine ⟨fun h => ?_, fun h => h.trans (List.prefix_append _ _)⟩
  rcases List.prefix_or_prefix_of_prefix h (List.prefix_append xs (a :: ys)) with h' | ⟨t, rfl⟩
  · exact h'
  · rw [List.prefix_append_right_inj] at h
    rw [eq_nil_of_prefix_cons (fun hmem => ha (List.mem_append_right _ hmem)) h, List.append_nil]

/-- A text stands on one side of an element that it lacks. -/
theorem infix_append_cons_iff (ha : a ∉ p) :
    p <:+: xs ++ a :: ys ↔ p <:+: xs ∨ p <:+: ys := by
  induction xs with
  | nil =>
    rw [List.nil_append, List.infix_cons_iff, List.infix_nil]
    refine or_congr_left ⟨eq_nil_of_prefix_cons ha, ?_⟩
    rintro rfl
    exact List.nil_prefix
  | cons x xs ih =>
    rw [List.cons_append, List.infix_cons_iff, ih, List.infix_cons_iff, or_assoc,
      ← List.cons_append, prefix_append_cons_iff ha]

/-- A text that lacks the separator stands in one of the parts. -/
theorem infix_intercalate_iff (ha : a ∉ p) {parts : List (List α)} (hne : parts ≠ []) :
    p <:+: [a].intercalate parts ↔ ∃ part ∈ parts, p <:+: part := by
  induction parts using List.reverseRecOn with
  | nil => exact absurd rfl hne
  | append_singleton parts last ih =>
    rw [intercalate_concat]
    split_ifs with hnil
    · simp [hnil]
    · rw [List.append_assoc, List.singleton_append, infix_append_cons_iff ha, ih hnil]
      simp [or_and_right, exists_or]

/-- No part of a text has the element that the text is cut at. -/
theorem notMem_of_mem_splitOn [BEq α] [LawfulBEq α] {part : List α} (h : part ∈ xs.splitOn a) :
    a ∉ part := by
  induction xs generalizing part with
  | nil =>
    rw [List.splitOn_nil, List.mem_singleton] at h
    simp [h]
  | cons x xs ih =>
    rw [List.splitOn_cons_eq_if_modifyHead] at h
    obtain ⟨first, rest, hparts⟩ := List.exists_cons_of_ne_nil (List.splitOn_ne_nil a xs)
    have hfirst : a ∉ first := ih (by rw [hparts]; exact List.mem_cons_self)
    split_ifs at h with hx
    · rcases List.mem_cons.mp h with rfl | h
      · exact List.not_mem_nil
      · exact ih h
    · rw [hparts, List.modifyHead_cons] at h
      rcases List.mem_cons.mp h with rfl | h
      · rw [List.mem_cons, not_or]
        exact ⟨fun hax => hx (by simp [hax]), hfirst⟩
      · exact ih (by rw [hparts]; exact List.mem_cons_of_mem _ h)

end

/-! ### The lines of a text -/

theorem mem_lines_iff {cs line : List Char} :
    line ∈ lines cs ↔ (∃ part ∈ (cs.splitOn '\n').dropLast, dropReturn part = line) ∨
      (cs.splitOn '\n').getLast? = some line ∧ line ≠ [] := by
  simp only [lines, List.mem_append, List.mem_map, List.mem_filter, Option.mem_toList,
    Bool.not_eq_true', List.isEmpty_eq_false_iff]

/-- A line holds no line feed. -/
theorem lineFeed_notMem_of_mem_lines {cs line : List Char} (h : line ∈ lines cs) :
    '\n' ∉ line := by
  rcases mem_lines_iff.mp h with ⟨part, hpart, rfl⟩ | ⟨hlast, -⟩
  · have hnot := notMem_of_mem_splitOn (List.mem_of_mem_dropLast hpart)
    rw [dropReturn]
    split_ifs
    · exact fun hmem => hnot (List.mem_of_mem_dropLast hmem)
    · exact hnot
  · exact notMem_of_mem_splitOn (List.mem_of_getLast? hlast)

/-- A carriage return at the end of a line is no part of a text that lacks it. -/
theorem infix_dropReturn_iff {p part : List Char} (hreturn : '\r' ∉ p) (hne : p ≠ []) :
    p <:+: dropReturn part ↔ p <:+: part := by
  rw [dropReturn]
  split_ifs with hlast
  · obtain ⟨front, rfl⟩ := List.getLast?_eq_some_iff.mp hlast
    rw [List.dropLast_concat, infix_append_cons_iff hreturn, List.infix_nil, or_iff_left hne]
  · rfl

/-- A text without line ends stands in one of the lines. -/
theorem infix_iff_lines {p cs : List Char} (hfeed : '\n' ∉ p) (hreturn : '\r' ∉ p) (hne : p ≠ []) :
    p <:+: cs ↔ ∃ line ∈ lines cs, p <:+: line := by
  obtain ⟨parts, last, hparts⟩ :
      ∃ parts last, cs.splitOn '\n' = parts ++ [last] :=
    ⟨_, _, (List.dropLast_concat_getLast (List.splitOn_ne_nil '\n' cs)).symm⟩
  have hpart : p <:+: cs ↔ ∃ part ∈ cs.splitOn '\n', p <:+: part := by
    rw [← infix_intercalate_iff hfeed (List.splitOn_ne_nil _ _), List.intercalate_splitOn]
  rw [hpart]
  simp only [mem_lines_iff, hparts, List.dropLast_concat, List.getLast?_concat, List.mem_append,
    List.mem_singleton, Option.some.injEq]
  constructor
  · rintro ⟨part, hpart | rfl, hp⟩
    · exact ⟨_, .inl ⟨part, hpart, rfl⟩, (infix_dropReturn_iff hreturn hne).mpr hp⟩
    · refine ⟨part, .inr ⟨rfl, ?_⟩, hp⟩
      rintro rfl
      exact hne (List.infix_nil.mp hp)
  · rintro ⟨line, ⟨part, hpart, rfl⟩ | ⟨rfl, -⟩, hp⟩
    · exact ⟨part, .inl hpart, (infix_dropReturn_iff hreturn hne).mp hp⟩
    · exact ⟨last, .inr rfl, hp⟩

end Text

/-! ### Pages -/

namespace Style

/-- The characters of a line, its indentation in front and its end behind it. -/
def charsOf (s : Style) (line : SourceLine) : List Char :=
  (Text.repeated s.indent line.level).toList ++ line.text.toList ++ s.newline.toList

/-- Lines stand below each other. -/
theorem toList_textOf (s : Style) (lines : List SourceLine) :
    (s.textOf lines).toList = lines.flatMap s.charsOf := by
  have hchars : s.charsOf = fun line =>
      (Text.repeated s.indent line.level).toList ++ line.text.toList ++ s.newline.toList := rfl
  rw [textOf, Page.text_addLines, hchars]
  simp [Page.ofStyle, Page.blank, String.toList_join, List.flatMap_map]

theorem charsOf_zero (s : Style) (text : String) :
    s.charsOf ⟨0, text⟩ = text.toList ++ s.newline.toList := by
  simp [charsOf, Text.repeated]

/-- A style without fault indents lines by blanks and tabs. -/
theorem indent_of_fault? {s : Style} (h : s.fault? = none) :
    ∀ c ∈ s.indent.toList, c = ' ' ∨ c = '\t' := by
  rw [fault?] at h
  split_ifs at h with hindent
  simpa [or_iff_not_imp_left] using hindent

/-- A style without fault ends lines in one of two ways. -/
theorem newline_of_fault? {s : Style} (h : s.fault? = none) :
    s.newline = "\n" ∨ s.newline = "\r\n" := by
  rw [fault?] at h
  split_ifs at h with hindent hnewline
  by_contra hnot
  rw [not_or] at hnot
  exact hnewline hnot

end Style

end CallPlan

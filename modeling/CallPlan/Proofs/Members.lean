import CallPlan.Proofs.Lines
import CallPlan.Proofs.WellNested

/-!
# Members of a class

The members of a class are lines below each other, of which some open and close braces. If a member
is well nested (`Member.IsNested`), it is read as one group, and what stands in front of the group
ends with its declaration (`Member.exists_readsGroups_flatMap`).
-/

namespace CallPlan

open Source
open Text (IsPlain)

/-! ### Names of methods -/

namespace Source

/-- What stands between words. -/
def blanks : List Char := [' ', '\t', '\n', '\r']

/-- The name that the code in front of a method's body declares: the last word in front of the
parameters. -/
def Group.method (g : Group) : List Char :=
  (g.front.takeWhile (· ≠ '(')).rtakeWhile (· ∉ blanks)

/-- The letters and digits in front of the parameters are the end of the name. -/
theorem Group.method_append {front word back inside : List Char} (hfront : '(' ∉ front)
    (hword : ∀ c ∈ word, c.isAlphanum = true) :
    Group.method ⟨front ++ (word ++ '(' :: back), inside⟩ =
      front.rtakeWhile (· ∉ blanks) ++ word := by
  have hgap : ∀ c ∈ word, c ∉ '(' :: blanks := by
    have hnone : (('(' :: blanks).all fun c => !c.isAlphanum) = true := by decide
    intro c hc hmem
    have hnot := List.all_eq_true.mp hnone c hmem
    rw [hword c hc] at hnot
    cases hnot
  have hparen (c : Char) (hc : c ∈ word) : c ≠ '(' := List.ne_of_not_mem_cons (hgap c hc)
  have hblank (c : Char) (hc : c ∈ word) : c ∉ blanks := List.not_mem_of_not_mem_cons (hgap c hc)
  have hname : (front ++ (word ++ '(' :: back)).takeWhile (· ≠ '(') = front ++ word := by
    rw [← List.append_assoc, List.takeWhile_append_of_pos]
    · simp
    · intro c hc
      rcases List.mem_append.mp hc with hc | hc
      · exact decide_eq_true fun hparen => hfront (hparen ▸ hc)
      · exact decide_eq_true (hparen c hc)
  rw [method, hname, List.rtakeWhile, List.reverse_append, List.takeWhile_append_of_pos]
  · simp [List.rtakeWhile]
  · simpa using hblank

end Source

/-! ### Lines below others -/

namespace Style

/-- What stands in front of a line that is not the first one. -/
def start (s : Style) (level : Nat) : List Char :=
  s.newline.toList ++ (Text.repeated s.indent level).toList

/-- The characters of a line that is not the first one, with the end of the line above it. -/
def led (s : Style) (line : SourceLine) : List Char := s.start line.level ++ line.text.toList

/-- Below the first line each has the end of the line above it. -/
theorem toList_textOf_cons (s : Style) (text : String) (lines : List SourceLine) :
    (s.textOf (⟨0, text⟩ :: lines)).toList =
      text.toList ++ lines.flatMap s.led ++ s.newline.toList := by
  have hended : s.newline.toList ++ lines.flatMap s.charsOf =
      lines.flatMap s.led ++ s.newline.toList := by
    induction lines with
    | nil => simp
    | cons line lines ih => simp [charsOf, led, start, ← ih]
  rw [toList_textOf, List.flatMap_cons, charsOf_zero, List.append_assoc, hended, List.append_assoc]

theorem start_zero (s : Style) : s.start 0 = s.newline.toList := by
  simp [start, Text.repeated]

/-- A style without fault puts nothing but white space between lines. -/
theorem start_subset_blanks {s : Style} (hs : s.fault? = none) (level : Nat) :
    s.start level ⊆ blanks := by
  refine List.append_subset.mpr ⟨?_, ?_⟩
  · rcases s.newline_of_fault? hs with h | h <;> rw [h] <;> decide
  · rw [Text.repeated, String.toList_join]
    intro c hc
    obtain ⟨text, htext, hc⟩ := List.mem_flatMap.mp hc
    rw [List.eq_of_mem_replicate htext] at hc
    rcases s.indent_of_fault? hs c hc with rfl | rfl <;> decide

theorem notMem_start {s : Style} (hs : s.fault? = none) (level : Nat) {c : Char}
    (hc : c ∉ blanks) : c ∉ s.start level :=
  fun hmem => hc (start_subset_blanks hs level hmem)

theorem notMem_guides_of_mem_start {s : Style} (hs : s.fault? = none) (level : Nat) {c : Char}
    (hc : c ∈ s.start level) : c ∉ guides := by
  have hblanks : ∀ c ∈ blanks, c ∉ guides := by simp [blanks, guides]
  exact hblanks c (start_subset_blanks hs level hc)

/-- What is between lines is code of its own. -/
theorem isBalanced_start {s : Style} (hs : s.fault? = none) (level : Nat) :
    IsBalanced (s.start level) :=
  .of_notMem fun _ hc => notMem_guides_of_mem_start hs level hc

section

variable {s : Style} (hs : s.fault? = none)

include hs

theorem reads_led {deep : Bool} {line : SourceLine} {code : List Char}
    (h : Reads deep line.text.toList code) :
    Reads deep (s.led line) (s.start line.level ++ code) :=
  .append (.of_isBalanced (isBalanced_start hs _)) h

/-- Lines that are well nested each can stand below each other. -/
theorem reads_flatMap_led {lines : List SourceLine}
    (h : ∀ line ∈ lines, Reads true line.text.toList line.text.toList) :
    Reads true (lines.flatMap s.led) (lines.flatMap s.led) := by
  induction lines with
  | nil => exact .nil
  | cons line lines ih =>
    obtain ⟨hline, hlines⟩ := List.forall_mem_cons.mp h
    exact (reads_led hs hline).append (ih hlines)

/-- Lines in braces, of which the line above them opens the first, are read as a group. -/
theorem readsGroups_braces {above code : List Char} (habove : Reads false above code) {level : Nat}
    {opening : String} (hopening : IsBalanced opening.toList) {lines : List SourceLine}
    (hinside : Reads true (lines.flatMap s.led ++ s.start level)
      (lines.flatMap s.led ++ s.start level)) :
    ReadsGroups
      (above ++ ([⟨level, opening ++ "\x7b"⟩] ++ lines ++ [⟨level, "\x7d"⟩] :
        List SourceLine).flatMap s.led)
      [⟨code ++ (s.start level ++ opening.toList), lines.flatMap s.led ++ s.start level⟩] := by
  have hfront := habove.append (.of_isBalanced ((isBalanced_start hs level).append hopening))
  simpa [led] using ReadsGroups.group hfront hinside

/-- A comment that ends with its line, and the line end below it. -/
theorem reads_lineComment_start {text : List Char} (h : Text.OneLine text) (below : Nat)
    {line : SourceLine} (hline : line.text.toList = ['/', '/'] ++ text) :
    Reads true (s.led line ++ s.start below) (s.led line ++ s.start below) := by
  have hmargin : IsBalanced (Text.repeated s.indent below).toList := .of_notMem fun c hc =>
    notMem_guides_of_mem_start hs below (List.mem_append_right _ hc)
  have hnewline : s.newline.toList = ['\n'] ∨ s.newline.toList = ['\r', '\n'] := by
    rcases s.newline_of_fault? hs with h | h <;> simp [h]
  -- the end of the line belongs to the comment, so the text is cut behind it and not in front
  have hread : Reads false
      (s.start line.level ++ (['/', '/'] ++ text ++ s.newline.toList) ++
        (Text.repeated s.indent below).toList)
      (s.start line.level ++ s.newline.toList ++ (Text.repeated s.indent below).toList) :=
    .append (.append (.of_isBalanced (isBalanced_start hs _)) (.of_lineComment h hnewline))
      (.of_isBalanced hmargin)
  have hsame : s.led line ++ s.start below =
      s.start line.level ++ (['/', '/'] ++ text ++ s.newline.toList) ++
        (Text.repeated s.indent below).toList := by
    simp [led, hline, start]
  rw [hsame]
  exact hread.deepen

end

end Style

/-! ### Members -/

/-- A member of a class: what stands above it, the start of its declaration, and the lines of its
body. -/
structure Member where
  above : List SourceLine
  opening : String
  body : List SourceLine

namespace Member

/-- The lines of a member. -/
def lines (m : Member) : List SourceLine :=
  m.above ++ [⟨1, m.opening ++ "\x7b"⟩] ++ m.body ++ [⟨1, "\x7d"⟩]

/-- What stands between the braces of a member. -/
def inside (m : Member) (s : Style) : List Char := m.body.flatMap s.led ++ s.start 1

/-- A member is well nested. There are no parentheses in the code above it. -/
structure IsNested (m : Member) (s : Style) : Prop where
  above : ∃ code, '(' ∉ code ∧ Reads false (m.above.flatMap s.led) code
  opening : IsBalanced m.opening.toList
  body : Reads true (m.inside s) (m.inside s)

/-- A line without text is no code but white space. -/
theorem exists_reads_blank {s : Style} (hs : s.fault? = none) (level : Nat) :
    ∃ code, '(' ∉ code ∧ Reads false ([⟨level, ""⟩].flatMap s.led) code := by
  have hline : Reads false (s.led ⟨level, ""⟩) (s.start level ++ []) := Style.reads_led hs .nil
  exact ⟨s.start level, Style.notMem_start hs level (by decide), by simpa using hline⟩

/-- A member whose lines are well nested is. -/
theorem IsNested.of_lines {m : Member} {s : Style} (hs : s.fault? = none)
    (habove : ∃ code, '(' ∉ code ∧ Reads false (m.above.flatMap s.led) code)
    (hopening : IsBalanced m.opening.toList)
    (hbody : ∀ line ∈ m.body, Reads true line.text.toList line.text.toList) : m.IsNested s where
  above := habove
  opening := hopening
  body := (Style.reads_flatMap_led hs hbody).append (.of_isBalanced (Style.isBalanced_start hs 1))

/-- The body of a member may end with a comment that ends with its line. -/
theorem reads_inside_of_comment {m : Member} {s : Style} (hs : s.fault? = none)
    {lines : List SourceLine} {level : Nat} {comment : String} {text : List Char}
    (hbody : m.body = lines ++ [⟨level, comment⟩])
    (hlines : ∀ line ∈ lines, Reads true line.text.toList line.text.toList)
    (hcomment : comment.toList = ['/', '/'] ++ text) (htext : Text.OneLine text) :
    Reads true (m.inside s) (m.inside s) := by
  have hend : Reads true (s.led ⟨level, comment⟩ ++ s.start 1) _ :=
    Style.reads_lineComment_start hs htext 1 hcomment
  rw [inside, hbody, List.flatMap_append, List.append_assoc, List.flatMap_singleton]
  exact (Style.reads_flatMap_led hs hlines).append hend

/-- What a member is read as: the code in front of its body ends with its declaration. -/
def IsGroup (m : Member) (s : Style) (g : Group) : Prop :=
  ∃ code, '(' ∉ code ∧ g = ⟨code ++ m.opening.toList, m.inside s⟩

/-- A well nested member is read as a group. -/
theorem IsNested.exists_readsGroups {m : Member} {s : Style} (hs : s.fault? = none)
    (h : m.IsNested s) : ∃ g, m.IsGroup s g ∧ ReadsGroups (m.lines.flatMap s.led) [g] := by
  obtain ⟨code, hparen, habove⟩ := h.above
  have hstart : '(' ∉ s.start 1 := Style.notMem_start hs 1 (by decide)
  refine ⟨_, ⟨code ++ s.start 1, List.not_mem_append hparen hstart, rfl⟩, ?_⟩
  rw [lines, List.append_assoc, List.append_assoc, List.flatMap_append, ← List.append_assoc [_],
    List.append_assoc code]
  exact Style.readsGroups_braces hs habove h.opening h.body

/-- Members below each other are read as one group each. -/
theorem exists_readsGroups_flatMap {s : Style} (hs : s.fault? = none) {members : List Member}
    (h : ∀ m ∈ members, m.IsNested s) :
    ∃ groups, List.Forall₂ (IsGroup · s ·) members groups ∧
      ReadsGroups ((members.flatMap lines).flatMap s.led) groups := by
  induction members with
  | nil => exact ⟨[], .nil, .nil⟩
  | cons m members ih =>
    obtain ⟨hm, hmembers⟩ := List.forall_mem_cons.mp h
    obtain ⟨g, hg, hread⟩ := hm.exists_readsGroups hs
    obtain ⟨groups, hgroups, hreads⟩ := ih hmembers
    refine ⟨g :: groups, .cons hg hgroups, ?_⟩
    rw [List.flatMap_cons, List.flatMap_append]
    exact hread.append hreads

/-- The letters and digits in front of the parameters of a member. -/
def Declares (m : Member) (word : List Char) : Prop :=
  ∃ front back, m.opening.toList = front ++ (word ++ '(' :: back) ∧ '(' ∉ front ∧
    word.all Char.isAlphanum = true

/-- The name of a method ends with them. -/
theorem Declares.exists_method {m : Member} {s : Style} {word : List Char} {g : Group}
    (h : m.Declares word) (hg : m.IsGroup s g) : ∃ front, g.method = front ++ word := by
  obtain ⟨front, back, hopening, hfront, hword⟩ := h
  obtain ⟨code, hparen, rfl⟩ := hg
  rw [hopening, ← List.append_assoc]
  exact ⟨_, Group.method_append (List.not_mem_append hparen hfront) (List.all_eq_true.mp hword)⟩

end Member

end CallPlan

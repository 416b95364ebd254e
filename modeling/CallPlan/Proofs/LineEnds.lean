import CallPlan.Proofs.Lines
import CallPlan.Proofs.LiteralReading
import CallPlan.Proofs.SourceTexts
import CallPlan.Proofs.TestClasses

/-!
# The two kinds of line ends

A source file is the same with either kind of line end, but for the line ends: no line of a test
class or a suite holds a line feed of its own if the names in it hold none, whatever the comment
says and whatever the strings in the blocks are (`TestClass.lacksFeed_lines`). So a file whose lines
end in two characters is the one whose lines end in a line feed, with a carriage return put in front
of every line feed (`SourceFile.text_crlf`).
-/

namespace CallPlan

/-! ### Returns in front of line feeds -/

namespace Text

/-- The text with a carriage return in front of every line feed. -/
def withReturns (s : String) : String :=
  String.ofList (s.toList.flatMap fun c => if c = '\n' then ['\r', '\n'] else [c])

@[simp]
theorem withReturns_append (s t : String) :
    withReturns (s ++ t) = withReturns s ++ withReturns t := by
  simp [withReturns]

theorem withReturns_join (parts : List String) :
    withReturns (String.join parts) = String.join (parts.map withReturns) := by
  induction parts with
  | nil => rfl
  | cons part parts ih =>
    rw [String.join_cons, withReturns_append, ih, List.map_cons, String.join_cons]

/-- A text without line feeds stays as it is. -/
theorem withReturns_eq_self {s : String} (h : '\n' ∉ s.toList) : withReturns s = s := by
  have hself (cs : List Char) (hcs : '\n' ∉ cs) :
      cs.flatMap (fun c => if c = '\n' then ['\r', '\n'] else [c]) = cs := by
    refine (List.flatMap_congr fun c hc => ?_).trans (List.flatMap_singleton' cs)
    rw [if_neg]
    rintro rfl
    exact hcs hc
  rw [withReturns, hself _ h, String.ofList_toList]

/-- To hold no line feed is composable. -/
theorem composable_lineFeed_notMem : Composable ('\n' ∉ ·) where
  plain isPlain h := isPlain _ h (by decide)
  append front back := List.not_mem_append front back
  enclosed _ _ mem inside := by
    have hbrackets : ∀ bracket ∈ brackets, '\n' ∉ [bracket.1] ∧ '\n' ∉ [bracket.2] := by decide
    have hbracket := hbrackets _ mem
    exact List.not_mem_append (List.not_mem_append hbracket.1 inside) hbracket.2
  string s :=
    have hquote : OneLine ['"'] := by decide
    ((hquote.append (oneLine_escapeText s)).append hquote).1
  character c :=
    have hquote : OneLine ['\''] := by decide
    ((hquote.append (oneLine_escapeInChar c)).append hquote).1

end Text

/-- The text holds no line feed. -/
def LacksFeed (s : String) : Prop := '\n' ∉ s.toList

instance (s : String) : Decidable (LacksFeed s) := inferInstanceAs (Decidable (_ ∉ _))

@[simp]
theorem lacksFeed_append {s t : String} : LacksFeed (s ++ t) ↔ LacksFeed s ∧ LacksFeed t := by
  simp [LacksFeed]

/-! ### Lines in both styles -/

namespace Style

/-- The style with another end of lines. -/
def withNewline (s : Style) (newline : String) : Style := { s with newline }

/-- The texts that a style is made of, apart from the one that ends lines. -/
def words (s : Style) : List String :=
  [s.indent, s.baseClass, s.filteringBaseClass] ++ s.resetHook.toList

/-- Lines without line feeds differ in their ends only. -/
theorem textOf_crlf {s : Style} (hindent : LacksFeed s.indent) {lines : List SourceLine}
    (h : ∀ line ∈ lines, LacksFeed line.text) :
    (s.withNewline "\r\n").textOf lines = Text.withReturns ((s.withNewline "\n").textOf lines) := by
  have hrepeated (n : Nat) : LacksFeed (Text.repeated s.indent n) := by
    rw [LacksFeed, Text.repeated, String.toList_join, List.mem_flatMap]
    rintro ⟨text, htext, hfeed⟩
    exact hindent (List.eq_of_mem_replicate htext ▸ hfeed)
  have hnewline : Text.withReturns "\n" = "\r\n" := by decide
  rw [textOf, textOf, Page.text_addLines, Page.text_addLines, Text.withReturns_append,
    Text.withReturns_join, List.map_map]
  refine congrArg ("" ++ String.join ·) (List.map_congr_left fun line hline => ?_)
  simp only [Page.ofStyle, Page.blank, withNewline, Function.comp_apply, Nat.zero_add,
    Text.withReturns_append, hnewline, Text.withReturns_eq_self (hrepeated _),
    Text.withReturns_eq_self (h line hline)]

end Style

/-! ### Test classes -/

namespace TestClass

/-- The test class with another end of lines. -/
def withNewline (t : TestClass) (newline : String) : TestClass :=
  { t with style := t.style.withNewline newline }

variable {t : TestClass} (hwords : ∀ w ∈ t.words, LacksFeed w)
  (hstyle : ∀ w ∈ t.style.words, LacksFeed w)

include hwords

theorem lacksFeed_name : LacksFeed t.name := by
  intro hfeed
  rcases mem_nameWith hfeed with hfeed | hfeed
  · exact hwords _ t.simpleName_mem_words hfeed
  · cases hfeed

theorem lacksFeed_lines_block {b : Block} (hb : b ∈ t.blocks) (level : Nat) :
    ∀ line ∈ b.lines t.scope level, LacksFeed line.text := by
  have hblock : ∀ w ∈ b.words, LacksFeed w := fun w hw => hwords w (words_subset hb hw)
  rw [Block.lines, List.forall_mem_append, List.forall_mem_map, List.forall_mem_singleton]
  exact ⟨Block.composed_texts Text.composable_lineFeed_notMem t.scope hblock,
    (by decide : LacksFeed "\x7d")⟩

theorem lacksFeed_testLines {b : Block} (hb : b ∈ t.blocks) (number : Nat) :
    ∀ line ∈ t.testLines number b, LacksFeed line.text := by
  have hnumber : LacksFeed (toString number) := fun hfeed =>
    Text.isPlain_natText number _ hfeed (by decide)
  have hopening :
      LacksFeed ("public void test" ++ toString number ++ "() throws Throwable \x7b") := by
    simp only [lacksFeed_append, hnumber]
    decide
  have hblock := lacksFeed_lines_block hwords hb
  rw [testLines]
  split_ifs
  · rw [List.forall_mem_append, List.forall_mem_append]
    refine ⟨⟨?_, hblock 2⟩, by decide⟩
    simp only [List.forall_mem_cons, hopening]
    decide
  · rw [List.forall_mem_append]
    refine ⟨?_, hblock 1⟩
    simp only [List.forall_mem_cons, hopening]
    decide

/-- The lines of all test methods hold no line feeds. -/
theorem lacksFeed_testMethodLines : ∀ line ∈ t.testMethodLines, LacksFeed line.text := by
  rw [testMethodLines, List.forall_mem_flatten, List.forall_mem_map]
  exact fun entry hentry =>
    lacksFeed_testLines hwords (List.fst_mem_of_mem_zipIdx hentry) entry.2

theorem lacksFeed_qualifiedName {b : Block} (hb : b ∈ t.blocks) :
    LacksFeed b.operation.qualifiedName := by
  refine Operation.joined_qualifiedName Text.composable_lineFeed_notMem.toJoinable fun w hw => ?_
  exact hwords w (words_subset hb (List.mem_append_left _ hw))

/-- The lines behind the test methods hold no line feeds. -/
theorem lacksFeed_footerLines : ∀ line ∈ t.footerLines, LacksFeed line.text := by
  have hname := lacksFeed_name hwords
  have htested : ∀ line ∈ t.testedMethodLines, LacksFeed line.text := by
    unfold testedMethodLines
    split
    · rename_i first _ _ _ hblocks
      have hqualified : LacksFeed first.operation.qualifiedName :=
        lacksFeed_qualifiedName hwords (hblocks ▸ List.mem_cons_self)
      simp only [List.forall_mem_cons, lacksFeed_append, hqualified]
      decide
    · exact List.forall_mem_nil _
  rw [footerLines, List.forall_mem_append]
  refine ⟨htested, ?_⟩
  simp only [List.forall_mem_cons, lacksFeed_append, hname]
  decide

include hstyle

theorem lacksFeed_headerLines : ∀ line ∈ t.headerLines, LacksFeed line.text := by
  have hname := lacksFeed_name hwords
  have hbase : LacksFeed t.baseClass := by
    rw [baseClass]
    split_ifs
    · exact hstyle _ (by simp [Style.words])
    · exact hstyle _ (by simp [Style.words])
  have hreset : ∀ line ∈ t.resetLines, LacksFeed line.text := by
    unfold resetLines
    split
    · rename_i hook _ hhook
      rw [List.forall_mem_cons, List.forall_mem_singleton]
      exact ⟨by decide, hstyle _ (by simp [Style.words, hhook])⟩
    · exact List.forall_mem_nil _
  rw [headerLines, List.forall_mem_append, List.forall_mem_append]
  refine ⟨⟨?_, hreset⟩, by decide⟩
  simp only [List.forall_mem_cons, lacksFeed_append, hname, hbase]
  decide

/-- No line of a test class holds a line feed. -/
theorem lacksFeed_lines : ∀ line ∈ t.lines, LacksFeed line.text := by
  rw [lines]
  simp only [List.forall_mem_append]
  exact ⟨⟨⟨⟨lacksFeed_headerLines hwords hstyle, lacksFeed_testMethodLines hwords⟩, by decide⟩,
    lacksFeed_footerLines hwords⟩, by decide⟩

end TestClass

/-! ### Suites -/

/-- No line of a suite holds a line feed. -/
theorem Suite.lacksFeed_lines {testClasses : List String} (h : ∀ c ∈ testClasses, LacksFeed c) :
    ∀ line ∈ lines testClasses, LacksFeed line.text := by
  simp only [lines, List.forall_mem_append]
  refine ⟨⟨by decide, List.forall_mem_map.mpr fun c hc => ?_⟩, by decide⟩
  simp only [lacksFeed_append, h c hc]
  decide

/-! ### Source files -/

/-- No line of the comment holds a line feed, whatever the comment says. -/
theorem SourceFile.lacksFeed_commentLines {f : SourceFile} (hname : LacksFeed f.className) :
    ∀ line ∈ f.commentLines, LacksFeed line := by
  have hlines : ∀ line ∈ Text.lines f.comment.toList, LacksFeed (commentLine line) := by
    intro line hline
    rw [commentLine]
    split_ifs
    · decide
    · have hfeed : LacksFeed (String.ofList line) := by
        rw [LacksFeed, String.toList_ofList]
        exact Text.lineFeed_notMem_of_mem_lines hline
      exact lacksFeed_append.mpr ⟨by decide, hfeed⟩
  simp only [commentLines, List.forall_mem_append, List.forall_mem_map]
  refine ⟨⟨?_, hlines⟩, by decide⟩
  simp only [List.forall_mem_cons, fileName, lacksFeed_append, hname]
  decide

theorem SourceFile.lacksFeed_packageLines {f : SourceFile} (hpackage : LacksFeed f.package) :
    ∀ line ∈ f.packageLines, LacksFeed line := by
  rw [packageLines]
  split_ifs
  · exact List.forall_mem_nil _
  · simp only [List.forall_mem_cons, lacksFeed_append, hpackage]
    decide

/-- A file differs in its line ends only if its body does. -/
theorem SourceFile.text_crlf {f g : SourceFile} {s : Style} (hindent : LacksFeed s.indent)
    (hname : LacksFeed f.className) (hpackage : LacksFeed f.package)
    (hbody : g = { f with body := Text.withReturns f.body }) :
    g.text (s.withNewline "\r\n") = Text.withReturns (f.text (s.withNewline "\n")) := by
  subst hbody
  rw [text, text, Text.withReturns_append, ← Style.textOf_crlf hindent]
  · rfl
  · rw [List.forall_mem_map, List.forall_mem_append]
    exact ⟨lacksFeed_commentLines hname, lacksFeed_packageLines hpackage⟩

/-- **Line ends.** In either of the two kinds of line ends, the source of a test class is the same
text, but for a carriage return in front of every line feed: the names, the base classes, the reset
hook and the indentation must hold no line feed, and the comment and the literals may. The same is
true of suites. -/
theorem TestClass.source_crlf :
    (∀ t : TestClass, (∀ w ∈ t.words, LacksFeed w) → (∀ w ∈ t.style.words, LacksFeed w) →
      (t.withNewline "\r\n").source = Text.withReturns (t.withNewline "\n").source) ∧
    ∀ (package : String) (testClasses : List String) (comment : String) (s : Style),
      LacksFeed package → (∀ c ∈ testClasses, LacksFeed c) → (∀ w ∈ s.words, LacksFeed w) →
        (Suite.file package testClasses comment (s.withNewline "\r\n")).text
            (s.withNewline "\r\n") =
          Text.withReturns ((Suite.file package testClasses comment (s.withNewline "\n")).text
            (s.withNewline "\n")) := by
  have hindent {s : Style} (hstyle : ∀ w ∈ s.words, LacksFeed w) : LacksFeed s.indent :=
    hstyle _ List.mem_cons_self
  constructor
  · intro t hwords hstyle
    refine SourceFile.text_crlf (hindent hstyle) (lacksFeed_name hwords) ?_ ?_
    · exact hwords _ t.package_mem_words
    · have hbody := Style.textOf_crlf (hindent hstyle) (lacksFeed_lines hwords hstyle)
      exact congrArg (fun body => { t.sourceFile with body }) hbody
  · intro package testClasses comment s hpackage hclasses hstyle
    refine SourceFile.text_crlf (hindent hstyle) (by decide : LacksFeed Suite.name) hpackage ?_
    have hbody := Style.textOf_crlf (hindent hstyle) (Suite.lacksFeed_lines hclasses)
    exact congrArg (fun body => { Suite.file package testClasses comment s with body }) hbody

/-! ### A note of several lines -/

namespace Diary

/-- The class under test. -/
def tested : ClassName := .topLevel "demo" "Diary"

/-- A method that takes a string. -/
def note : Operation where
  owner := tested
  kind := .method "note" .void true false
  parameters := [.string]

/-- The call of the method on a string of two lines. -/
def block : Block where
  operation := note
  statements :=
    [.bind ⟨"s1", .string⟩ (.literal (.string "one\ntwo\r\n")),
     .run (.call note none [.var ⟨"s1", .string⟩])]
  names := ⟨['s']⟩

/-- The test class of the call, with a comment of three lines that end in three ways. -/
def testClass : TestClass where
  tested := tested
  scope := .besides tested
  blocks := [block]
  filtering := true
  suffix := 2
  comment := "first\r\nsecond\n\rthird\n"

/-- The line feeds in the comment and in the string do not matter. -/
theorem source_crlf_note :
    Block.build note none [.literal (.string "one\ntwo\r\n")] = .ok block ∧
      (∀ w ∈ testClass.words, LacksFeed w) ∧ (∀ w ∈ testClass.style.words, LacksFeed w) ∧
      (testClass.withNewline "\r\n").source =
        Text.withReturns (testClass.withNewline "\n").source ∧
      LacksFeed tested.package ∧ (∀ c ∈ [testClass.name], LacksFeed c) ∧
      (Suite.file tested.package [testClass.name] testClass.comment
          (testClass.style.withNewline "\r\n")).text (testClass.style.withNewline "\r\n") =
        Text.withReturns ((Suite.file tested.package [testClass.name] testClass.comment
          (testClass.style.withNewline "\n")).text (testClass.style.withNewline "\n")) := by
  have hwords : ∀ w ∈ testClass.words, LacksFeed w := by decide
  have hstyle : ∀ w ∈ testClass.style.words, LacksFeed w := by decide
  have hpackage : LacksFeed tested.package := by decide
  have hclasses : ∀ c ∈ [testClass.name], LacksFeed c := by decide
  exact ⟨rfl, hwords, hstyle, TestClass.source_crlf.1 testClass hwords hstyle, hpackage, hclasses,
    TestClass.source_crlf.2 _ _ _ _ hpackage hclasses hstyle⟩

end Diary

end CallPlan

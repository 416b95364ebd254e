import CallPlan.Proofs.Members
import CallPlan.Proofs.Steps
import CallPlan.Proofs.TestClasses

/-!
# The text of test classes

The text of a test class is well nested, and has one pair of outermost braces. Between them stand
its members, and among these one test method for each block, in the order of the blocks, with the
statements of the block and nothing else between the innermost braces
(`TestClass.exists_members_of_body`).
-/

namespace CallPlan

open Source
open Text (IsPlain)

namespace TestClass

/-! ### The members of a test class -/

/-- The name of a test method. -/
def testName (number : Nat) : String := "test" ++ toString number

/-- The lines of a comment about a method. -/
def aboutLines (text : String) : List SourceLine :=
  [⟨1, ""⟩, ⟨1, "/**"⟩, ⟨1, " * " ++ text⟩, ⟨1, " */"⟩]

def setUp (t : TestClass) : Member where
  above := aboutLines "Executed before each testXXX()."
  opening := "protected void setUp() "
  body := t.resetLines ++ [⟨2, "//TODO: my setup code goes here."⟩]

def tearDown : Member where
  above := aboutLines "Executed after each testXXX()."
  opening := "protected void tearDown() throws Exception "
  body := [⟨2, "super.tearDown();"⟩, ⟨2, "//TODO: my tear down code goes here."⟩]

/-- The test method of a block. -/
def test (t : TestClass) (number : Nat) (b : Block) : Member where
  above := [⟨0, ""⟩]
  opening := "public void " ++ testName number ++ "() throws Throwable "
  body :=
    if t.filtering then
      [⟨2, "try\x7b"⟩] ++ b.lines t.scope 2 ++
        [⟨2, "catch (Exception e) \x7bdispatchException(e);\x7d"⟩]
    else (b.texts t.scope).map (SourceLine.mk 2)

/-- The test methods, in the order of the blocks. -/
def tests (t : TestClass) : List Member :=
  t.blocks.zipIdx.map fun (b, number) => t.test number b

/-- The method that names the tested operation, if there is one. -/
def naming (t : TestClass) : List Member :=
  match t.filtering, t.sharedName?, t.blocks with
  | true, some _, first :: _ =>
    [{ above := [⟨1, ""⟩]
       opening := "protected String getNameOfTestedMeth() "
       body := [⟨2, "return \"" ++ first.operation.qualifiedName ++ "\";"⟩] }]
  | _, _, _ => []

/-- The constructor. -/
def making (t : TestClass) : Member where
  above := [⟨1, ""⟩]
  opening := "public " ++ t.name ++ "(String pName) "
  body := [⟨2, "super(pName);"⟩]

def suite (t : TestClass) : Member where
  above := [⟨1, ""⟩]
  opening := "public static junit.framework.Test suite() "
  body := [⟨2, "return new junit.framework.TestSuite(" ++ t.name ++ ".class);"⟩]

def main (t : TestClass) : Member where
  above := [⟨1, ""⟩]
  opening := "public static void main(String[] args) "
  body := [⟨2, "junit.textui.TestRunner.run(" ++ t.name ++ ".class);"⟩]

/-- How far in the innermost braces of test methods are. -/
def depth (t : TestClass) : Nat := if t.filtering then 2 else 1

/-- The members in front of the test methods. -/
def before (t : TestClass) : List Member := [t.setUp, tearDown]

/-- The members behind the test methods. -/
def after (t : TestClass) : List Member := t.naming ++ [t.making, t.suite, t.main]

/-- All members. -/
def members (t : TestClass) : List Member := t.before ++ t.tests ++ t.after

/-- The lines of a class are those of its members, between its first and its last one. -/
theorem lines_eq (t : TestClass) :
    t.lines = ⟨0, "public class " ++ t.name ++ " extends " ++ t.baseClass ++ " \x7b"⟩ ::
      (t.members.flatMap Member.lines ++ [⟨0, "\x7d"⟩]) := by
  have htest (number : Nat) (b : Block) : t.testLines number b = (t.test number b).lines := by
    have hopening : "public void test" ++ toString number ++ "() throws Throwable \x7b" =
        "public void " ++ testName number ++ "() throws Throwable " ++ "\x7b" :=
      String.toList_inj.mp (by simp [testName])
    rw [testLines, test, Member.lines]
    dsimp only
    rw [hopening]
    split_ifs <;> simp [Block.lines]
  have htests : t.testMethodLines = t.tests.flatMap Member.lines := by
    rw [testMethodLines, tests, List.flatMap_map, List.flatMap_def]
    exact congrArg List.flatten (List.map_congr_left fun entry _ => htest entry.2 entry.1)
  -- the empty line behind a method is the one above the next
  have hnaming : ⟨1, ""⟩ :: t.testedMethodLines = t.naming.flatMap Member.lines ++ [⟨1, ""⟩] := by
    cases hfiltering : t.filtering <;> cases hshared : t.sharedName? <;>
      cases hblocks : t.blocks <;>
        simp [testedMethodLines, naming, Member.lines, hfiltering, hshared, hblocks]
  have hfooter : ⟨1, ""⟩ :: t.footerLines = t.after.flatMap Member.lines := by
    have hopening : "public " ++ t.name ++ "(String pName) \x7b" =
        "public " ++ t.name ++ "(String pName) " ++ "\x7b" :=
      String.toList_inj.mp (by simp)
    rw [footerLines, ← List.cons_append, hnaming, hopening]
    simp [after, Member.lines, making, suite, main]
  have hheader : t.headerLines =
      ⟨0, "public class " ++ t.name ++ " extends " ++ t.baseClass ++ " \x7b"⟩ ::
        t.before.flatMap Member.lines := by
    simp [headerLines, before, setUp, tearDown, aboutLines, Member.lines]
  rw [lines, hheader, htests, members, List.flatMap_append, List.flatMap_append, ← hfooter]
  simp

/-! ### Well nested members -/

theorem isPlain_simpleName {t : TestClass} (hwords : ∀ w ∈ t.words, IsPlain w.toList) :
    IsPlain t.tested.simpleName.toList :=
  hwords _ t.simpleName_mem_words

theorem isPlain_name {t : TestClass} (hwords : ∀ w ∈ t.words, IsPlain w.toList) :
    IsPlain t.name.toList := fun c hc =>
  (mem_nameWith hc).elim (isPlain_simpleName hwords c) Text.notMem_structural_of_isAlphanum

/-- The name of the class can stand in a text in which brackets are balanced. -/
theorem isBalanced_name {t : TestClass} (hwords : ∀ w ∈ t.words, IsPlain w.toList)
    {front back : String} (h : IsBalanced (front ++ back).toList) :
    IsBalanced (front ++ t.name ++ back).toList := by
  rw [String.toList_append] at h
  rw [String.toList_append, String.toList_append]
  exact h.insert (notMem_guides_of_isPlain (isPlain_name hwords))

section

variable {t : TestClass} (hs : t.style.fault? = none)

include hs

/-- A comment about a method is well nested, and no parenthesis in it is read as code. -/
theorem exists_reads_aboutLines {text : String} (htext : '/' ∉ text.toList) :
    ∃ code, '(' ∉ code ∧ Reads false ((aboutLines text).flatMap t.style.led) code := by
  have hslash : '/' ∉ t.style.start 1 := Style.notMem_start hs 1 (by decide)
  have hparen : '(' ∉ t.style.start 1 := Style.notMem_start hs 1 (by decide)
  -- the comment between its two marks
  let comment := ['*'] ++ t.style.start 1 ++ (" * " ++ text).toList ++ t.style.start 1 ++ [' ']
  have hcomment : '/' ∉ comment := by
    simp [comment, hslash, htext]
  have hlines : (aboutLines text).flatMap t.style.led =
      t.style.start 1 ++ t.style.start 1 ++ (['/', '*'] ++ comment ++ ['*', '/']) := by
    simp [aboutLines, Style.led, comment]
  have hstart := Style.isBalanced_start hs 1
  refine ⟨t.style.start 1 ++ t.style.start 1 ++ [' '], by simp [hparen], ?_⟩
  rw [hlines]
  exact .append (.of_isBalanced (hstart.append hstart)) (.of_comment hcomment)

/-- The method that runs in front of each test is well nested if the reset hook is balanced. -/
theorem isNested_setUp (hhook : ∀ hook ∈ t.style.resetHook, IsBalanced hook.toList) :
    t.setUp.IsNested t.style where
  above := exists_reads_aboutLines hs (by decide)
  opening := (by decide : IsBalanced "protected void setUp() ".toList)
  body := by
    refine Member.reads_inside_of_comment hs rfl ?_ rfl (by decide)
    unfold resetLines
    split
    · rename_i hook _ hhook'
      rw [List.forall_mem_cons, List.forall_mem_singleton]
      have hslash : '/' ∉ " Re-initialize static fields of loaded classes. ".toList := by decide
      have hcomment : Reads true (['/', '*'] ++ _ ++ ['*', '/']) [' '] := .of_comment hslash
      exact ⟨by simpa using hcomment.deepen, .of_isBalanced (hhook _ hhook')⟩
    · exact List.forall_mem_nil _

theorem isNested_tearDown : tearDown.IsNested t.style where
  above := exists_reads_aboutLines hs (by decide)
  opening := (by decide : IsBalanced "protected void tearDown() throws Exception ".toList)
  body := by
    have hbody : tearDown.body =
        [⟨2, "super.tearDown();"⟩] ++ [⟨2, "//TODO: my tear down code goes here."⟩] := rfl
    refine Member.reads_inside_of_comment hs hbody ?_ rfl (by decide)
    rw [List.forall_mem_singleton]
    exact .of_isBalanced (by decide : IsBalanced "super.tearDown();".toList)

variable (hwords : ∀ w ∈ t.words, IsPlain w.toList)

include hwords

theorem isNested_making : t.making.IsNested t.style := by
  refine .of_lines hs (Member.exists_reads_blank hs 1) ?_ ?_
  · exact isBalanced_name hwords (by decide)
  · rw [making, List.forall_mem_singleton]
    exact .of_isBalanced (by decide : IsBalanced "super(pName);".toList)

theorem isNested_suite : t.suite.IsNested t.style := by
  refine .of_lines hs (Member.exists_reads_blank hs 1)
    (by decide : IsBalanced "public static junit.framework.Test suite() ".toList) ?_
  rw [suite, List.forall_mem_singleton]
  exact .of_isBalanced (isBalanced_name hwords (by decide))

theorem isNested_main : t.main.IsNested t.style := by
  refine .of_lines hs (Member.exists_reads_blank hs 1)
    (by decide : IsBalanced "public static void main(String[] args) ".toList) ?_
  rw [main, List.forall_mem_singleton]
  exact .of_isBalanced (isBalanced_name hwords (by decide))

/-- The method that names the tested operation is well nested. -/
theorem isNested_naming : ∀ m ∈ t.naming, m.IsNested t.style := by
  unfold naming
  split
  · rename_i first _ _ _ hblocks
    have hqualified : IsPlain first.operation.qualifiedName.toList := by
      have hfirst : first ∈ t.blocks := hblocks ▸ List.mem_cons_self
      refine Operation.joined_qualifiedName Text.joinable_isPlain fun w hw => ?_
      exact hwords w (words_subset hfirst (List.mem_append_left _ hw))
    have hliteral : Reads true
        ('"' :: first.operation.qualifiedName.toList ++ ['"'])
        ('"' :: first.operation.qualifiedName.toList ++ ['"']) :=
      .of_quotes (.inl rfl) (.of_isPlain (.inl rfl) hqualified)
    have hreturn : IsBalanced "return ".toList := by decide
    have hend : IsBalanced ";".toList := by decide
    rw [List.forall_mem_singleton]
    refine .of_lines hs (Member.exists_reads_blank hs 1)
      (by decide : IsBalanced "protected String getNameOfTestedMeth() ".toList) ?_
    rw [List.forall_mem_singleton]
    simpa using (Reads.append (.of_isBalanced hreturn) hliteral).append (.of_isBalanced hend)
  · exact List.forall_mem_nil _

/-! ### Test methods -/

/-- The text between the innermost braces of the test method of a block: the statements, each on a
line of its own. -/
def innermost (t : TestClass) (b : Block) : List Char :=
  ((b.texts t.scope).map (SourceLine.mk (t.depth + 1))).flatMap t.style.led ++ t.style.start t.depth

/-- The statements of a block are well nested. -/
theorem reads_innermost {b : Block} (hb : b ∈ t.blocks) :
    Reads true (t.innermost b) (t.innermost b) := by
  have hblock : ∀ w ∈ b.words, Reads true w.toList w.toList := fun w hw =>
    composable_reads.plain (hwords w (words_subset hb hw))
  have htexts := Block.composed_texts composable_reads t.scope hblock
  refine (Style.reads_flatMap_led hs ?_).append (.of_isBalanced (Style.isBalanced_start hs _))
  exact List.forall_mem_map.mpr htexts

/-- What a guarded test method does, and what it does if that fails. -/
theorem readsGroups_guarded {b : Block} (hb : b ∈ t.blocks) (hfiltering : t.filtering = true)
    (number : Nat) :
    ReadsGroups ((t.test number b).body.flatMap t.style.led)
      [⟨t.style.start 2 ++ "try".toList, t.innermost b⟩,
       ⟨t.style.start 2 ++ "catch (Exception e) ".toList, "dispatchException(e);".toList⟩] := by
  have hdepth : t.depth = 2 := if_pos hfiltering
  have hinnermost := reads_innermost hs hwords hb
  rw [innermost, hdepth] at hinnermost ⊢
  have htry := Style.readsGroups_braces hs .nil (by decide : IsBalanced "try".toList) hinnermost
  have hfront := (Style.isBalanced_start hs 2).append
    (by decide : IsBalanced "catch (Exception e) ".toList)
  have hcatch := ReadsGroups.group (.of_isBalanced hfront)
    (.of_isBalanced (by decide : IsBalanced "dispatchException(e);".toList))
  simpa [test, hfiltering, Block.lines, Style.led] using htry.append hcatch

/-- Test methods are well nested. -/
theorem isNested_test {b : Block} (hb : b ∈ t.blocks) (number : Nat) :
    (t.test number b).IsNested t.style where
  above := Member.exists_reads_blank hs 0
  opening := by
    have hnumber := notMem_guides_of_isPlain (Text.isPlain_natText number)
    have hopening : IsBalanced ("public void test".toList ++ "() throws Throwable ".toList) := by
      decide
    simpa [test, testName] using hopening.insert hnumber
  body := by
    cases hfiltering : t.filtering with
    | true =>
      exact (readsGroups_guarded hs hwords hb hfiltering number).nested.append
        (.of_isBalanced (Style.isBalanced_start hs 1))
    | false =>
      have hinnermost := reads_innermost hs hwords hb
      rw [innermost, depth, hfiltering] at hinnermost
      simpa [Member.inside, test, hfiltering] using hinnermost

/-- All members are well nested. -/
theorem isNested_members (hhook : ∀ hook ∈ t.style.resetHook, IsBalanced hook.toList) :
    ∀ m ∈ t.members, m.IsNested t.style := by
  have htests : ∀ m ∈ t.tests, m.IsNested t.style := by
    rw [tests, List.forall_mem_map]
    exact fun entry hentry => isNested_test hs hwords (List.fst_mem_of_mem_zipIdx hentry) entry.2
  simp only [members, before, after, List.forall_mem_append, List.forall_mem_cons]
  exact ⟨⟨⟨isNested_setUp hs hhook, isNested_tearDown hs, List.forall_mem_nil _⟩, htests⟩,
    isNested_naming hs hwords, isNested_making hs hwords, isNested_suite hs hwords,
    isNested_main hs hwords, List.forall_mem_nil _⟩

end

/-! ### Names of members -/

/-- The names of test methods have no other characters. -/
theorem mem_testName {number : Nat} {c : Char} (h : c ∈ (testName number).toList) :
    c ∈ "test".toList ∨ c.isDigit = true := by
  rw [testName, String.toList_append] at h
  refine (List.mem_append.mp h).imp_right fun hdigit => ?_
  rw [Nat.toString_eq_repr, Nat.toList_repr] at hdigit
  exact Nat.isDigit_of_mem_toDigits (by decide) (by decide) hdigit

/-- A test method is called by its number. -/
theorem method_eq_testName {t : TestClass} {number : Nat} {b : Block} {g : Group}
    (hg : (t.test number b).IsGroup t.style g) : g.method = (testName number).toList := by
  obtain ⟨code, hparen, rfl⟩ := hg
  have hword : ∀ c ∈ (testName number).toList, c.isAlphanum = true := by
    have hletters : ("test".toList.all Char.isAlphanum) = true := by decide
    intro c hc
    rcases mem_testName hc with hletter | hdigit
    · exact List.all_eq_true.mp hletters c hletter
    · rw [Char.isAlphanum, hdigit, Bool.or_true]
  have hopening : code ++ (t.test number b).opening.toList =
      (code ++ "public void".toList ++ [' ']) ++
        ((testName number).toList ++ '(' :: ") throws Throwable ".toList) := by
    simp [test]
  have hfront : '(' ∉ code ++ "public void".toList ++ [' '] :=
    List.not_mem_append (List.not_mem_append hparen (by decide)) (by decide)
  rw [hopening, Group.method_append hfront hword, List.rtakeWhile_concat_neg _ _ _ (by decide)]
  rfl

section

variable {t : TestClass} (hwords : ∀ w ∈ t.words, IsPlain w.toList)

include hwords

/-- The constructor declares the end of the name of the class. -/
theorem declares_making :
    t.making.Declares
      ("Test".toList ++ (if 0 < t.suffix then toString t.suffix else "").toList) := by
  have hsimple : '(' ∉ t.tested.simpleName.toList := fun hmem =>
    isPlain_simpleName hwords '(' hmem (by decide)
  refine ⟨"public ".toList ++ t.tested.simpleName.toList, "String pName) ".toList, ?_,
    List.not_mem_append (by decide) hsimple, List.all_eq_true.mpr fun c => isAlphanum_of_mem_ending⟩
  simp [making, name, nameWith]

/-- The other members have other names: there is a letter in them that test methods do not have. -/
theorem method_ne_testName {m : Member} (hm : m ∈ t.before ++ t.after) {g : Group}
    (hg : m.IsGroup t.style g) (number : Nat) : g.method ≠ (testName number).toList := by
  have hdeclares : ∃ word, m.Declares word ∧
      ∃ c ∈ word, c ∉ "test".toList ∧ c.isDigit = false := by
    simp only [before, after, List.mem_append, List.mem_cons, List.not_mem_nil, or_false] at hm
    rcases hm with (rfl | rfl) | hm | rfl | rfl | rfl
    · exact ⟨"setUp".toList,
        ⟨"protected void ".toList, ") ".toList, by simp [setUp], by decide, by decide⟩,
        'U', by decide, by decide, by decide⟩
    · exact ⟨"tearDown".toList,
        ⟨"protected void ".toList, ") throws Exception ".toList, by simp [tearDown], by decide,
          by decide⟩,
        'D', by decide, by decide, by decide⟩
    · unfold naming at hm
      split at hm
      · obtain rfl := List.mem_singleton.mp hm
        exact ⟨"getNameOfTestedMeth".toList,
          ⟨"protected String ".toList, ") ".toList, by simp, by decide, by decide⟩,
          'N', by decide, by decide, by decide⟩
      · cases hm
    · exact ⟨_, declares_making hwords, 'T', List.mem_append_left _ (by decide), by decide,
        by decide⟩
    · exact ⟨"suite".toList,
        ⟨"public static junit.framework.Test ".toList, ") ".toList, by simp [suite], by decide,
          by decide⟩,
        'u', by decide, by decide, by decide⟩
    · exact ⟨"main".toList,
        ⟨"public static void ".toList, "String[] args) ".toList, by simp [main], by decide,
          by decide⟩,
        'm', by decide, by decide, by decide⟩
  -- that word ends the name, so the name has the letter
  obtain ⟨word, hword, c, hc, hletter, hdigit⟩ := hdeclares
  obtain ⟨front, hmethod⟩ := hword.exists_method hg
  intro hsame
  rw [hmethod] at hsame
  have hmem : c ∈ (testName number).toList := hsame ▸ List.mem_append_right front hc
  rcases mem_testName hmem with hmem | hmem
  · exact hletter hmem
  · rw [hdigit] at hmem
    cases hmem

/-- What other members are read as has other names. -/
theorem method_ne_testName_of_forall₂ {members : List Member} {groups : List Group}
    (hmem : members ⊆ t.before ++ t.after)
    (h : List.Forall₂ (Member.IsGroup · t.style ·) members groups) :
    ∀ g ∈ groups, ∀ number, g.method ≠ (testName number).toList := by
  have hboth := (List.forall₂_and_left _ _).mpr ⟨hmem, h⟩
  refine (forall_mem_iff_of_forall₂ hboth fun m g hg => ?_).mp fun _ _ => trivial
  exact iff_of_true trivial (method_ne_testName hwords hg.1 hg.2)

end

/-! ### The text of a test class -/

/-- The members are all that stands between the braces of the class. -/
theorem toList_body (t : TestClass) :
    t.body.toList =
      ("public class " ++ t.name ++ " extends " ++ t.baseClass ++ " ").toList ++
        ('{' :: ((t.members.flatMap Member.lines).flatMap t.style.led ++ t.style.newline.toList) ++
          ['}']) ++ t.style.newline.toList := by
  rw [body, lines_eq, Style.toList_textOf_cons]
  simp [Style.led, Style.start_zero]

/-- The group is the test method of a block: it has its number in its name, and its innermost braces
hold the statements of the block and nothing else. If failures are passed on, these braces are those
of a statement that catches them. -/
structure IsTestOf (t : TestClass) (b : Block) (number : Nat) (g : Group) : Prop where
  method : g.method = (testName number).toList
  bare : t.filtering = false → g.inside = t.innermost b
  guarded : t.filtering = true →
    groups? g.inside = some (
      [⟨t.style.start 2 ++ "try".toList, t.innermost b⟩,
       ⟨t.style.start 2 ++ "catch (Exception e) ".toList, "dispatchException(e);".toList⟩],
      t.style.start 1)

/-- What the test method of a block is read as. -/
theorem IsTestOf.of_isGroup {t : TestClass} (hs : t.style.fault? = none)
    (hwords : ∀ w ∈ t.words, IsPlain w.toList) {b : Block} (hb : b ∈ t.blocks) {number : Nat}
    {g : Group} (hg : (t.test number b).IsGroup t.style g) : t.IsTestOf b number g where
  method := method_eq_testName hg
  bare hfiltering := by
    obtain ⟨code, -, rfl⟩ := hg
    simp [Member.inside, test, innermost, depth, hfiltering]
  guarded hfiltering := by
    obtain ⟨code, -, rfl⟩ := hg
    exact groups?_append (readsGroups_guarded hs hwords hb hfiltering number)
      (.of_isBalanced (Style.isBalanced_start hs 1))

/-- **Nesting.** The text of a test class is well nested, and between its one pair of outermost
braces there are the test methods of its blocks, in their order, and members with other names. The
base class and the names must have no brackets, quotes, slashes, backslashes and line ends, as
identifiers have none (`Text.isPlain_of_isIdentifier`), and the brackets of the reset hook must be
balanced. Backslashes are excluded like slashes because `getNameOfTestedMeth` returns the qualified
name of the operation between quotes as it is: a backslash there would begin an escape, and one at
the end of the name would leave the literal open. -/
theorem exists_members_of_body {t : TestClass} (hs : t.style.fault? = none)
    (hwords : ∀ w ∈ t.words, IsPlain w.toList) (hbase : IsPlain t.baseClass.toList)
    (hhook : ∀ hook ∈ t.style.resetHook, IsBalanced hook.toList) :
    ∃ inside before tests after,
      groups? t.body.toList =
        some ([⟨("public class " ++ t.name ++ " extends " ++ t.baseClass ++ " ").toList, inside⟩],
          t.style.newline.toList) ∧
      groups? inside = some (before ++ tests ++ after, t.style.newline.toList) ∧
      List.Forall₂ (fun entry g => t.IsTestOf entry.1 entry.2 g) t.blocks.zipIdx tests ∧
      ∀ g ∈ before ++ after, ∀ number, g.method ≠ (testName number).toList := by
  obtain ⟨hbefore, htests, hafter⟩ : (∀ m ∈ t.before, m.IsNested t.style) ∧
      (∀ m ∈ t.tests, m.IsNested t.style) ∧ ∀ m ∈ t.after, m.IsNested t.style := by
    have hmembers := isNested_members hs hwords hhook
    rw [members, List.forall_mem_append, List.forall_mem_append] at hmembers
    exact ⟨hmembers.1.1, hmembers.1.2, hmembers.2⟩
  obtain ⟨before, hbefore, hreadBefore⟩ := Member.exists_readsGroups_flatMap hs hbefore
  obtain ⟨tests, htests, hreadTests⟩ := Member.exists_readsGroups_flatMap hs htests
  obtain ⟨after, hafter, hreadAfter⟩ := Member.exists_readsGroups_flatMap hs hafter
  have hmembers := (hreadBefore.append hreadTests).append hreadAfter
  simp only [← List.flatMap_append] at hmembers
  have hend : Reads false t.style.newline.toList t.style.newline.toList := by
    have hstart := Style.isBalanced_start hs 0
    rw [Style.start_zero] at hstart
    exact .of_isBalanced hstart
  refine ⟨(t.members.flatMap Member.lines).flatMap t.style.led ++ t.style.newline.toList, before,
    tests, after, ?_, groups?_append hmembers hend, ?_, ?_⟩
  · have hfront :
        IsPlain ("public class " ++ t.name ++ " extends " ++ t.baseClass ++ " ").toList := by
      simp only [String.toList_append]
      have hname := isPlain_name hwords
      exact ((((by decide : IsPlain _).append hname).append (by decide)).append hbase).append
        (by decide)
    rw [toList_body]
    exact groups?_append (.group (.of_isBalanced (.of_isPlain hfront))
      (hmembers.nested.append hend.deepen)) hend
  · rw [TestClass.tests, List.forall₂_map_left_iff] at htests
    have hentries := (List.forall₂_and_left _ _).mpr
      ⟨fun entry hentry => List.fst_mem_of_mem_zipIdx hentry, htests⟩
    exact hentries.imp fun entry g h => .of_isGroup hs hwords h.1 h.2
  · exact List.forall_mem_append.mpr
      ⟨method_ne_testName_of_forall₂ hwords (List.subset_append_left _ _) hbefore,
        method_ne_testName_of_forall₂ hwords (List.subset_append_right _ _) hafter⟩

end TestClass

/-! ### A block full of brackets -/

namespace Quill

/-- The class under test. -/
def tested : ClassName := .topLevel "demo" "Quill"

/-- A method that takes texts and a character. -/
def write : Operation where
  owner := tested
  kind := .method "write" .void true false
  parameters := [.array .string, .primitive .char]

/-- Two texts, of which the first one has brackets, quotes and the end of a comment in it. -/
def texts : Expression :=
  .array .string [.literal (.string "\x7d */ \\\" \x7b("), .literal (.null .string rfl)]

/-- A quote. -/
def quote : Expression := .literal (.char '\'')

/-- The call of the method on the texts and the quote. -/
def block : Block where
  operation := write
  statements :=
    [.bind ⟨"s1", .array .string⟩ texts, .bind ⟨"c2", .primitive .char⟩ quote,
     .run (.call write none [.var ⟨"s1", .array .string⟩, .var ⟨"c2", .primitive .char⟩])]
  names := ⟨['c', 's']⟩

/-- The test class of the call. -/
def testClass : TestClass where
  tested := tested
  scope := .besides tested
  blocks := [block]
  filtering := true
  suffix := 1
  style := { newline := "\r\n" }

/-- The brackets in the literals do not matter. -/
theorem exists_members_of_body_write :
    Block.build write none [texts, quote] = .ok block ∧
      testClass.style.fault? = none ∧ (∀ w ∈ testClass.words, IsPlain w.toList) ∧
      IsPlain testClass.baseClass.toList ∧
      (∀ hook ∈ testClass.style.resetHook, IsBalanced hook.toList) ∧
      ∃ inside before tests after,
        groups? testClass.body.toList =
          some ([⟨("public class " ++ testClass.name ++ " extends " ++ testClass.baseClass ++
            " ").toList, inside⟩], testClass.style.newline.toList) ∧
        groups? inside = some (before ++ tests ++ after, testClass.style.newline.toList) ∧
        List.Forall₂ (fun entry g => testClass.IsTestOf entry.1 entry.2 g)
          testClass.blocks.zipIdx tests ∧
        ∀ g ∈ before ++ after, ∀ number, g.method ≠ (TestClass.testName number).toList := by
  have hs : testClass.style.fault? = none := by decide
  have hwords : ∀ w ∈ testClass.words, IsPlain w.toList := by decide
  have hbase : IsPlain testClass.baseClass.toList := by decide
  have hhook : ∀ hook ∈ testClass.style.resetHook, IsBalanced hook.toList := by
    rintro _ ⟨⟩
    decide
  exact ⟨rfl, hs, hwords, hbase, hhook,
    TestClass.exists_members_of_body hs hwords hbase hhook⟩

example : testClass.innermost block =
    ("\r\n\t\t\tString[] s1 = new String[]\x7b\"\x7d */ \\\\\\\" \x7b(\", (String)null\x7d;" ++
      "\r\n\t\t\tchar c2 = '\\'';\r\n\t\t\tQuill.write(s1, c2);\r\n\t\t").toList := by
  decide +kernel

end Quill

end CallPlan

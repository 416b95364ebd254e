import CallPlan.Proofs.Drafts
import CallPlan.Proofs.Statements

/-!
# Hidden types in test classes

A type of a package hides the type of the core package with the same simple name, which must then be
named by its qualified name. The statements of a test class do so, all but the wrapper classes of
numbers without digits. The lines around them do not: they have the simple names of the exception
classes and of the string class in them. Their drafts tell these names from other text
(`TestClass.text_draft`), so it is known when a test class names all types as its scope has it: the
scope must see every type that is fixed in the draft (`TestClass.mem_fixedNames_draft_iff`).
-/

namespace CallPlan

/-- Beside a class, a type of the core package is hidden by the top-level types of its name only. -/
theorem Scope.sees_core_withTypes_iff {c : ClassName} {types : List ClassName}
    {simpleName : String} :
    ((besides c).withTypes types).sees (.core simpleName) = true ↔
      c.package = ClassName.corePackage ∨
        ∀ u ∈ types, declares c.package u = true → u.simpleName ≠ simpleName := by
  simp [sees, withTypes, besides, ClassName.core, ClassName.topLevel, ClassName.inDefaultPackage,
    ClassName.corePackage]

/-! ### Statements -/

/-- The draft of a statement. -/
def Statement.draft : Statement → Draft
  | .bind v value =>
    v.type.draft ++ [.plain (" " ++ v.name ++ " = ")] ++ value.draft ++ [.plain ";"]
  | .run value => value.draft ++ [.plain ";"]

/-- With fixed names as they are, the draft of a statement reads as its text. -/
theorem Statement.text_draft (s : Scope) (statement : Statement) :
    statement.draft.text s id = statement.text s := by
  cases statement <;>
    simp [draft, text, Expression.text_draft, Fragment.text, String.append_assoc]

/-- What is fixed in a statement is fixed in the expression that it evaluates. -/
theorem Statement.mem_fixedNames_draft_iff {name : String} {statement : Statement} :
    name ∈ statement.draft.fixedNames ↔ statement.value.NamesWrapper name := by
  rw [← Expression.mem_fixedNames_draft_iff]
  cases statement <;> simp [draft, value]

/-! ### Lines -/

/-- A line of source text in the making. -/
structure DraftLine where
  level : Nat
  draft : Draft

namespace DraftLine

/-- The line that a draft reads as. -/
def read (s : Scope) (line : DraftLine) : SourceLine := ⟨line.level, line.draft.text s id⟩

/-- Lines that name no type. -/
def plain (lines : List SourceLine) : List DraftLine :=
  lines.map fun line => ⟨line.level, [.plain line.text]⟩

/-- All names that are fixed in lines. -/
def fixedNames (lines : List DraftLine) : List String :=
  lines.flatMap fun line => line.draft.fixedNames

@[simp]
theorem map_read_plain (s : Scope) (lines : List SourceLine) :
    (plain lines).map (read s) = lines := by
  simp [plain, read, Fragment.text, Function.comp_def]

@[simp]
theorem fixedNames_append (lines more : List DraftLine) :
    fixedNames (lines ++ more) = fixedNames lines ++ fixedNames more :=
  List.flatMap_append

@[simp]
theorem fixedNames_cons (line : DraftLine) (lines : List DraftLine) :
    fixedNames (line :: lines) = line.draft.fixedNames ++ fixedNames lines :=
  List.flatMap_cons

@[simp]
theorem fixedNames_nil : fixedNames [] = [] := rfl

theorem fixedNames_flatten (parts : List (List DraftLine)) :
    fixedNames parts.flatten = parts.flatMap fixedNames := by
  rw [← List.flatMap_id, fixedNames, List.flatMap_assoc]
  rfl

@[simp]
theorem fixedNames_plain (lines : List SourceLine) : fixedNames (plain lines) = [] := by
  simp [fixedNames, plain]

end DraftLine

namespace Style

/-- The draft of lines in a style. -/
def draftOf (style : Style) (lines : List DraftLine) : Draft :=
  lines.flatMap fun line =>
    [.plain (Text.repeated style.indent line.level)] ++ line.draft ++ [.plain style.newline]

/-- In a style, drafts of lines read as the lines do. -/
theorem text_draftOf (style : Style) (s : Scope) (lines : List DraftLine) :
    (style.draftOf lines).text s id = style.textOf (lines.map (DraftLine.read s)) := by
  rw [textOf, Page.text_addLines]
  induction lines with
  | nil => simp [draftOf, Page.ofStyle, Page.blank]
  | cons line lines ih =>
    rw [draftOf, List.flatMap_cons, ← draftOf, Draft.text_append, ih]
    simp [DraftLine.read, Fragment.text, Page.ofStyle, Page.blank, String.append_assoc]

/-- No name is fixed in what a style puts around lines. -/
@[simp]
theorem fixedNames_draftOf (style : Style) (lines : List DraftLine) :
    (style.draftOf lines).fixedNames = DraftLine.fixedNames lines := by
  induction lines with
  | nil => rfl
  | cons line lines ih =>
    rw [draftOf, List.flatMap_cons, ← draftOf, Draft.fixedNames_append, ih]
    simp

end Style

/-! ### Test classes -/

/-- The drafts of the lines of a block. -/
def Block.draftLines (b : Block) (level : Nat) : List DraftLine :=
  b.statements.map (fun statement => ⟨level + 1, statement.draft⟩) ++
    DraftLine.plain [⟨level, "\x7d"⟩]

/-- The drafts of a block read as its lines. -/
theorem Block.map_read_draftLines (b : Block) (s : Scope) (level : Nat) :
    (b.draftLines level).map (DraftLine.read s) = b.lines s level := by
  simp [draftLines, lines, texts, DraftLine.read, Statement.text_draft, Function.comp_def]

/-- What is fixed in a block are the wrapper classes that its statements name. -/
theorem Block.mem_fixedNames_draftLines_iff {name : String} {b : Block} {level : Nat} :
    name ∈ DraftLine.fixedNames (b.draftLines level) ↔
      ∃ statement ∈ b.statements, statement.value.NamesWrapper name := by
  simp [draftLines, DraftLine.fixedNames, DraftLine.plain, Statement.mem_fixedNames_draft_iff]

namespace TestClass

/-- The drafts of the start of the class. -/
def headerDraft (t : TestClass) : List DraftLine :=
  DraftLine.plain
    ([⟨0, "public class " ++ t.name ++ " extends " ++ t.baseClass ++ " \x7b"⟩,
      ⟨1, ""⟩,
      ⟨1, "/**"⟩,
      ⟨1, " * Executed before each testXXX()."⟩,
      ⟨1, " */"⟩,
      ⟨1, "protected void setUp() \x7b"⟩] ++
    t.resetLines ++
    [⟨2, "//TODO: my setup code goes here."⟩,
     ⟨1, "\x7d"⟩,
     ⟨1, ""⟩,
     ⟨1, "/**"⟩,
     ⟨1, " * Executed after each testXXX()."⟩,
     ⟨1, " */"⟩]) ++
  [⟨1, [.plain "protected void tearDown() throws ", .fixed "Exception", .plain " \x7b"]⟩] ++
  DraftLine.plain
    [⟨2, "super.tearDown();"⟩,
     ⟨2, "//TODO: my tear down code goes here."⟩,
     ⟨1, "\x7d"⟩]

/-- The drafts of a test method. -/
def testDraft (t : TestClass) (number : Nat) (b : Block) : List DraftLine :=
  let opening : Draft :=
    [.plain ("public void test" ++ toString number ++ "() throws "), .fixed "Throwable",
     .plain " \x7b"]
  let handler : Draft :=
    [.plain "catch (", .fixed "Exception", .plain " e) \x7bdispatchException(e);\x7d"]
  if t.filtering then
    DraftLine.plain [⟨0, ""⟩] ++ [⟨1, opening⟩] ++ DraftLine.plain [⟨2, "try\x7b"⟩] ++
      b.draftLines 2 ++ [⟨2, handler⟩] ++ DraftLine.plain [⟨1, "\x7d"⟩]
  else
    DraftLine.plain [⟨0, ""⟩] ++ [⟨1, opening⟩] ++ b.draftLines 1

/-- The drafts of all test methods. -/
def testMethodDraft (t : TestClass) : List DraftLine :=
  (t.blocks.zipIdx.map fun (b, number) => t.testDraft number b).flatten

/-- The drafts of the method by which the superclass learns which operation is tested. -/
def testedMethodDraft (t : TestClass) : List DraftLine :=
  match t.filtering, t.sharedName?, t.blocks with
  | true, some _, first :: _ =>
    [⟨1, [.plain "protected ", .fixed "String", .plain " getNameOfTestedMeth() \x7b"]⟩] ++
    DraftLine.plain
      [⟨2, "return \"" ++ first.operation.qualifiedName ++ "\";"⟩,
       ⟨1, "\x7d"⟩,
       ⟨1, ""⟩]
  | _, _, _ => []

/-- The drafts of what follows the test methods. -/
def footerDraft (t : TestClass) : List DraftLine :=
  t.testedMethodDraft ++
  [⟨1, [.plain ("public " ++ t.name ++ "("), .fixed "String", .plain " pName) \x7b"]⟩] ++
  DraftLine.plain
    [⟨2, "super(pName);"⟩,
     ⟨1, "\x7d"⟩,
     ⟨1, ""⟩,
     ⟨1, "public static junit.framework.Test suite() \x7b"⟩,
     ⟨2, "return new junit.framework.TestSuite(" ++ t.name ++ ".class);"⟩,
     ⟨1, "\x7d"⟩,
     ⟨1, ""⟩] ++
  [⟨1, [.plain "public static void main(", .fixed "String", .plain "[] args) \x7b"]⟩] ++
  DraftLine.plain
    [⟨2, "junit.textui.TestRunner.run(" ++ t.name ++ ".class);"⟩,
     ⟨1, "\x7d"⟩]

/-- The draft of the class. -/
def draft (t : TestClass) : Draft :=
  t.style.draftOf
    (t.headerDraft ++ t.testMethodDraft ++ DraftLine.plain [⟨1, ""⟩] ++ t.footerDraft ++
      DraftLine.plain [⟨0, "\x7d"⟩])

/-! ### Drafts of test classes and their texts -/

theorem map_read_headerDraft (t : TestClass) :
    t.headerDraft.map (DraftLine.read t.scope) = t.headerLines := by
  simp [headerDraft, headerLines, DraftLine.read, Fragment.text]

/-- The drafts of a test method read as its lines. -/
theorem map_read_testDraft (t : TestClass) (number : Nat) (b : Block) :
    (t.testDraft number b).map (DraftLine.read t.scope) = t.testLines number b := by
  unfold testDraft testLines
  split <;>
    simp [Block.map_read_draftLines, DraftLine.read, Fragment.text, String.append_assoc]

theorem map_read_testMethodDraft (t : TestClass) :
    t.testMethodDraft.map (DraftLine.read t.scope) = t.testMethodLines := by
  simp [testMethodDraft, testMethodLines, List.map_flatten, Function.comp_def, map_read_testDraft]

theorem map_read_footerDraft (t : TestClass) :
    t.footerDraft.map (DraftLine.read t.scope) = t.footerLines := by
  have htested : t.testedMethodDraft.map (DraftLine.read t.scope) = t.testedMethodLines := by
    unfold testedMethodDraft testedMethodLines
    cases t.filtering <;> cases t.sharedName? <;> cases t.blocks <;>
      simp [DraftLine.read, Fragment.text]
  simp [footerDraft, footerLines, htested, DraftLine.read, Fragment.text, String.append_assoc]

/-- With fixed names as they are, the draft of a test class reads as its text. -/
theorem text_draft (t : TestClass) : t.draft.text t.scope id = t.body := by
  rw [draft, Style.text_draftOf, body, lines]
  simp [map_read_headerDraft, map_read_testMethodDraft, map_read_footerDraft]

/-! ### Fixed names in test classes -/

/-- What is fixed in a test method are the types that it catches or lets through, and the wrapper
classes that its statements name. -/
theorem mem_fixedNames_testDraft_iff {name : String} {t : TestClass} {number : Nat} {b : Block} :
    name ∈ DraftLine.fixedNames (t.testDraft number b) ↔
      name = "Throwable" ∨ (∃ statement ∈ b.statements, statement.value.NamesWrapper name) ∨
        t.filtering = true ∧ name = "Exception" := by
  cases hfiltering : t.filtering <;>
    simp [testDraft, hfiltering, Block.mem_fixedNames_draftLines_iff]

theorem mem_fixedNames_testMethodDraft_iff {name : String} {t : TestClass} :
    name ∈ DraftLine.fixedNames t.testMethodDraft ↔
      ∃ b ∈ t.blocks, name = "Throwable" ∨
        (∃ statement ∈ b.statements, statement.value.NamesWrapper name) ∨
          t.filtering = true ∧ name = "Exception" := by
  -- the number of a test method is no type
  have hblocks : ∀ P : Block → Prop, (∃ entry ∈ t.blocks.zipIdx, P entry.1) ↔ ∃ b ∈ t.blocks, P b :=
    fun P => by
      conv_rhs => rw [← List.zipIdx_map_fst 0 t.blocks]
      simp only [List.mem_map, exists_exists_and_eq_and]
  rw [testMethodDraft, DraftLine.fixedNames_flatten, List.mem_flatMap, ← hblocks]
  simp only [List.mem_map, exists_exists_and_eq_and, mem_fixedNames_testDraft_iff]

/-- Fixed in the footer is the string class. -/
theorem mem_fixedNames_footerDraft_iff {name : String} {t : TestClass} :
    name ∈ DraftLine.fixedNames t.footerDraft ↔ name = "String" := by
  have htested : name ∈ DraftLine.fixedNames t.testedMethodDraft → name = "String" := by
    unfold testedMethodDraft
    split <;> simp
  simpa [footerDraft] using htested

/-- The names that are fixed in a test class: those of an exception class and of the string class
wherever the class comes from, another exception class if there is a test method, and the wrapper
classes of numbers without digits in the statements. -/
theorem mem_fixedNames_draft_iff {name : String} {t : TestClass} :
    name ∈ t.draft.fixedNames ↔
      name = "Exception" ∨ name = "String" ∨ (t.blocks ≠ [] ∧ name = "Throwable") ∨
        ∃ b ∈ t.blocks, ∃ statement ∈ b.statements, statement.value.NamesWrapper name := by
  have hheader : DraftLine.fixedNames t.headerDraft = ["Exception"] := by simp [headerDraft]
  simp only [draft, Style.fixedNames_draftOf, DraftLine.fixedNames_append,
    DraftLine.fixedNames_plain, List.append_nil, hheader, List.mem_append, List.mem_singleton,
    mem_fixedNames_testMethodDraft_iff, mem_fixedNames_footerDraft_iff]
  constructor
  · rintro ((rfl | ⟨b, hb, rfl | hstatement | ⟨-, rfl⟩⟩) | rfl)
    · exact .inl rfl
    · exact .inr (.inr (.inl ⟨List.ne_nil_of_mem hb, rfl⟩))
    · exact .inr (.inr (.inr ⟨b, hb, hstatement⟩))
    · exact .inl rfl
    · exact .inr (.inl rfl)
  · rintro (rfl | rfl | ⟨hblocks, rfl⟩ | ⟨b, hb, hstatement⟩)
    · exact .inl (.inl rfl)
    · exact .inr rfl
    · obtain ⟨b, hb⟩ := List.exists_mem_of_ne_nil _ hblocks
      exact .inl (.inr ⟨b, hb, .inl rfl⟩)
    · exact .inl (.inr ⟨b, hb, .inr (.inl hstatement)⟩)

/-- A test class **names every type as its scope has it** exactly if its scope sees the types of the
core package that it names whatever the scope: the string class, the exception class of its
declarations, that of its test methods if there are any, and the wrapper classes of the numbers
without digits in its statements. -/
theorem body_eq_textByScope_iff (t : TestClass) :
    t.draft.text t.scope id = t.body ∧
      (t.body = t.draft.textByScope t.scope ↔
        t.scope.sees (.core "Exception") = true ∧ t.scope.sees (.core "String") = true ∧
          (t.blocks ≠ [] → t.scope.sees (.core "Throwable") = true) ∧
            ∀ b ∈ t.blocks, ∀ statement ∈ b.statements, ∀ name,
              statement.value.NamesWrapper name → t.scope.sees (.core name) = true) := by
  refine ⟨t.text_draft, ?_⟩
  rw [← t.text_draft, Draft.text_eq_textByScope_iff]
  constructor
  · intro h
    have hfixed := fun {name} hname => h name (mem_fixedNames_draft_iff.mpr hname)
    exact ⟨hfixed (.inl rfl), hfixed (.inr (.inl rfl)),
      fun hblocks => hfixed (.inr (.inr (.inl ⟨hblocks, rfl⟩))),
      fun b hb statement hstatement name hname =>
        hfixed (.inr (.inr (.inr ⟨b, hb, statement, hstatement, hname⟩)))⟩
  · rintro ⟨hexception, hstring, hthrowable, hwrappers⟩ name hname
    obtain rfl | rfl | ⟨hblocks, rfl⟩ | ⟨b, hb, statement, hstatement, hnames⟩ :=
      mem_fixedNames_draft_iff.mp hname
    · exact hexception
    · exact hstring
    · exact hthrowable hblocks
    · exact hwrappers b hb statement hstatement name hnames

end TestClass

/-! ### A package with string and exception classes of its own -/

namespace Box

/-- The class under test. -/
def tested : ClassName := .topLevel "demo" "Box"

/-- A method that takes a string of the core package. -/
def take : Operation where
  owner := tested
  kind := .method "take" .void true false
  parameters := [.string]

/-- The call of the method on an empty string. -/
def block : Block where
  operation := take
  statements :=
    [.bind ⟨"s1", .string⟩ (.literal (.string "")), .run (.call take none [.var ⟨"s1", .string⟩])]
  names := ⟨['s']⟩

/-- The test class of the call, in a package that hides what test classes name. -/
def testClass : TestClass where
  tested := tested
  scope := (Scope.besides tested).withTypes
    (["String", "Exception", "Throwable"].map (ClassName.topLevel "demo"))
  blocks := [block]
  filtering := true

/-- The exception class of the core package is hidden there. -/
theorem sees_eq_false : testClass.scope.sees (.core "Exception") = false := by
  rw [Bool.eq_false_iff, ne_eq, testClass, Scope.sees_core_withTypes_iff]
  decide +kernel

/-- The statement has the qualified name of the string class, the lines around it have hidden simple
names. -/
theorem body_ne_textByScope :
    Block.build take none [.literal (.string "")] = .ok block ∧
      testClass.body ≠ testClass.draft.textByScope testClass.scope ∧
      [ClassName.core "Exception", .core "Throwable", .core "String"].map
          (fun c => c.nameIn testClass.scope) =
        ["java.lang.Exception", "java.lang.Throwable", "java.lang.String"] ∧
      ⟨1, "protected void tearDown() throws Exception \x7b"⟩ ∈ testClass.headerLines ∧
      ⟨1, "public void test0() throws Throwable \x7b"⟩ ∈ testClass.testMethodLines ∧
      ⟨3, "java.lang.String s1 = \"\";"⟩ ∈ testClass.testMethodLines ∧
      ⟨1, "public BoxTest(String pName) \x7b"⟩ ∈ testClass.footerLines := by
  refine ⟨rfl, fun hsame => ?_, by decide +kernel, by decide +kernel, by decide +kernel,
    by decide +kernel, by decide +kernel⟩
  rw [← TestClass.text_draft, Draft.text_eq_textByScope_iff] at hsame
  have hsees := hsame "Exception" (TestClass.mem_fixedNames_draft_iff.mpr (.inl rfl))
  rw [sees_eq_false] at hsees
  cases hsees

end Box

end CallPlan

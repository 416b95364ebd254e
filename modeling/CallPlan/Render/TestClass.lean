import CallPlan.Block.Basic
import CallPlan.Render.SourceFile

/-!
# Test classes

A test class has a test method for each of its blocks, between the methods that every test class
has. A filtering test class passes failures on to its superclass, which decides whether they count
against the tested operation.
-/

namespace CallPlan

/-! ### Blocks as text -/

/-- The lines of a block behind its opening brace: the statements one level further in, and the
closing brace. -/
def Block.lines (b : Block) (scope : Scope) (level : Nat) : List SourceLine :=
  (b.texts scope).map (SourceLine.mk (level + 1)) ++ [⟨level, "\x7d"⟩]

/-- The block between braces. All lines but the first start with `margin`; the last is not
ended. -/
def Block.braced (b : Block) (scope : Scope) (margin : String) (s : Style) : String :=
  "\x7b" ++ String.join ((b.lines scope 0).map fun line =>
    s.newline ++ margin ++ Text.repeated s.indent line.level ++ line.text)

/-! ### Test classes as text -/

/-- A test class. -/
structure TestClass where
  /-- The class under test. -/
  tested : ClassName
  /-- How the test class names types. -/
  scope : Scope
  blocks : List Block
  filtering : Bool
  /-- Positive numbers tell the test classes of one class apart. -/
  suffix : Int := 0
  comment : String := ""
  style : Style := {}

namespace TestClass

/-- The test class of blocks, beside the class under test. -/
def ofBlocks (tested : ClassName) (blocks : List Block) (filtering : Bool) : TestClass :=
  { tested, scope := .besides tested, blocks, filtering }

/-- The name of a test class with a suffix. -/
def nameWith (tested : ClassName) (suffix : Int) : String :=
  tested.simpleName ++ "Test" ++ if 0 < suffix then toString suffix else ""

/-- The simple name of the test class. -/
def name (t : TestClass) : String := nameWith t.tested t.suffix

/-- The name of the operation that all blocks test, if it is one. -/
def sharedName? (t : TestClass) : Option String :=
  match t.blocks with
  | [] => none
  | first :: rest =>
    if rest.all fun b => b.operation.name == first.operation.name then some first.operation.name
    else none

/-- The superclass. -/
def baseClass (t : TestClass) : String :=
  if t.filtering then t.style.filteringBaseClass else t.style.baseClass

/-- The statements that set classes back before a test. -/
def resetLines (t : TestClass) : List SourceLine :=
  match t.filtering, t.style.resetHook with
  | true, some hook =>
    [⟨2, "/* Re-initialize static fields of loaded classes. */"⟩, ⟨2, hook⟩]
  | _, _ => []

/-- The start of the class, up to its first test method. -/
def headerLines (t : TestClass) : List SourceLine :=
  [⟨0, "public class " ++ t.name ++ " extends " ++ t.baseClass ++ " \x7b"⟩,
   ⟨1, ""⟩,
   ⟨1, "/**"⟩,
   ⟨1, " * Executed before each testXXX()."⟩,
   ⟨1, " */"⟩,
   ⟨1, "protected void setUp() \x7b"⟩] ++
  t.resetLines ++
  [⟨2, "//TODO: my setup code goes here."⟩,
   ⟨1, "\x7d"⟩,
   ⟨1, ""⟩,
   ⟨1, "/**"⟩,
   ⟨1, " * Executed after each testXXX()."⟩,
   ⟨1, " */"⟩,
   ⟨1, "protected void tearDown() throws Exception \x7b"⟩,
   ⟨2, "super.tearDown();"⟩,
   ⟨2, "//TODO: my tear down code goes here."⟩,
   ⟨1, "\x7d"⟩]

/-- A test method, with an empty line in front of it. -/
def testLines (t : TestClass) (number : Nat) (b : Block) : List SourceLine :=
  let opening := "public void test" ++ toString number ++ "() throws Throwable \x7b"
  if t.filtering then
    [⟨0, ""⟩, ⟨1, opening⟩, ⟨2, "try\x7b"⟩] ++ b.lines t.scope 2 ++
      [⟨2, "catch (Exception e) \x7bdispatchException(e);\x7d"⟩, ⟨1, "\x7d"⟩]
  else
    [⟨0, ""⟩, ⟨1, opening⟩] ++ b.lines t.scope 1

/-- All test methods. -/
def testMethodLines (t : TestClass) : List SourceLine :=
  (t.blocks.zipIdx.map fun (b, number) => t.testLines number b).flatten

/-- The method by which the superclass learns which operation is tested. -/
def testedMethodLines (t : TestClass) : List SourceLine :=
  match t.filtering, t.sharedName?, t.blocks with
  | true, some _, first :: _ =>
    [⟨1, "protected String getNameOfTestedMeth() \x7b"⟩,
     ⟨2, "return \"" ++ first.operation.qualifiedName ++ "\";"⟩,
     ⟨1, "\x7d"⟩,
     ⟨1, ""⟩]
  | _, _, _ => []

/-- What follows the test methods, without the end of the class. -/
def footerLines (t : TestClass) : List SourceLine :=
  t.testedMethodLines ++
  [⟨1, "public " ++ t.name ++ "(String pName) \x7b"⟩,
   ⟨2, "super(pName);"⟩,
   ⟨1, "\x7d"⟩,
   ⟨1, ""⟩,
   ⟨1, "public static junit.framework.Test suite() \x7b"⟩,
   ⟨2, "return new junit.framework.TestSuite(" ++ t.name ++ ".class);"⟩,
   ⟨1, "\x7d"⟩,
   ⟨1, ""⟩,
   ⟨1, "public static void main(String[] args) \x7b"⟩,
   ⟨2, "junit.textui.TestRunner.run(" ++ t.name ++ ".class);"⟩,
   ⟨1, "\x7d"⟩]

/-- All lines of the class. -/
def lines (t : TestClass) : List SourceLine :=
  t.headerLines ++ t.testMethodLines ++ [⟨1, ""⟩] ++ t.footerLines ++ [⟨0, "\x7d"⟩]

def header (t : TestClass) : String := t.style.textOf t.headerLines

def testMethods (t : TestClass) : String := t.style.textOf t.testMethodLines

def footer (t : TestClass) : String := t.style.textOf t.footerLines

/-- The text of the class. -/
def body (t : TestClass) : String := t.style.textOf t.lines

/-- The file that holds the class, in the package of the class under test. -/
def sourceFile (t : TestClass) : SourceFile :=
  { className := t.name, package := t.tested.package, comment := t.comment, body := t.body }

/-- The text of the file that holds the class. -/
def source (t : TestClass) : String := t.sourceFile.text t.style

end TestClass

end CallPlan

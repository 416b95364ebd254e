import CallPlan.Pieces
import CallPlan.Render.TestClass

/-!
# Suites

The blocks of a class are spread over test classes of limited size, whose names avoid those that are
taken in the package. One more class in each package runs all of them.
-/

namespace CallPlan

namespace TestClass

/-- Test classes of at most `most` blocks each. One that holds all blocks has no suffix, several are
numbered from one. -/
def split (tested : ClassName) (blocks : List Block) (most : Nat) (filtering : Bool) :
    Except RenderError (List TestClass) :=
  if most = 0 then .error .noTestPerClass
  else if blocks.isEmpty then .ok []
  else if blocks.length ≤ most then .ok [ofBlocks tested blocks filtering]
  else
    .ok ((pieces (most - 1) blocks).zipIdx.map fun (piece, index) =>
      { ofBlocks tested piece filtering with suffix := index + 1 })

/-- The first number from `start` on that leads to a name not taken. Among as many numbers as there
are taken names and one more, one is free. -/
def firstFree (taken : List String) (tested : ClassName) : Nat → Nat → Nat
  | 0, start => start
  | fuel + 1, start =>
    if taken.contains (nameWith tested start) then firstFree taken tested fuel (start + 1)
    else start

/-- Numbers test classes from `next` on, leaving out what is taken. -/
def renumber (taken : List String) (next : Nat) : List TestClass → List TestClass
  | [] => []
  | t :: rest =>
    let number := firstFree taken t.tested taken.length next
    { t with suffix := number } :: renumber taken (number + 1) rest

/-- The test classes, numbered anew from one if one of their names is taken. -/
def avoid (taken : List String) (classes : List TestClass) : List TestClass :=
  if classes.all fun t => !taken.contains t.name then classes
  else renumber taken 1 classes

end TestClass

namespace Suite

/-- The simple name of the class that runs a package's test classes. -/
def name : String := "JUnitAll"

/-- The lines of the class. -/
def lines (testClasses : List String) : List SourceLine :=
  [⟨0, "public class " ++ name ++ " \x7b"⟩,
   ⟨1, ""⟩,
   ⟨1, "public static junit.framework.Test suite() \x7b"⟩,
   ⟨2, "junit.framework.TestSuite suite = new junit.framework.TestSuite(\"" ++ name ++ "\");"⟩] ++
  testClasses.map (fun c => ⟨2, "suite.addTestSuite(" ++ c ++ ".class);"⟩) ++
  [⟨2, "return suite;"⟩,
   ⟨1, "\x7d"⟩,
   ⟨1, ""⟩,
   ⟨1, "public static void main(String[] args) \x7b"⟩,
   ⟨2, "junit.textui.TestRunner.run(" ++ name ++ ".suite());"⟩,
   ⟨1, "\x7d"⟩,
   ⟨0, "\x7d"⟩]

/-- The file of the class that runs the test classes of a package. -/
def file (package : String) (testClasses : List String) (comment : String) (s : Style) :
    SourceFile :=
  { className := name, package, comment, body := s.textOf (lines testClasses) }

end Suite

end CallPlan

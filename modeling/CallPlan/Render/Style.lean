import CallPlan.Text.Blank
import CallPlan.Text.Quoted
import CallPlan.Toml.Datum

/-!
# Style of generated sources

The settings that the text of generated test classes depends on, and what is demanded of them.
-/

namespace CallPlan

/-- How test classes are written. -/
structure Style where
  /-- One level of indentation. -/
  indent : String := "\t"
  /-- What ends a line. -/
  newline : String := "\n"
  /-- Superclass of test classes that let every failure through. -/
  baseClass : String := "junit.framework.TestCase"
  /-- Superclass of test classes that pass failures on for classification. -/
  filteringBaseClass : String := "edu.gatech.cc.junit.FilteringTestCase"
  /-- A statement that sets classes back to their initial state before a test. -/
  resetHook : Option String :=
    some "edu.gatech.cc.junit.reinit.ClassRegistry.resetClasses();"
deriving DecidableEq, Repr

/-- Why sources cannot be rendered. -/
inductive RenderError where
  /-- Test classes are to hold no test. -/
  | noTestPerClass
  | indent (found : String)
  | newline (found : String)
  | emptyBaseClass
  | emptyFilteringBaseClass
deriving DecidableEq, Repr

/-- The reason in words. -/
def RenderError.message : RenderError → String
  | noTestPerClass => "Invalid argument: a test class must hold at least one test"
  | indent found =>
    "Invalid writer configuration: indent " ++ Text.quoteString found ++ " must be spaces or tabs"
  | newline found =>
    "Invalid writer configuration: newline " ++ Text.quoteString found ++
      " must be \\n or \\r\\n"
  | emptyBaseClass => "Invalid writer configuration: base_class must not be empty"
  | emptyFilteringBaseClass =>
    "Invalid writer configuration: filtering_base_class must not be empty"

namespace Style

/-- The first demand that a style does not meet: indentation of blanks and tabs, a line end of the
two usual kinds, and names for both superclasses. -/
def fault? (s : Style) : Option RenderError :=
  if !s.indent.toList.all fun c => c = ' ' || c = '\t' then some (.indent s.indent)
  else if s.newline ≠ "\n" ∧ s.newline ≠ "\r\n" then some (.newline s.newline)
  else if Text.allBlank s.baseClass.toList then some .emptyBaseClass
  else if Text.allBlank s.filteringBaseClass.toList then some .emptyFilteringBaseClass
  else none

/-- The style if it meets all demands. -/
def check (s : Style) : Except RenderError Style :=
  match s.fault? with
  | some fault => .error fault
  | none => .ok s

open Toml (Datum optional?) in
/-- The style that a record describes; what it does not mention is as usual. -/
def ofDatum? (v : Datum) : Option Style := do
  let fields ← v.record?
    ["indent", "newline", "base_class", "filtering_base_class", "reset_hook"]
  let usual : Style := {}
  let indent ← optional? Datum.text? usual.indent "indent" fields
  let newline ← optional? Datum.text? usual.newline "newline" fields
  let baseClass ← optional? Datum.text? usual.baseClass "base_class" fields
  let filteringBaseClass ←
    optional? Datum.text? usual.filteringBaseClass "filtering_base_class" fields
  let resetHook ←
    optional? (fun v => v.text?.map some) usual.resetHook "reset_hook" fields
  return { indent, newline, baseClass, filteringBaseClass, resetHook }

end Style

end CallPlan

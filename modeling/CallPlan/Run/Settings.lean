import CallPlan.Plan.Error
import CallPlan.Render.Style
import CallPlan.Signature.CatalogFile

/-!
# Settings

The settings of a run. They come from a file or are the usual ones, can be overridden one by one,
and have to meet some demands before they are used.
-/

namespace CallPlan

/-- The settings of a run. -/
structure Settings where
  /-- How deep calls may nest in a plan. -/
  depth : Nat := 3
  /-- The operations that are tested. -/
  tested : Access := .global
  /-- The operations that arguments are made with. -/
  used : Access := .global
  /-- Whether failures are classified when the tests run. -/
  filtering : Bool := true
  /-- How many plans of an operation a sample takes; zero is no limit. -/
  plansPerOperation : Nat := 500
  testsPerClass : Nat := 500
  /-- How many parts of the work are done side by side. -/
  workers : Nat := 1
  /-- A comment for all files. -/
  comment : String := "This file was automatically generated by crasher."
  style : Style := {}
deriving DecidableEq, Repr

/-- Why settings cannot be used. -/
inductive SettingsError where
  /-- A text that holds no settings. -/
  | malformed
  | depthZero
  | testsPerClassZero
  | workersZero
  | plansPerOperationTooLarge
  | style (e : RenderError)
deriving DecidableEq, Repr

/-- The reason in words. -/
def SettingsError.message : SettingsError → String
  | malformed => "invalid settings"
  | depthZero => "max_depth must be at least 1"
  | testsPerClassZero => "max_tests_per_unit must be at least 1"
  | workersZero => "workers must be at least 1"
  | plansPerOperationTooLarge =>
    "max_plans_per_function must be at most " ++ toString maxSample
  | style e => e.message

/-- Values that take precedence over those of the settings. -/
structure Overrides where
  depth : Option Nat := none
  filtering : Option Bool := none
  plansPerOperation : Option Nat := none
  workers : Option Nat := none
deriving DecidableEq, Repr

namespace Settings

/-- The first demand that the settings do not meet. -/
def fault? (s : Settings) : Option SettingsError :=
  if s.depth = 0 then some .depthZero
  else if s.testsPerClass = 0 then some .testsPerClassZero
  else if s.workers = 0 then some .workersZero
  else if maxSample < s.plansPerOperation then some .plansPerOperationTooLarge
  else s.style.fault?.map .style

/-- The settings if they meet all demands. -/
def check (s : Settings) : Except SettingsError Settings :=
  match s.fault? with
  | some fault => .error fault
  | none => .ok s

/-- The settings with the given values put in. -/
def override (s : Settings) (o : Overrides) : Settings :=
  { s with
    depth := o.depth.getD s.depth
    filtering := o.filtering.getD s.filtering
    plansPerOperation := o.plansPerOperation.getD s.plansPerOperation
    workers := o.workers.getD s.workers }

open Toml (Datum optional?) in
/-- The settings that the fields of a document describe; what they do not mention is as usual. -/
def ofFields? (fields : List (String × Datum)) : Option Settings := do
  let usual : Settings := {}
  let depth ← optional? Datum.count? usual.depth "max_depth" fields
  let tested ← optional? readAccess? usual.tested "visibility_tested" fields
  let used ← optional? readAccess? usual.used "visibility_used" fields
  let filtering ← optional? Datum.boolean? usual.filtering "filtering" fields
  let plansPerOperation ←
    optional? Datum.count? usual.plansPerOperation "max_plans_per_function" fields
  let testsPerClass ← optional? Datum.count? usual.testsPerClass "max_tests_per_unit" fields
  let workers ← optional? Datum.count? usual.workers "workers" fields
  let comment ← optional? Datum.text? usual.comment "comment" fields
  let style ← optional? Style.ofDatum? usual.style "writer" fields
  return { depth, tested, used, filtering, plansPerOperation, testsPerClass, workers,
           comment, style }

/-- Reads a settings file. -/
def parse (text : String) : Except SettingsError Settings :=
  match Toml.parse text >>= ofFields? with
  | none => .error .malformed
  | some s => s.check

end Settings

end CallPlan

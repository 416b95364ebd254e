import CallPlan.Plan.Verdict
import CallPlan.Proofs.TypeNames

/-!
# When failures are accounted for

What accounts for an error is one of five reasons (`Operation.Explains`). The verdict finds all of
them and takes one more: an exception whose type is a member type of the core package is told by its
simple name alone, so it passes for the top-level type of that name (`Operation.Confuses`). The
verdict is right on every error that is not confused in this way, or is accounted for anyway
(`Operation.judge_eq_expected_iff`).
-/

namespace CallPlan

/-! ### Reasons -/

/-- The exceptions by which an operation rejects a call. -/
def ClassName.rejections : List ClassName := rejectionNames.map core

/-- The frame lies in the test harness. -/
def InHarness (frame : String) : Prop := ∃ root ∈ harnessRoots, root.toList <+: frame.toList

/-- The error **is accounted for** in a test of the operation: it says nothing about what the
operation does, or it is a failure that the operation declares, that the test harness raised, or by
which the operation itself rejected the call. -/
inductive Operation.Explains (op : Operation) : EvalError → Prop
  | inaccessible (called : String) : Explains op (.inaccessible called)
  | notInstantiable (type message : String) : Explains op (.notInstantiable type message)
  | declared {called : String} {f : Failure} (mem : f.exception ∈ op.failures) :
      Explains op (.raised called f)
  | harness {called : String} {f : Failure} {frame : String} (raisedIn : f.raisedIn = some frame)
      (inHarness : InHarness frame) : Explains op (.raised called f)
  | rejected {called : String} {f : Failure} (raisedIn : f.raisedIn = some op.qualifiedName)
      (mem : f.exception ∈ ClassName.rejections) : Explains op (.raised called f)

/-- A member type of the core package, with the simple name of an exception by which calls are
rejected. -/
structure ClassName.IsNamesake (c : ClassName) : Prop where
  package : c.package = corePackage
  isMember : c.isMember = true
  simpleName : c.simpleName ∈ rejectionNames

/-- The operation itself raised an exception that only shares its simple name with one by which
calls are rejected. -/
inductive Operation.Confuses (op : Operation) : EvalError → Prop
  | namesake {called : String} {f : Failure} (raisedIn : f.raisedIn = some op.qualifiedName)
      (isNamesake : f.exception.IsNamesake) : Confuses op (.raised called f)

/-! ### What the verdict looks at -/

/-- A type is taken for one by which calls are rejected if it is one, or a namesake. -/
theorem isRejection_iff {c : ClassName} :
    isRejection c = true ↔ c ∈ ClassName.rejections ∨ c.IsNamesake := by
  have hexact : c ∈ ClassName.rejections ↔
      c.package = ClassName.corePackage ∧ c.isMember = false ∧ c.simpleName ∈ rejectionNames := by
    simp only [ClassName.rejections, List.mem_map, ClassName.core, @eq_comm _ _ c,
      ← Scope.declares_iff, Scope.declares, Bool.and_eq_true, beq_iff_eq, Bool.not_eq_true']
    constructor
    · rintro ⟨name, hname, ⟨hpackage, hmember⟩, rfl⟩
      exact ⟨hpackage, hmember, hname⟩
    · rintro ⟨hpackage, hmember, hname⟩
      exact ⟨_, hname, ⟨hpackage, hmember⟩, rfl⟩
  rw [isRejection, Bool.and_eq_true, beq_iff_eq, List.contains_iff_mem, hexact]
  constructor
  · rintro ⟨hpackage, hname⟩
    cases hmember : c.isMember with
    | false => exact .inl ⟨hpackage, rfl, hname⟩
    | true => exact .inr ⟨hpackage, hmember, hname⟩
  · rintro (⟨hpackage, -, hname⟩ | ⟨hpackage, -, hname⟩) <;> exact ⟨hpackage, hname⟩

theorem isHarnessFrame_iff {frame : String} : isHarnessFrame frame = true ↔ InHarness frame := by
  simp [isHarnessFrame, InHarness, List.any_eq_true, List.isPrefixOf_iff_prefix]

/-- A failure is accounted for by its type, by the frame, or by both. -/
theorem Operation.accountsFor_iff {op : Operation} {f : Failure} :
    op.accountsFor f = true ↔ f.exception ∈ op.failures ∨
      (∃ frame, f.raisedIn = some frame ∧ InHarness frame) ∨
      (f.raisedIn = some op.qualifiedName ∧
        (f.exception ∈ ClassName.rejections ∨ f.exception.IsNamesake)) := by
  rw [accountsFor, Bool.or_eq_true, List.contains_iff_mem]
  cases f.raisedIn with
  | none => simp
  | some frame => simp [isHarnessFrame_iff, isRejection_iff]

/-! ### Verdicts -/

namespace Operation

variable {op : Operation}

theorem judge_raised_iff {called : String} {f : Failure} :
    op.judge (.raised called f) = .expected ↔ op.accountsFor f = true := by
  rw [judge]
  split_ifs with h
  · exact iff_of_true rfl h
  · exact iff_of_false (by decide) h

/-- The verdict finds every reason, and is wrong about namesakes only. -/
theorem judge_eq_expected_iff_or {e : EvalError} :
    op.judge e = .expected ↔ op.Explains e ∨ op.Confuses e := by
  cases e with
  | inaccessible called => exact iff_of_true rfl (.inl (.inaccessible called))
  | notInstantiable type message => exact iff_of_true rfl (.inl (.notInstantiable type message))
  | unbound name =>
    refine iff_of_false (by simp [judge]) ?_
    rintro (h | h) <;> cases h
  | raised called f =>
    rw [judge_raised_iff, accountsFor_iff]
    constructor
    · rintro (hdeclared | ⟨frame, hframe, hharness⟩ | ⟨hframe, hrejection | hnamesake⟩)
      · exact .inl (.declared hdeclared)
      · exact .inl (.harness hframe hharness)
      · exact .inl (.rejected hframe hrejection)
      · exact .inr (.namesake hframe hnamesake)
    · rintro ((_ | _ | hdeclared | ⟨hframe, hharness⟩ | ⟨hframe, hrejection⟩) | ⟨hframe, hnamesake⟩)
      · exact .inl hdeclared
      · exact .inr (.inl ⟨_, hframe, hharness⟩)
      · exact .inr (.inr ⟨hframe, .inl hrejection⟩)
      · exact .inr (.inr ⟨hframe, .inr hnamesake⟩)

/-- **Verdicts.** Errors that are accounted for are expected. The others are not, but for one kind:
exceptions that the operation itself raised, and whose type is a member type of the core package
with the simple name of an exception by which calls are rejected. -/
theorem judge_eq_expected_iff (op : Operation) (e : EvalError) :
    (op.judge e = .expected ↔ op.Explains e ∨ op.Confuses e) ∧
      ((op.judge e = .expected ↔ op.Explains e) ↔ (op.Confuses e → op.Explains e)) := by
  refine ⟨judge_eq_expected_iff_or, ?_⟩
  rw [judge_eq_expected_iff_or, or_iff_left_iff_imp]

end Operation

/-! ### A namesake -/

namespace Gate

/-- A method that declares no failure. -/
def opening : Operation where
  owner := .topLevel "demo" "Gate"
  kind := .method "open" .void true false
  parameters := []

/-- The method fails with an exception whose type is declared inside a class of the core package. -/
def jam : EvalError :=
  .raised opening.signature
    { exception := (ClassName.core "Runtime").member "IllegalStateException"
      message := ""
      raisedIn := some "demo.Gate.open" }

/-- The failure passes for the one of the core package, and is expected without a reason. -/
theorem judge_jam_without_reason : opening.judge jam = .expected ∧ ¬ opening.Explains jam := by
  refine ⟨by decide +kernel, ?_⟩
  rintro (_ | _ | hdeclared | ⟨hframe, hharness⟩ | ⟨-, hrejection⟩)
  · cases hdeclared
  · obtain rfl := Option.some.inj hframe
    exact absurd (isHarnessFrame_iff.mpr hharness) (by decide +kernel)
  · exact absurd hrejection (by decide +kernel)

end Gate

end CallPlan

import CallPlan.Proofs.Execution
import CallPlan.Proofs.Records
import CallPlan.Proofs.Statements

/-!
# What is built of which plans

A block is built of any plans that are as many as the operation has slots, and of no others
(`Block.exists_build_iff`). It binds each of them to a variable of the type of its slot and calls
the operation on these variables; no two variables have the same name. Plans that read no variable
leave the block no way to fail but the executor's (`Block.build_callsOn`).

The types of the plans are never looked at: the call is built on the variables, and these have the
types of the slots whatever is bound to them. So a block is well typed exactly if its plans fit
their slots (`Block.isWellTyped_iff_allFit`).
-/

namespace CallPlan

/-! ### Calls that are refused for their receiver -/

namespace Assembly

/-- With plans enough, one is set apart exactly if there is an implicit argument. -/
theorem isSome_fst_split {implicit : Option Implicit} {plans : List Expression}
    (h : implicit.toList.length ≤ plans.length) :
    (split implicit plans).1.isSome = implicit.isSome := by
  cases implicit with
  | none => rfl
  | some i =>
    obtain ⟨plan, rest, rfl⟩ := List.exists_cons_of_length_pos (Nat.lt_of_lt_of_le Nat.one_pos h)
    rfl

theorem length_snd_split {implicit : Option Implicit} {plans : List Expression}
    (h : implicit.toList.length ≤ plans.length) :
    implicit.toList.length + (split implicit plans).2.length = plans.length := by
  cases implicit with
  | none => exact Nat.zero_add _
  | some i =>
    obtain ⟨plan, rest, rfl⟩ := List.exists_cons_of_length_pos (Nat.lt_of_lt_of_le Nat.one_pos h)
    exact Nat.add_comm _ _

end Assembly

/-- A static method with a receiver is refused, and so is any other method without one. -/
theorem Expression.call?_of_isSome_eq {op : Operation} {implicit : Option Expression}
    {arguments : List Expression} (hlength : arguments.length = op.arity)
    (hmethod : op.isConstructor = false) (h : implicit.isSome = op.isStatic) :
    call? op implicit arguments =
      .error (if op.isStatic then .receiverOfStatic op else .receiverMissing op) := by
  rw [call?, if_neg (not_not.mpr hlength), ← Option.not_isSome, h, hmethod]
  cases op.isStatic <;> rfl

/-- The variable that a statement declares. -/
def Statement.declaration? : Statement → Option Variable
  | .bind v _ => some v
  | .run _ => none

namespace Block

/-! ### Which plans a block is built of -/

/-- An operation **admits** an implicit argument, or to have none: a constructor does in either
case, a method exactly if it is static or has one, and not both. -/
def Admits (op : Operation) (implicit : Option Implicit) : Prop :=
  op.isConstructor = true ∨ implicit.isSome = !op.isStatic

theorem length_slotTypes (op : Operation) (implicit : Option Implicit) :
    (slotTypes op implicit).length = op.arity + implicit.toList.length := by
  rw [slotTypes, List.length_append, List.length_map, Nat.add_comm]
  rfl

/-- Plans of another number are refused. -/
theorem build_of_length_ne {op : Operation} {implicit : Option Implicit} {plans : List Expression}
    (h : plans.length ≠ (slotTypes op implicit).length) :
    build op implicit plans =
      .error (.planCount op (slotTypes op implicit).length plans.length) := by
  rw [build]
  exact if_pos h

/-- A receiver that a method does not take, or that it needs and does not have, is refused. -/
theorem build_of_not_admits {op : Operation} {implicit : Option Implicit} {plans : List Expression}
    (hlength : plans.length = (slotTypes op implicit).length) (h : ¬ Admits op implicit) :
    build op implicit plans =
      .error (if op.isStatic then .receiverOfStatic op else .receiverMissing op) := by
  obtain ⟨hconstructor, hreceiver⟩ := not_or.mp h
  have hcount := length_boundPlans hlength
  rw [hlength, length_slotTypes] at hcount
  rw [build_eq_map_call? hlength]
  generalize (boundPlans op implicit plans).1 = locals at hcount ⊢
  have henough : implicit.toList.length ≤ (locals.map Expression.var).length := by
    rw [List.length_map]
    omega
  have harguments := Assembly.length_snd_split henough
  have hsome := Assembly.isSome_fst_split henough
  rw [List.length_map] at harguments
  rw [Expression.call?_of_isSome_eq (by omega) (Bool.eq_false_of_not_eq_true hconstructor)
    (hsome.trans (by simpa using hreceiver))]
  rfl

/-- **When a block is built**: there are as many plans as parameters, and one more for an implicit
argument, and the operation admits it. -/
theorem exists_build_iff {op : Operation} {implicit : Option Implicit} {plans : List Expression} :
    (∃ b, build op implicit plans = .ok b) ↔
      plans.length = op.arity + implicit.toList.length ∧ Admits op implicit := by
  rw [← length_slotTypes]
  constructor
  · rintro ⟨b, hb⟩
    have hlength : plans.length = (slotTypes op implicit).length := by
      by_contra h
      rw [build_of_length_ne h] at hb
      cases hb
    refine ⟨hlength, ?_⟩
    by_contra h
    rw [build_of_not_admits hlength h] at hb
    cases hb
  · rintro ⟨hlength, hadmits⟩
    exact ⟨_, build_eq_ok hlength fun h => hadmits.resolve_left (by simp [h])⟩

/-- What is built is the body of the operation and the plans. -/
theorem statements_of_build_eq_ok {op : Operation} {implicit : Option Implicit}
    {plans : List Expression} {b : Block} (h : build op implicit plans = .ok b) :
    plans.length = (slotTypes op implicit).length ∧ b.operation = op ∧
      b.statements = body op implicit plans := by
  obtain ⟨hlength, hadmits⟩ := exists_build_iff.mp ⟨b, h⟩
  rw [← length_slotTypes] at hlength
  obtain ⟨b', hb', hoperation, hstatements⟩ :=
    exists_build_body hlength fun hmethod => hadmits.resolve_left (by simp [hmethod])
  obtain rfl := Except.ok.inj (h.symm.trans hb')
  exact ⟨hlength, hoperation, hstatements⟩

/-! ### Names -/

/-- The variables that a block declares, in order. -/
def declared (b : Block) : List Variable := b.statements.filterMap Statement.declaration?

theorem filterMap_declaration?_zipWith {vs : List Variable} {es : List Expression}
    (h : vs.length = es.length) :
    (List.zipWith Statement.bind vs es).filterMap Statement.declaration? = vs := by
  induction vs generalizing es with
  | nil => rfl
  | cons v vs ih =>
    obtain ⟨e, es, rfl⟩ := List.exists_cons_of_length_eq_add_one h.symm
    simp [Statement.declaration?, ih (Nat.succ.inj h)]

/-- The variables for the slots and the one for a new instance are numbered on. -/
theorem names_locals_append (op : Operation) (implicit : Option Implicit) :
    (locals op implicit ++ [resultVariable op implicit]).map Variable.name =
      (variablesFrom 1 (slotTypes op implicit ++ [op.result])).map Variable.name := by
  simp [locals, variablesFrom, resultVariable, List.zipIdx_append, Nat.add_comm]

/-- No two variables that a block declares have the same name. -/
theorem nodup_names_declared {b : Block} {op : Operation} {implicit : Option Implicit}
    {plans : List Expression} (hlength : plans.length = (slotTypes op implicit).length)
    (h : b.statements = body op implicit plans) : (b.declared.map Variable.name).Nodup := by
  have hlocals := filterMap_declaration?_zipWith ((length_locals op implicit).trans hlength.symm)
  have hall : ((locals op implicit ++ [resultVariable op implicit]).map Variable.name).Nodup := by
    rw [names_locals_append]
    exact nodup_names_variablesFrom _ _
  rw [declared, h, body, List.filterMap_append, hlocals, lastStatement]
  split_ifs with hconstructor
  · exact hall
  · refine hall.sublist ?_
    simp [Statement.declaration?]

/-! ### What a block consists of -/

/-- A block of closed plans fails only where the executor does. -/
theorem isRecordOf_execute {σ : Type} (perform : Executor σ) {op : Operation}
    {implicit : Option Implicit} {plans : List Expression} {b : Block}
    (h : build op implicit plans = .ok b) (hclosed : ∀ e ∈ plans, e.Closed) :
    IsRecordOf (b.execute perform) (b.execute perform.recorded) := by
  obtain ⟨hlength, hadmits⟩ := exists_build_iff.mp ⟨b, h⟩
  rw [← length_slotTypes] at hlength
  have hb := build_eq_ok hlength fun hmethod => hadmits.resolve_left (by simp [hmethod])
  obtain rfl := Except.ok.inj (h.symm.trans hb)
  rw [execute_addCall perform hlength hclosed, execute_addCall perform.recorded hlength hclosed]
  refine Expression.Closed.isRecordOf_evaluate perform ?_
  rwa [Expression.closed_callOn_iff, Expression.allClosed_iff]

/-- **What a block consists of.** A block is built exactly if the plans are as many as the operation
has parameters, with one more for an implicit argument, and a method is given an implicit argument
exactly if it is not static. It binds every plan to a variable of its own, the implicit one first,
with the types that the slots have; then it calls the operation on these variables in their order,
and binds what a constructor makes to one more variable. No two variables have the same name. If the
plans read no variable, a run fails only where the executor does, be it for want of a variable or
for any other reason: the last operation asked for gave the very error that comes out. -/
theorem build_callsOn (op : Operation) (implicit : Option Implicit) (plans : List Expression) :
    ((∃ b, build op implicit plans = .ok b) ↔
      plans.length = op.arity + implicit.toList.length ∧
        (op.isConstructor = true ∨ implicit.isSome = !op.isStatic)) ∧
    ∀ b, build op implicit plans = .ok b →
      b.operation = op ∧
      (∃ locals last, b.CallsOn implicit plans locals last ∧
        (op.isConstructor = true → ∃ v : Variable, v.type = op.result ∧
          last = .bind v (Assembly.callOn op implicit (locals.map .var))) ∧
        (op.isConstructor = false →
          last = .run (Assembly.callOn op implicit (locals.map .var)))) ∧
      (b.declared.map Variable.name).Nodup ∧
      ((∀ e ∈ plans, e.Closed) →
        ∀ (σ : Type) (perform : Executor σ) (state after : σ) (error : EvalError),
          (b.execute perform).run.run state = (.error error, after) →
            ∃ events event,
              (b.execute perform.recorded).run.run (state, []) =
                (.error error, after, events ++ [event]) ∧
              event.outcome = .error error) := by
  refine ⟨exists_build_iff, fun b hb => ?_⟩
  obtain ⟨hlength, rfl, hstatements⟩ := statements_of_build_eq_ok hb
  refine ⟨rfl, ⟨_, _, callsOn_of_statements_eq hlength hstatements, ?_, ?_⟩,
    nodup_names_declared hlength hstatements, ?_⟩
  · intro hconstructor
    exact ⟨_, rfl, if_pos hconstructor⟩
  · intro hmethod
    exact if_neg (by simp [hmethod])
  · intro hclosed σ perform state after error hrun
    obtain ⟨events, hrecord, hlast⟩ := isRecordOf_execute perform hb hclosed state []
    rw [hrun] at hrecord hlast
    obtain ⟨event, hevent, houtcome⟩ := hlast error rfl
    obtain ⟨front, rfl⟩ := List.getLast?_eq_some_iff.mp hevent
    exact ⟨front, event, hrecord, houtcome⟩

/-! ### Types -/

/-- A block is **well typed** if every value that it binds to a variable fits the variable's
type. -/
def IsWellTyped (b : Block) : Prop :=
  ∀ v e, Statement.bind v e ∈ b.statements → e.type.fits v.type = true

theorem forall_bind_mem_zipWith_iff {vs : List Variable} {es : List Expression}
    (h : vs.length = es.length) :
    (∀ v e, Statement.bind v e ∈ List.zipWith Statement.bind vs es → e.type.fits v.type = true) ↔
      Expression.AllFit es (vs.map Variable.type) := by
  rw [Expression.AllFit, List.forall₂_map_right_iff]
  induction vs generalizing es with
  | nil =>
    obtain rfl := List.eq_nil_of_length_eq_zero h.symm
    simp
  | cons v vs ih =>
    obtain ⟨e, es, rfl⟩ := List.exists_cons_of_length_eq_add_one h.symm
    rw [List.forall₂_cons, ← ih (Nat.succ.inj h)]
    simp only [List.zipWith_cons_cons, List.mem_cons, Statement.bind.injEq]
    constructor
    · intro hall
      exact ⟨hall v e (.inl ⟨rfl, rfl⟩), fun w f hmem => hall w f (.inr hmem)⟩
    · rintro ⟨hfirst, hrest⟩ w f (⟨rfl, rfl⟩ | hmem)
      · exact hfirst
      · exact hrest w f hmem

/-- The new instance fits the variable for it, so only the plans can be misfits. -/
theorem isWellTyped_iff_of_statements_eq {b : Block} {op : Operation} {implicit : Option Implicit}
    {plans : List Expression} (hlength : plans.length = (slotTypes op implicit).length)
    (h : b.statements = body op implicit plans) :
    b.IsWellTyped ↔ Expression.AllFit plans (slotTypes op implicit) := by
  have hlocals : (locals op implicit).map Variable.type = slotTypes op implicit :=
    types_variablesFrom _ _
  rw [← hlocals, ← forall_bind_mem_zipWith_iff ((length_locals op implicit).trans hlength.symm)]
  simp only [IsWellTyped, h, body, List.mem_append, List.mem_singleton]
  refine ⟨fun hall v e hmem => hall v e (.inl hmem), ?_⟩
  rintro hall v e (hmem | hlast)
  · exact hall v e hmem
  · rw [lastStatement] at hlast
    split_ifs at hlast
    obtain ⟨rfl, rfl⟩ := Statement.bind.inj hlast
    exact TypeExpr.fits_refl op.result

/-- **The types of plans are not checked.** A block is well typed exactly if every plan fits the
slot that it is for, and no plan is refused for its type: there are too many or too few of them, or
the receiver is missing or too much. -/
theorem isWellTyped_iff_allFit (op : Operation) (plans : List Expression) :
    (∀ implicit b, build op implicit plans = .ok b →
      (b.IsWellTyped ↔ Expression.AllFit plans (slotTypes op implicit))) ∧
    (∀ implicit fault, build op implicit plans = .error fault →
      fault = .planCount op (slotTypes op implicit).length plans.length ∨
        fault = .receiverOfStatic op ∨ fault = .receiverMissing op) ∧
    ∀ k : Catalog, plans.length = (slotTypes op (k.implicit? op)).length →
      ∃ b, ofCatalog k op plans = .ok b ∧
        (b.IsWellTyped ↔ Expression.AllFit plans (slotTypes op (k.implicit? op))) := by
  refine ⟨fun implicit b hb => ?_, fun implicit fault hfault => ?_, fun k hlength => ?_⟩
  · obtain ⟨hlength, -, hstatements⟩ := statements_of_build_eq_ok hb
    exact isWellTyped_iff_of_statements_eq hlength hstatements
  · by_cases hlength : plans.length = (slotTypes op implicit).length
    · right
      by_cases hadmits : Admits op implicit
      · obtain ⟨b, hb⟩ := exists_build_iff.mpr ⟨hlength.trans (length_slotTypes _ _), hadmits⟩
        rw [hb] at hfault
        cases hfault
      · rw [build_of_not_admits hlength hadmits] at hfault
        rw [← Except.error.inj hfault]
        split_ifs
        · exact .inl rfl
        · exact .inr rfl
    · rw [build_of_length_ne hlength] at hfault
      exact .inl (Except.error.inj hfault).symm
  · obtain ⟨b, hb, -, hstatements⟩ := exists_build_body hlength k.isSome_implicit?
    exact ⟨b, hb, isWellTyped_iff_of_statements_eq hlength hstatements⟩

end Block

/-! ### A shape that grows -/

namespace Gallery

/-- A new circle. -/
def newCircle : Expression := .call makeCircle none []

/-- The block in which a new circle grows by a literal. -/
def growth (l : Literal) : Block where
  operation := grow
  statements :=
    [.bind ⟨"s1", .named shape⟩ newCircle, .bind ⟨"i2", .primitive .int⟩ (.literal l),
      .run (.call grow (some (.var ⟨"s1", .named shape⟩)) [.var ⟨"i2", .primitive .int⟩])]
  names := ⟨['i', 's']⟩

/-- The block is built whatever the literal is. -/
theorem ofCatalog_grow (l : Literal) :
    Block.ofCatalog catalog grow [newCircle, .literal l] = .ok (growth l) := rfl

/-- Makes circles, and finds a variable of its own unbound when it is asked for anything else. -/
def makesCircles : Executor Unit := fun op _ _ =>
  if op.isConstructor then pure (.object circle 1) else throw (.unbound "radius")

/-- The block is built and consists of what it should; the variable that its run finds unbound is
the executor's. -/
theorem build_callsOn_grow :
    Block.build grow (some (.receiver shape)) [newCircle, .literal (.int 1)] =
        .ok (growth (.int 1)) ∧
      (∃ locals last, (growth (.int 1)).CallsOn (some (.receiver shape))
        [newCircle, .literal (.int 1)] locals last) ∧
      ((growth (.int 1)).declared.map Variable.name).Nodup ∧
      (∀ e ∈ [newCircle, .literal (.int 1)], e.Closed) ∧
      ((growth (.int 1)).execute makesCircles).run.run () = (.error (.unbound "radius"), ()) ∧
      ∃ events event,
        ((growth (.int 1)).execute makesCircles.recorded).run.run ((), []) =
          (.error (.unbound "radius"), (), events ++ [event]) ∧
        event.outcome = .error (.unbound "radius") := by
  have hbuild : Block.build grow (some (.receiver shape)) [newCircle, .literal (.int 1)] =
      .ok (growth (.int 1)) := rfl
  have hclosed : ∀ e ∈ [newCircle, .literal (.int 1)], e.Closed := by
    simp [newCircle, Expression.Closed, Expression.ClosedImplicit, Expression.AllClosed]
  have hrun : ((growth (.int 1)).execute makesCircles).run.run () =
      (.error (.unbound "radius"), ()) := rfl
  obtain ⟨-, ⟨locals, last, hcalls, -, -⟩, hnames, hblame⟩ :=
    (Block.build_callsOn grow (some (.receiver shape)) [newCircle, .literal (.int 1)]).2 _ hbuild
  exact ⟨hbuild, ⟨locals, last, hcalls⟩, hnames, hclosed, hrun,
    hblame hclosed Unit makesCircles () () _ hrun⟩

/-- A circle that grows by a number makes a block that is well typed. -/
theorem isWellTyped_iff_allFit_grow :
    ∃ b, Block.ofCatalog catalog grow [newCircle, .literal (.int 1)] = .ok b ∧ b.IsWellTyped := by
  obtain ⟨b, hb, hiff⟩ :=
    (Block.isWellTyped_iff_allFit grow [newCircle, .literal (.int 1)]).2.2 catalog rfl
  exact ⟨b, hb, hiff.mpr (.cons rfl (.cons rfl .nil))⟩

/-- A truth value is bound to the variable for a number, and nobody objects. -/
theorem not_isWellTyped_growth :
    ∃ b, Block.ofCatalog catalog grow [newCircle, .literal (.boolean true)] = .ok b ∧
      ¬ b.IsWellTyped := by
  refine ⟨growth (.boolean true), ofCatalog_grow _, fun h => ?_⟩
  have hfits := h ⟨"i2", .primitive .int⟩ (.literal (.boolean true)) (by simp [growth])
  exact absurd hfits (by decide)

end Gallery

end CallPlan

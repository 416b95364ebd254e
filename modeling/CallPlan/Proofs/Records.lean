import CallPlan.Proofs.Evaluation

/-!
# Runs on record

Keeping record changes nothing: a run with a recorded executor comes to the same end as the run
without, and adds what was asked for to the record (`IsRecordOf`). An expression that reads no
variable has no failure of its own, so where its evaluation fails, the executor was asked for an
operation last and gave the very error that comes out (`Expression.Closed.isRecordOf_evaluate`).
-/

namespace CallPlan

variable {σ α β : Type}

/-- The second computation is the first one **on record**: from every state and with every past on
record it ends like the first one and adds some events. If that is with an error, the error is the
outcome of the last event that it adds. -/
def IsRecordOf (x : Evaluation σ α) (y : Evaluation (σ × List Event) α) : Prop :=
  ∀ state past, ∃ events,
    y.run.run (state, past) = ((x.run.run state).1, (x.run.run state).2, past ++ events) ∧
    ∀ error, (x.run.run state).1 = .error error →
      ∃ event, events.getLast? = some event ∧ event.outcome = .error error

namespace IsRecordOf

theorem pure (a : α) : IsRecordOf (pure a : Evaluation σ α) (pure a) := by
  intro state past
  exact ⟨[], by rw [List.append_nil]; rfl, nofun⟩

/-- Events of a step after another stand behind those of the first one. -/
theorem bind {x : Evaluation σ α} {y : Evaluation (σ × List Event) α} {f : α → Evaluation σ β}
    {g : α → Evaluation (σ × List Event) β} (h : IsRecordOf x y)
    (hfg : ∀ a, IsRecordOf (f a) (g a)) : IsRecordOf (x >>= f) (y >>= g) := by
  intro state past
  obtain ⟨events, hy, herror⟩ := h state past
  rw [run_run_bind, run_run_bind, hy]
  rcases hx : x.run.run state with ⟨outcome, after⟩
  rw [hx] at herror
  cases outcome with
  | error e =>
    refine ⟨events, rfl, fun error he => ?_⟩
    obtain rfl := Except.error.inj he
    exact herror e rfl
  | ok a =>
    obtain ⟨more, hg, hmore⟩ := hfg a after (past ++ events)
    refine ⟨events ++ more, hg.trans (by rw [List.append_assoc]), fun error he => ?_⟩
    obtain ⟨event, hlast, houtcome⟩ := hmore error he
    exact ⟨event, by rw [List.getLast?_append, hlast, Option.some_or], houtcome⟩

/-- The executor itself is asked, and its outcome recorded. -/
theorem perform (perform : Executor σ) (op : Operation) (implicit : Option Value)
    (arguments : List Value) :
    IsRecordOf (perform op implicit arguments) (perform.recorded op implicit arguments) := by
  intro state past
  refine ⟨[⟨op, implicit, arguments, ((perform op implicit arguments).run.run state).1⟩], rfl, ?_⟩
  exact fun error he => ⟨_, List.getLast?_singleton, he⟩

end IsRecordOf

namespace Expression

variable (perform : Executor σ)

mutual

/-- A closed expression fails only where the executor does. -/
theorem Closed.isRecordOf_evaluate :
    ∀ {e : Expression}, e.Closed →
      IsRecordOf (e.evaluate perform []) (e.evaluate perform.recorded [])
  | literal l, _ => by
    rw [evaluate, evaluate]
    exact .pure _
  | var v, h => h.elim
  | call op implicit arguments, h => by
    rw [evaluate, evaluate]
    refine (ClosedImplicit.isRecordOf_evaluateImplicit h.1).bind fun receiver => ?_
    refine (AllClosed.isRecordOf_evaluateAll h.2).bind fun values => ?_
    exact .perform perform op receiver values
  | array component components, h => by
    rw [evaluate, evaluate]
    exact (AllClosed.isRecordOf_evaluateAll h).bind fun values => .pure _

/-- The part of `isRecordOf_evaluate` for implicit arguments. -/
theorem ClosedImplicit.isRecordOf_evaluateImplicit :
    ∀ {implicit : Option Expression}, ClosedImplicit implicit →
      IsRecordOf (evaluateImplicit perform [] implicit)
        (evaluateImplicit perform.recorded [] implicit)
  | none, _ => by
    rw [evaluateImplicit, evaluateImplicit]
    exact .pure _
  | some e, h => by
    rw [evaluateImplicit, evaluateImplicit]
    exact (Closed.isRecordOf_evaluate h).bind fun value => .pure _

/-- The part of `isRecordOf_evaluate` for lists of expressions. -/
theorem AllClosed.isRecordOf_evaluateAll :
    ∀ {es : List Expression}, AllClosed es →
      IsRecordOf (evaluateAll perform [] es) (evaluateAll perform.recorded [] es)
  | [], _ => by
    rw [evaluateAll, evaluateAll]
    exact .pure _
  | e :: es, h => by
    rw [evaluateAll, evaluateAll]
    refine (Closed.isRecordOf_evaluate h.1).bind fun value => ?_
    exact (AllClosed.isRecordOf_evaluateAll h.2).bind fun values => .pure _

end

end Expression

end CallPlan

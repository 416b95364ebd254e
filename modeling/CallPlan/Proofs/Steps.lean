import Mathlib

/-!
# Steps that may fail

Steps one after the other give a result exactly if each of them does (`mapM_eq_ok_iff`), and fail
like the first one that fails (`mapM_eq_error_iff`).
-/

namespace CallPlan

/-- Steps one after the other succeed only if each does. -/
theorem exists_of_bind_eq_ok {ε α β : Type} {x : Except ε α} {f : α → Except ε β} {b : β}
    (h : x >>= f = .ok b) : ∃ a, x = .ok a ∧ f a = .ok b := by
  cases x with
  | error e => cases h
  | ok a => exact ⟨a, rfl, h⟩

/-- A step after another runs on the state that this one leaves, unless this one fails. -/
theorem run_run_bind {ε σ α β : Type} (x : ExceptT ε (StateM σ) α) (f : α → ExceptT ε (StateM σ) β)
    (state : σ) :
    (x >>= f).run.run state =
      match x.run.run state with
      | (.ok a, after) => (f a).run.run after
      | (.error e, after) => (.error e, after) := by
  rcases hx : x.run.run state with ⟨outcome, after⟩
  cases outcome with
  | error e =>
    rw [ExceptT.run_bind, StateT.run_bind, hx]
    rfl
  | ok a =>
    rw [ExceptT.run_bind, StateT.run_bind, hx]
    rfl

/-- What holds of results one by one holds of all of them. -/
theorem forall_mem_of_forall₂ {α β : Type} {P : β → Prop} {as : List α} {bs : List β}
    (h : List.Forall₂ (fun _ b => P b) as bs) : ∀ b ∈ bs, P b := by
  induction h with
  | nil => simp
  | cons hb _ ih => exact List.forall_mem_cons.mpr ⟨hb, ih⟩

section

variable {α β γ : Type} {R : α → β → Prop} {as : List α} {bs : List β}

/-- What inputs and results have in common one by one, all of them have in common. -/
theorem forall_mem_iff_of_forall₂ {P : α → Prop} {Q : β → Prop} (h : List.Forall₂ R as bs)
    (hiff : ∀ a b, R a b → (P a ↔ Q b)) : (∀ a ∈ as, P a) ↔ ∀ b ∈ bs, Q b := by
  induction h with
  | nil => simp
  | cons hab _ ih => rw [List.forall_mem_cons, List.forall_mem_cons, hiff _ _ hab, ih]

/-- Results may be the inputs of further steps. -/
theorem forall₂_comp {S : β → γ → Prop} {T : α → γ → Prop} {cs : List γ}
    (h : List.Forall₂ R as bs) (h' : List.Forall₂ S bs cs)
    (hcomp : ∀ a b c, R a b → S b c → T a c) : List.Forall₂ T as cs := by
  induction h generalizing cs with
  | nil =>
    cases h'
    exact .nil
  | cons hab _ ih =>
    obtain ⟨c, cs, hbc, hrest, rfl⟩ := List.forall₂_cons_left_iff.mp h'
    exact .cons (hcomp _ _ _ hab hbc) (ih hrest)

/-- Steps that may have no result have results exactly if each has its own. -/
theorem mapM_eq_some_iff {f : α → Option β} :
    as.mapM f = some bs ↔ List.Forall₂ (fun a b => f a = some b) as bs := by
  induction as generalizing bs with
  | nil => simp [eq_comm]
  | cons a as ih =>
    simp only [List.mapM_cons, Option.bind_eq_bind, Option.bind_eq_some_iff, Option.pure_def,
      Option.some.injEq, List.forall₂_cons_left_iff, ih]
    grind

end

section

variable {ε α β : Type} {f : α → Except ε β} {as : List α}

theorem exists_eq_ok_of_isOk {x : Except ε α} (h : x.isOk = true) : ∃ a, x = .ok a := by
  cases x with
  | error e => cases h
  | ok a => exact ⟨a, rfl⟩

theorem eq_ok_of_mapError_eq_ok {ε' : Type} {x : Except ε α} {g : ε → ε'} {a : α}
    (h : x.mapError g = .ok a) : x = .ok a := by
  cases x with
  | error e => cases h
  | ok b => exact congrArg Except.ok (Except.ok.inj h)

/-- Steps one after the other succeed if each does. -/
theorem exists_mapM_eq_ok (h : ∀ a ∈ as, ∃ b, f a = .ok b) : ∃ bs, as.mapM f = .ok bs := by
  induction as with
  | nil => exact ⟨[], rfl⟩
  | cons a as ih =>
    obtain ⟨⟨b, hb⟩, has⟩ := List.forall_mem_cons.mp h
    obtain ⟨bs, hbs⟩ := ih has
    refine ⟨b :: bs, ?_⟩
    rw [List.mapM_cons, hb, hbs]
    rfl

/-- Steps one after the other give results exactly if each gives its own. -/
theorem mapM_eq_ok_iff {bs : List β} :
    as.mapM f = .ok bs ↔ List.Forall₂ (fun a b => f a = .ok b) as bs := by
  constructor
  · intro h
    induction as generalizing bs with
    | nil =>
      obtain rfl := Except.ok.inj h
      exact .nil
    | cons a as ih =>
      rw [List.mapM_cons] at h
      obtain ⟨b, hb, h⟩ := exists_of_bind_eq_ok h
      obtain ⟨rest, hrest, h⟩ := exists_of_bind_eq_ok h
      obtain rfl := Except.ok.inj h
      exact .cons hb (ih hrest)
  · intro h
    induction h with
    | nil => rfl
    | cons hb _ ih =>
      rw [List.mapM_cons, hb, ih]
      rfl

/-- Steps one after the other fail exactly if one of them does and all in front of it succeed. -/
theorem mapM_eq_error_iff {e : ε} :
    as.mapM f = .error e ↔
      ∃ before a after, as = before ++ a :: after ∧ (∀ x ∈ before, ∃ b, f x = .ok b) ∧
        f a = .error e := by
  constructor
  · intro h
    induction as with
    | nil => cases h
    | cons a as ih =>
      rw [List.mapM_cons] at h
      cases ha : f a with
      | error first =>
        rw [ha] at h
        obtain rfl := Except.error.inj h
        exact ⟨[], a, as, rfl, by simp, ha⟩
      | ok b =>
        rw [ha] at h
        cases has : as.mapM f with
        | error later =>
          rw [has] at h
          obtain rfl := Except.error.inj h
          obtain ⟨before, c, after, rfl, hbefore, hc⟩ := ih has
          exact ⟨a :: before, c, after, rfl, List.forall_mem_cons.mpr ⟨⟨b, ha⟩, hbefore⟩, hc⟩
        | ok bs =>
          rw [has] at h
          cases h
  · rintro ⟨before, a, after, rfl, hbefore, ha⟩
    induction before with
    | nil =>
      rw [List.nil_append, List.mapM_cons, ha]
      rfl
    | cons x before ih =>
      obtain ⟨⟨b, hb⟩, hrest⟩ := List.forall_mem_cons.mp hbefore
      rw [List.cons_append, List.mapM_cons, hb, ih hrest]
      rfl

/-- Steps on the parts of a list, one part after the other, are the steps on the whole list. -/
theorem mapM_flatten (f : α → Except ε β) (parts : List (List α)) :
    parts.flatten.mapM f = (parts.mapM (List.mapM f)).map List.flatten := by
  induction parts with
  | nil => rfl
  | cons part parts ih =>
    rw [List.flatten_cons, List.mapM_append, ih, List.mapM_cons]
    cases part.mapM f with
    | error e => rfl
    | ok bs => cases parts.mapM (List.mapM f) <;> rfl

/-- Steps one after the other may have their errors wrapped one by one. -/
theorem mapM_mapError {ε' : Type} {f' : α → Except ε' β} {wrap : ε → ε'}
    (h : ∀ a ∈ as, f' a = (f a).mapError wrap) : as.mapM f' = (as.mapM f).mapError wrap := by
  induction as with
  | nil => rfl
  | cons a as ih =>
    obtain ⟨ha, has⟩ := List.forall_mem_cons.mp h
    rw [List.mapM_cons, List.mapM_cons, ha, ih has]
    cases f a with
    | error e => rfl
    | ok b => cases as.mapM f <;> rfl

/-- Steps that give results for certain give all of them. -/
theorem mapM_eq_ok_map {g : α → β} (h : ∀ a ∈ as, f a = .ok (g a)) :
    as.mapM f = .ok (as.map g) := by
  rw [mapM_eq_ok_iff, List.forall₂_map_right_iff, List.forall₂_same]
  exact h

end

end CallPlan

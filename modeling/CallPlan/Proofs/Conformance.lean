import CallPlan.Proofs.Execution
import CallPlan.Proofs.Subtyping

/-!
# Values of the wanted types

A value conforms to the types that it may be assigned to at run time (`Conforms`), and this goes
along with assignability (`Conforms.of_assignable`). If all values that an executor returns conform
to the results of its operations, then plans are **sound**: evaluating a plan asks for operations
with conforming values only, and gives a conforming value or stops with an error of the executor.
Each kind of step keeps this (`Sound.pure`, `Sound.bind`, `Sound.perform`), so it holds for all
plans by induction (`IsPlan.isSound`), and for blocks since they run like calls
(`sound_evaluation`).
-/

namespace CallPlan

/-! ### Conforming values -/

/-- The primitive type of a value that has one. -/
def Value.primitive? : Value → Option Primitive
  | boolean _ => some .boolean
  | byte _ => some .byte
  | short _ => some .short
  | char _ => some .char
  | int _ => some .int
  | long _ => some .long
  | float _ => some .float
  | double _ => some .double
  | _ => none

/-- A value **conforms** to a type. Strings and objects have the types that their classes can be
assigned to, and an array has its own type and that of all objects if its elements conform to its
component type. -/
inductive Conforms (k : Catalog) : Value → TypeExpr → Prop
  | void : Conforms k .void .void
  | null {t : TypeExpr} (reference : t.isReference = true) : Conforms k .null t
  | primitive {v : Value} {p : Primitive} (kind : v.primitive? = some p) :
      Conforms k v (.primitive p)
  | string {s : String} {t : TypeExpr} (assignable : k.assignable .string t = true) :
      Conforms k (.string s) t
  | object {c : ClassName} {handle : UInt64} {t : TypeExpr}
      (assignable : k.assignable (.named c) t = true) : Conforms k (.object c handle) t
  | arrayAsObject {component : TypeExpr} {vs : List Value}
      (elements : ∀ v ∈ vs, Conforms k v component) : Conforms k (.array component vs) .object
  | array {component : TypeExpr} {vs : List Value}
      (elements : ∀ v ∈ vs, Conforms k v component) :
      Conforms k (.array component vs) (.array component)

/-- What conforms to a type conforms to the types that it can be assigned to. -/
theorem Conforms.of_assignable {k : Catalog} (hroot : k.ObjectIsRoot) {v : Value}
    {source target : TypeExpr} (hv : Conforms k v source)
    (h : k.assignable source target = true) : Conforms k v target := by
  cases hv with
  | void =>
    obtain rfl | ⟨hvoid, -⟩ | ⟨sub, super, hvoid, -⟩ := k.assignable_iff.mp h
    · exact .void
    · cases hvoid
    · cases hvoid
  | null reference =>
    refine .null ?_
    rwa [k.isReference_of_assignable h]
  | primitive kind =>
    obtain rfl | ⟨hprimitive, -⟩ | ⟨sub, super, hprimitive, -⟩ := k.assignable_iff.mp h
    · exact .primitive kind
    · cases hprimitive
    · cases hprimitive
  | string assignable => exact .string (hroot.assignable_trans assignable h)
  | object assignable => exact .object (hroot.assignable_trans assignable h)
  | arrayAsObject elements =>
    obtain rfl := hroot.eq_of_assignable h
    exact .arrayAsObject elements
  | array elements =>
    obtain rfl | ⟨-, rfl⟩ | ⟨sub, super, harray, -⟩ := k.assignable_iff.mp h
    · exact .array elements
    · exact .arrayAsObject elements
    · cases harray

theorem Literal.conforms_value (k : Catalog) (l : Literal) : Conforms k l.value l.type := by
  cases l with
  | null type isReference => exact .null isReference
  | string s => exact .string (k.assignable_refl _)
  | boolean | byte | short | char | int | long | float | double => exact .primitive rfl

/-! ### Sound evaluations -/

/-- Every value that the executor returns conforms to the result of its operation. -/
def Executor.Respects {σ : Type} (perform : Executor σ) (k : Catalog) : Prop :=
  ∀ op implicit arguments state value,
    ((perform op implicit arguments).run.run state).1 = .ok value → Conforms k value op.result

/-- An executor was asked for an operation with as many conforming values as the operation has
parameters, and with a conforming implicit argument exactly if the operation takes one. -/
structure Event.Fits (k : Catalog) (event : Event) : Prop where
  arguments : List.Forall₂ (Conforms k) event.arguments event.operation.parameters
  implicit : Option.Rel (fun value i => Conforms k value i.type) event.implicit
    (k.implicit? event.operation)

/-- What a run has come to, and the events on the way: all events fit, a value has the property, and
an error is the one that the executor returned at last. -/
structure SoundRun (k : Catalog) {α : Type} (P : α → Prop) (outcome : Except EvalError α)
    (events : List Event) : Prop where
  fits : ∀ event ∈ events, event.Fits k
  value : ∀ a, outcome = .ok a → P a
  error : ∀ e, outcome = .error e → ∃ event, events.getLast? = some event ∧ event.outcome = .error e

/-- From every state, `y` does what `x` does, records sound events and comes to a value with the
property or an error of the executor. -/
def Sound (k : Catalog) {σ α : Type} (P : α → Prop) (x : Evaluation σ α)
    (y : Evaluation (σ × List Event) α) : Prop :=
  ∀ state before, ∃ events,
    y.run.run (state, before) =
      ((x.run.run state).1, (x.run.run state).2, before ++ events) ∧
    SoundRun k P (x.run.run state).1 events

namespace Sound

variable {k : Catalog} {σ α β : Type} {P Q : α → Prop} {x : Evaluation σ α}
  {y : Evaluation (σ × List Event) α}

theorem imp (h : Sound k P x y) (hPQ : ∀ a, P a → Q a) : Sound k Q x y := by
  intro state before
  obtain ⟨events, hrun, hsound⟩ := h state before
  exact ⟨events, hrun, hsound.fits, fun a ha => hPQ a (hsound.value a ha), hsound.error⟩

theorem pure {a : α} (h : P a) : Sound k P (σ := σ) (Pure.pure a) (Pure.pure a) := by
  intro state before
  refine ⟨[], ?_, by simp, ?_, ?_⟩
  · rw [List.append_nil]
    rfl
  · rintro b ⟨⟩
    exact h
  · rintro e ⟨⟩

/-- Steps one after the other. -/
theorem bind {R : β → Prop} {f : α → Evaluation σ β} {g : α → Evaluation (σ × List Event) β}
    (h : Sound k P x y) (hfg : ∀ a, P a → Sound k R (f a) (g a)) :
    Sound k R (x >>= f) (y >>= g) := by
  intro state before
  obtain ⟨events, hrun, hsound⟩ := h state before
  rw [run_run_bind, run_run_bind, hrun]
  rcases hx : x.run.run state with ⟨outcome, after⟩
  rw [hx] at hsound
  cases outcome with
  | error e =>
    refine ⟨events, rfl, hsound.fits, ?_, ?_⟩
    · rintro b ⟨⟩
    · rintro e ⟨⟩
      exact hsound.error e rfl
  | ok a =>
    obtain ⟨more, hmore, hnext⟩ := hfg a (hsound.value a rfl) after (before ++ events)
    refine ⟨events ++ more, ?_, ?_, hnext.value, fun e he => ?_⟩
    · rw [← List.append_assoc]
      exact hmore
    · exact List.forall_mem_append.mpr ⟨hsound.fits, hnext.fits⟩
    · obtain ⟨event, hlast, hevent⟩ := hnext.error e he
      exact ⟨event, by rw [List.getLast?_append, hlast, Option.some_or], hevent⟩

/-- Asking an executor that respects the catalogue. -/
theorem perform {perform : Executor σ} (hperform : perform.Respects k) {op : Operation}
    {implicit : Option Value} {arguments : List Value}
    (himplicit : Option.Rel (fun value i => Conforms k value i.type) implicit (k.implicit? op))
    (harguments : List.Forall₂ (Conforms k) arguments op.parameters) :
    Sound k (Conforms k · op.result) (perform op implicit arguments)
      (perform.recorded op implicit arguments) := by
  intro state before
  refine ⟨[⟨op, implicit, arguments, _⟩], rfl, ?_, hperform op implicit arguments state, ?_⟩
  · exact List.forall_mem_singleton.mpr ⟨harguments, himplicit⟩
  · exact fun e he => ⟨_, rfl, he⟩

end Sound

/-! ### Plans are sound -/

section

variable {k : Catalog} {σ : Type} {perform : Executor σ}

/-- Evaluating an expression with no variable bound is sound and gives values of a type. -/
def Expression.IsSound (k : Catalog) (perform : Executor σ) (t : TypeExpr) (e : Expression) :
    Prop :=
  Sound k (Conforms k · t) (e.evaluate perform []) (e.evaluate perform.recorded [])

/-- Expressions that are sound one by one give values of the types, in order. -/
theorem sound_evaluateAll {types : List TypeExpr} {es : List Expression}
    (h : List.Forall₂ (Expression.IsSound k perform) types es) :
    Sound k (fun values => List.Forall₂ (Conforms k) values types)
      (Expression.evaluateAll perform [] es) (Expression.evaluateAll perform.recorded [] es) := by
  induction h with
  | nil =>
    simp only [Expression.evaluateAll]
    exact .pure .nil
  | cons he _ ih =>
    simp only [Expression.evaluateAll]
    exact he.bind fun value hvalue => ih.bind fun values hvalues => .pure (.cons hvalue hvalues)

/-- The values for all slots of an operation make a sound request. -/
theorem sound_onSlots (hperform : perform.Respects k) {op : Operation} {values : List Value}
    (h : List.Forall₂ (Conforms k) values (Block.slotTypes op (k.implicit? op))) :
    Sound k (Conforms k · op.result) (perform.onSlots op (k.implicit? op) values)
      (perform.recorded.onSlots op (k.implicit? op) values) := by
  cases himplicit : k.implicit? op with
  | none =>
    rw [himplicit] at h
    exact .perform hperform (himplicit ▸ .none) h
  | some i =>
    rw [himplicit] at h
    obtain ⟨receiver, arguments, hreceiver, harguments, rfl⟩ := List.forall₂_cons_right_iff.mp h
    exact .perform hperform (himplicit ▸ .some hreceiver) harguments

/-- A call of an operation on sound expressions for all its slots is sound. -/
theorem sound_callOn (hperform : perform.Respects k) {op : Operation} {plans : List Expression}
    (h : List.Forall₂ (fun slot e => Expression.IsSound k perform slot.1 e)
      (Sharing.slotsOf op (k.implicit? op)) plans) :
    Expression.IsSound k perform op.result (Assembly.callOn op (k.implicit? op) plans) := by
  have htypes : (Sharing.slotsOf op (k.implicit? op)).map Prod.fst =
      Block.slotTypes op (k.implicit? op) := by
    simp [Sharing.slotsOf, Block.slotTypes, Function.comp_def]
  have hvalues := sound_evaluateAll (List.forall₂_map_left_iff.mpr h)
  rw [htypes] at hvalues
  rw [Expression.IsSound, Expression.evaluate_callOn, Expression.evaluate_callOn]
  exact hvalues.bind fun values => sound_onSlots hperform

/-- An array of sound expressions for its components is sound. -/
theorem sound_array {component : TypeExpr} {es : List Expression}
    (h : ∀ e ∈ es, Expression.IsSound k perform component e) :
    Expression.IsSound k perform (.array component) (.array component es) := by
  have hcomponents : List.Forall₂ (Expression.IsSound k perform) (es.map fun _ => component) es :=
    List.forall₂_map_left_iff.mpr (List.forall₂_same.mpr h)
  rw [Expression.IsSound, Expression.evaluate, Expression.evaluate]
  refine (sound_evaluateAll hcomponents).bind fun values hvalues => .pure (.array ?_)
  exact forall_mem_of_forall₂ (List.forall₂_map_right_iff.mp hvalues).flip

/-- **Plans are sound.** -/
theorem IsPlan.isSound (hroot : k.ObjectIsRoot) (hperform : perform.Respects k)
    {granted : Access} {budget : Nat} {type : TypeExpr} {demand : Demand} {e : Expression}
    (h : IsPlan k granted budget type demand e) : e.IsSound k perform type := by
  refine IsPlan.induction ?seed ?array ?call h
  case seed =>
    intro budget type demand e hseed
    obtain ⟨l, rfl, rfl⟩ | ⟨component, rfl, rfl⟩ := TypeExpr.mem_seeds hseed
    · rw [Expression.IsSound, Expression.evaluate, Expression.evaluate]
      exact .pure (l.conforms_value k)
    · exact sound_array (by simp)
  case array =>
    exact fun budget component demand e he => sound_array (List.forall_mem_singleton.mpr he)
  case call =>
    intro budget type demand op plans hop hplans
    exact (sound_callOn hperform hplans).imp fun _ hvalue =>
      hvalue.of_assignable hroot (k.assignable_of_mem_producers hop)

theorem IsCallOn.isSound (hroot : k.ObjectIsRoot) (hperform : perform.Respects k)
    {granted : Access} {budget : Nat} {op : Operation} {e : Expression}
    (h : IsCallOn k granted budget op e) : e.IsSound k perform op.result := by
  obtain ⟨plans, hplans, rfl⟩ := isCallOn_iff.mp h
  exact sound_callOn hperform (hplans.imp fun _ _ hplan => hplan.isSound hroot hperform)

end

/-- **Plans and blocks are sound**: on a catalogue with nothing above the class of all objects, and
with an executor that returns values of the result types only, evaluating any plan asks for
operations with conforming values only, and gives a value of the wanted type or the last error of
the executor. So does running any block, with the result type of the operation that it tests. -/
theorem sound_evaluation {k : Catalog} (hroot : k.ObjectIsRoot) {σ : Type} {perform : Executor σ}
    (hperform : perform.Respects k) :
    (∀ (granted : Access) (requests : List Sharing.Request) (budget : Nat) (type : TypeExpr)
      (demand : Demand) (index : Nat),
      index < (Sharing.treeAfter k granted requests budget type demand).size →
      ∃ e, (Sharing.treeAfter k granted requests budget type demand).get index = .ok e ∧
        Sound k (Conforms k · type) (e.evaluate perform []) (e.evaluate perform.recorded [])) ∧
    ∀ (tested : ClassName) (depth : Nat) (grantedTested grantedUsed : Access) (c : Subject),
      Subject.ofCatalog k tested depth grantedTested grantedUsed = .ok c →
      ∀ index < c.size, ∃ b, c.get index = .ok b ∧
        b.operation ∈ Subject.testedOperations k tested grantedTested ∧
        Sound k (Conforms k · b.operation.result) (b.execute perform)
          (b.execute perform.recorded) := by
  constructor
  · intro granted requests budget type demand index hindex
    rw [Sharing.treeAfter_eq_tree] at hindex ⊢
    obtain ⟨e, he, hplan⟩ := Fresh.serves_tree k granted budget type demand index hindex
    exact ⟨e, he, hplan.isSound hroot hperform⟩
  · intro tested depth grantedTested grantedUsed c hc index hindex
    obtain ⟨below, rfl, rfl⟩ := Subject.eq_fresh_of_ofCatalog_eq_ok hc
    obtain ⟨child, offset, op, hop, hlocate, hcalls, hoffset⟩ :=
      Subject.exists_calls_fresh k tested below grantedTested grantedUsed hindex
    obtain ⟨b, e, hblock, rfl, -, hcall, hsame⟩ :=
      Fresh.exists_blockOf_call (Fresh.serves_tree k grantedUsed below) hoffset
    refine ⟨b, (Subject.get_eq_blockOf hlocate hcalls).trans hblock, hop, ?_⟩
    rw [hsame, hsame]
    exact hcall.isSound hroot hperform

/-! ### Numbered objects -/

namespace Gallery

/-- Makes objects of the class of the result and numbers them. -/
def draw : Executor Nat := fun op _ _ =>
  match op.result with
  | .named c => do
    let number ← getModify (· + 1)
    return .object c (.ofNat number)
  | t => throw (.notInstantiable t.binaryName "no class")

/-- An object is of the class of the result. -/
theorem respects_draw (k : Catalog) : draw.Respects k := by
  intro op implicit arguments state value h
  unfold draw at h
  cases hresult : op.result with
  | named c =>
    rw [hresult] at h
    obtain rfl := Except.ok.inj h
    exact .object (k.assignable_refl _)
  | void | primitive p | array component =>
    rw [hresult] at h
    cases h

/-- The last plan for a shape with two calls and the last block of the shapes are sound. -/
theorem sound_evaluation_last :
    catalog.ObjectIsRoot ∧ draw.Respects catalog ∧
      4 < (Sharing.treeAfter catalog .global [] 2 (.named shape) .all).size ∧
      (∃ e, (Sharing.treeAfter catalog .global [] 2 (.named shape) .all).get 4 = .ok e ∧
        Sound catalog (Conforms catalog · (.named shape)) (e.evaluate draw [])
          (e.evaluate draw.recorded [])) ∧
      Subject.ofCatalog catalog shape 3 .global .global = .ok subject ∧ 11 < subject.size ∧
      ∃ b, subject.get 11 = .ok b ∧
        b.operation ∈ Subject.testedOperations catalog shape .global ∧
        Sound catalog (Conforms catalog · b.operation.result) (b.execute draw)
          (b.execute draw.recorded) := by
  have hroot : catalog.ObjectIsRoot := by
    unfold Catalog.ObjectIsRoot
    decide
  obtain ⟨hplans, hblocks⟩ := sound_evaluation hroot (respects_draw catalog)
  exact ⟨hroot, respects_draw catalog, lt_size_tree,
    hplans .global [] 2 (.named shape) .all 4 lt_size_tree, ofCatalog_shape, lt_size_subject,
    hblocks shape 3 .global .global subject ofCatalog_shape 11 lt_size_subject⟩

end Gallery

end CallPlan

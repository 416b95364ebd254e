import CallPlan.Proofs.Availability
import CallPlan.Proofs.Evaluation

/-!
# Blocks run like nested calls

A block binds every plan to a variable of its own and calls the operation on the variables. Since
the names of the variables differ (`Block.nodup_names_bindPlans`) and plans read no variables,
running the block evaluates the plans in order and then asks for the operation, and that is what
evaluating the nested call does (`Block.execute_addCall`). So both agree for every executor: in what
they ask for, in what order, in where they stop and in what comes of it (`execute_eq_evaluate`).
-/

namespace CallPlan

/-! ### Variables and their values -/

namespace Locals

/-- Binds variables to values, one after the other. -/
def bindAll (locals : Locals) : List Variable → List Value → Locals
  | v :: vs, value :: values => bindAll ((v.name, value) :: locals) vs values
  | _, _ => locals

/-- A variable keeps its value when others are bound. -/
theorem lookup_bindAll_of_notMem {locals : Locals} {vs : List Variable} {values : List Value}
    {name : String} (h : name ∉ vs.map Variable.name) :
    (locals.bindAll vs values).lookup name = locals.lookup name := by
  induction vs generalizing locals values with
  | nil => rfl
  | cons v vs ih =>
    cases values with
    | nil => rfl
    | cons value values =>
      obtain ⟨hv, hvs⟩ := not_or.mp (List.mem_cons.not.mp h)
      rw [bindAll, ih hvs, List.lookup_cons, beq_false_of_ne hv]

/-- Variables with different names have the values that they were bound to. -/
theorem evaluateAll_bindAll {σ : Type} (perform : Executor σ) {locals : Locals}
    {vs : List Variable} {values : List Value} (hnames : (vs.map Variable.name).Nodup)
    (hlength : values.length = vs.length) :
    Expression.evaluateAll perform (locals.bindAll vs values) (vs.map .var) = pure values := by
  induction vs generalizing locals values with
  | nil =>
    obtain rfl := List.eq_nil_of_length_eq_zero hlength
    rw [List.map_nil, Expression.evaluateAll]
  | cons v vs ih =>
    obtain ⟨value, values, rfl⟩ := List.exists_cons_of_length_eq_add_one hlength
    obtain ⟨hv, hvs⟩ := List.nodup_cons.mp hnames
    have hrest := @ih ((v.name, value) :: locals) values hvs (Nat.succ.inj hlength)
    -- the variables bound later have other names
    have hread : (bindAll ((v.name, value) :: locals) vs values).lookup v.name = some value := by
      rw [lookup_bindAll_of_notMem hv, List.lookup_cons, beq_self_eq_true]
    rw [List.map_cons, Expression.evaluateAll, Expression.evaluate, bindAll, read, hread, hrest]
    simp only [pure_bind]

end Locals

/-- A name tells its number. -/
theorem NameSupply.nameOf_injective {c d : Char} {m n : Nat} (h : nameOf c m = nameOf d n) :
    m = n := by
  have hcharacters := congrArg String.toList h
  simp only [nameOf, String.toList_ofList, List.cons.injEq, Nat.toString_eq_repr]
    at hcharacters
  exact Nat.repr_injective (String.toList_injective hcharacters.2)

namespace Block

/-! ### Statements of a block -/

/-- No two variables have the same name. -/
theorem nodup_names_variablesFrom (start : Nat) (types : List TypeExpr) :
    ((variablesFrom start types).map Variable.name).Nodup := by
  have hnumbers : (types.zipIdx start).Pairwise (·.2 ≠ ·.2) := by
    rw [← List.pairwise_map, List.zipIdx_map_snd]
    exact List.nodup_range'
  rw [variablesFrom, List.map_map, List.Nodup, List.pairwise_map]
  exact hnumbers.imp fun hne hsame => hne (NameSupply.nameOf_injective hsame)

/-- The variables that plans are bound to have different names. -/
theorem nodup_names_bindPlans (b : Block) (entries : List (TypeExpr × Expression)) :
    ((b.bindPlans entries).1.map Variable.name).Nodup := by
  rw [fst_bindPlans]
  exact nodup_names_variablesFrom _ _

/-- Every plan is bound to its variable. -/
theorem statements_bindPlans (b : Block) (entries : List (TypeExpr × Expression)) :
    (b.bindPlans entries).2.statements =
      b.statements ++ List.zipWith .bind (b.bindPlans entries).1 (entries.map Prod.snd) := by
  induction entries generalizing b with
  | nil => simp [bindPlans]
  | cons entry entries ih =>
    obtain ⟨t, plan⟩ := entry
    simp only [bindPlans, List.map_cons, ih, List.zipWith_cons_cons]
    simp [bindPlan, freshVariable, push]

theorem operation_bindPlans (b : Block) (entries : List (TypeExpr × Expression)) :
    (b.bindPlans entries).2.operation = b.operation := by
  induction entries generalizing b with
  | nil => rfl
  | cons entry entries ih =>
    obtain ⟨t, plan⟩ := entry
    exact ih _

@[simp]
theorem operation_boundPlans (op : Operation) (implicit : Option Implicit)
    (plans : List Expression) : (boundPlans op implicit plans).2.operation = op :=
  operation_bindPlans _ _

theorem length_boundPlans {op : Operation} {implicit : Option Implicit} {plans : List Expression}
    (h : plans.length = (slotTypes op implicit).length) :
    (boundPlans op implicit plans).1.length = plans.length := by
  have htypes := congrArg List.length (types_boundPlans h)
  rw [List.length_map] at htypes
  exact htypes.trans h.symm

/-- With all plans bound, the block has the statements that bind them, in order. -/
theorem statements_boundPlans {op : Operation} {implicit : Option Implicit}
    {plans : List Expression} (h : plans.length = (slotTypes op implicit).length) :
    (boundPlans op implicit plans).2.statements =
      List.zipWith .bind (boundPlans op implicit plans).1 plans := by
  rw [boundPlans, statements_bindPlans, List.map_snd_zip h.le]
  rfl

/-- The statement that carries out the call of a block. -/
def callStatement (b : Block) (call : Expression) : Statement :=
  if b.operation.isConstructor then .bind (b.freshVariable b.operation.result).1 call
  else .run call

@[simp]
theorem operation_addCall (b : Block) (call : Expression) :
    (b.addCall call).operation = b.operation := by
  unfold addCall
  split <;> rfl

/-- The call comes behind all other statements. -/
theorem statements_addCall (b : Block) (call : Expression) :
    (b.addCall call).statements = b.statements ++ [b.callStatement call] := by
  unfold addCall callStatement
  split <;> rfl

/-! ### Running a block -/

section

variable {σ : Type} (perform : Executor σ)

/-- The statement of a call comes to what the call itself comes to. -/
theorem runAll_callStatement (locals : Locals) (last : Value) (b : Block) (call : Expression) :
    runAll perform locals last [b.callStatement call] = call.evaluate perform locals := by
  unfold callStatement
  split <;> simp [runAll]

/-- Binding closed expressions evaluates them in order, and the call finds their values bound. -/
theorem runAll_bindings {vs : List Variable} {es : List Expression}
    (hlength : vs.length = es.length) (hclosed : ∀ e ∈ es, e.Closed) (b : Block)
    (call : Expression) (locals : Locals) (last : Value) :
    runAll perform locals last (List.zipWith .bind vs es ++ [b.callStatement call]) =
      Expression.evaluateAll perform [] es >>= fun values =>
        call.evaluate perform (locals.bindAll vs values) := by
  induction es generalizing vs locals last with
  | nil =>
    obtain rfl := List.eq_nil_of_length_eq_zero hlength
    simp only [List.zipWith_nil_left, List.nil_append, runAll_callStatement,
      Expression.evaluateAll, pure_bind, Locals.bindAll]
  | cons e es ih =>
    obtain ⟨v, vs, rfl⟩ := List.exists_cons_of_length_eq_add_one hlength
    obtain ⟨he, hes⟩ := List.forall_mem_cons.mp hclosed
    rw [List.zipWith_cons_cons, List.cons_append, runAll, he.evaluate_eq]
    simp only [Expression.evaluateAll, bind_assoc, pure_bind, Locals.bindAll]
    exact bind_congr fun value => ih (Nat.succ.inj hlength) hes _ _

/-- A block on closed plans runs like the nested call on these plans. -/
theorem execute_addCall {op : Operation} {implicit : Option Implicit} {plans : List Expression}
    (hlength : plans.length = (slotTypes op implicit).length)
    (hclosed : ∀ e ∈ plans, e.Closed) :
    ((boundPlans op implicit plans).2.addCall
        (Assembly.callOn op implicit ((boundPlans op implicit plans).1.map .var))).execute perform =
      (Assembly.callOn op implicit plans).evaluate perform [] := by
  have hvariables := length_boundPlans hlength
  have hnames : ((boundPlans op implicit plans).1.map Variable.name).Nodup :=
    nodup_names_bindPlans _ _
  rw [execute, statements_addCall, statements_boundPlans hlength,
    runAll_bindings perform hvariables hclosed, Expression.evaluate_callOn]
  refine Expression.evaluateAll_bind_congr fun values hvalues => ?_
  rw [Expression.evaluate_callOn,
    Locals.evaluateAll_bindAll perform hnames (hvalues.trans hvariables.symm), pure_bind]

end

end Block

/-! ### Blocks and calls at an index -/

/-- A call is assembled from the parts at its index. -/
theorem Calls.get_toTree (c : Calls) {index : Nat} (h : index < c.size) :
    c.toTree.get index = c.parts index >>= (Assembly.operation c.operation c.implicit).build? := by
  rw [toTree, PlanTree.get_product h, parts, if_pos h]

/-- The call at an index is the call on the plans for the slots at that index. -/
theorem Fresh.exists_call {k : Catalog} {granted : Access} {budget : Nat}
    {below : TypeExpr → Demand → PlanTree} {P : TypeExpr → Demand → Expression → Prop}
    (hP : ∀ type demand e, P type demand e → IsPlan k granted budget type demand e)
    (h : ∀ type demand, (below type demand).Serves (P type demand))
    {op : Operation} {index : Nat} (hindex : index < (calls k below op).size) :
    ∃ plans, (calls k below op).parts index = .ok plans ∧
      (calls k below op).toTree.get index = .ok (Assembly.callOn op (k.implicit? op) plans) ∧
      List.Forall₂ (fun slot e => P slot.1 slot.2 e)
        (Sharing.slotsOf op (k.implicit? op)) plans := by
  obtain ⟨plans, hparts, hplans⟩ := exists_parts h hindex
  obtain ⟨receiver, arguments⟩ := forall₂_slotsOf_iff.mp (hplans.imp fun _ _ => hP _ _ _)
  refine ⟨plans, hparts, ?_, hplans⟩
  rw [Calls.get_toTree _ hindex, hparts]
  refine Eq.trans (Assembly.build?_operation _ _ _) ?_
  exact call?_eq_ok_of_plans receiver arguments

/-- The block and the nested call at an index are made of the same plans. -/
theorem Fresh.exists_blockOf_call {k : Catalog} {granted : Access} {budget : Nat}
    {below : TypeExpr → Demand → PlanTree}
    (h : ∀ type demand, (below type demand).Serves (IsPlan k granted budget type demand))
    {op : Operation} {index : Nat} (hindex : index < (calls k below op).size) :
    ∃ b e, Subject.blockOf (calls k below op) index = .ok b ∧ b.operation = op ∧
      (calls k below op).toTree.get index = .ok e ∧ IsCallOn k granted budget op e ∧
      ∀ (σ : Type) (perform : Executor σ), b.execute perform = e.evaluate perform [] := by
  obtain ⟨plans, hparts, hcall, hplans⟩ := exists_call (fun _ _ _ hplan => hplan) h hindex
  have hlength := length_eq_of_plans hplans
  have hclosed : ∀ e ∈ plans, e.Closed :=
    forall_mem_of_forall₂ (hplans.imp fun _ _ hplan => hplan.closed)
  refine ⟨_, _, ?_, by simp, hcall, isCallOn_iff.mpr ⟨plans, hplans, rfl⟩,
    fun σ perform => Block.execute_addCall perform hlength hclosed⟩
  rw [Subject.blockOf, hparts]
  exact Block.build_eq_ok hlength k.isSome_implicit?

/-- **A block runs like the nested call**: at every index of a subject there is a block, and a call
where the index leads to, and the two agree for every executor and all of its states. They ask for
the same operations with the same values in the same order, leave the same state behind, and give
the same value or stop with the same error. -/
theorem execute_eq_evaluate {k : Catalog} {tested : ClassName} {depth : Nat}
    {grantedTested grantedUsed : Access} {c : Subject}
    (hsubject : Subject.ofCatalog k tested depth grantedTested grantedUsed = .ok c) {index : Nat}
    (hindex : index < c.size) :
    ∃ child offset calls b e,
      c.indexRanges.locate index = .ok (child, offset) ∧ c.calls[child]? = some calls ∧
      c.get index = .ok b ∧ calls.toTree.get offset = .ok e ∧
      ∀ (σ : Type) (perform : Executor σ),
        b.execute perform = e.evaluate perform [] ∧
        ∀ state, (b.execute perform.recorded).run.run (state, []) =
          (e.evaluate perform.recorded []).run.run (state, []) := by
  obtain ⟨below, rfl, rfl⟩ := Subject.eq_fresh_of_ofCatalog_eq_ok hsubject
  obtain ⟨child, offset, op, -, hlocate, hcalls, hoffset⟩ :=
    Subject.exists_calls_fresh k tested below grantedTested grantedUsed hindex
  obtain ⟨b, e, hblock, -, hcall, -, hsame⟩ :=
    Fresh.exists_blockOf_call (Fresh.serves_tree k grantedUsed below) hoffset
  refine ⟨child, offset, _, b, e, hlocate, hcalls, ?_, hcall,
    fun σ perform => ⟨hsame σ perform, ?_⟩⟩
  · exact (Subject.get_eq_blockOf hlocate hcalls).trans hblock
  · intro state
    rw [hsame (σ × List Event) perform.recorded]

/-! ### A receiver and an argument -/

namespace Gallery

/-- An abstract class of shapes. -/
def shape : ClassName := .topLevel "demo" "Shape"

/-- A class below it. -/
def circle : ClassName := .topLevel "demo" "Circle"

/-- A method that makes a shape of a shape. -/
def grow : Operation where
  owner := shape
  kind := .method "grow" (.named shape) false false
  parameters := [.primitive .int]

/-- The way to get the first shape. -/
def makeCircle : Operation where
  owner := circle
  kind := .constructor
  parameters := []

/-- The catalogue of both classes. -/
def catalog : Catalog where
  entries :=
    [{ name := shape, kind := .abstractClass, operations := [grow] },
     { name := circle, supertypes := [shape], operations := [makeCircle] }]
  nodup := by decide
  wellFormed := by simp [Entry.WellFormed, grow, makeCircle]

/-- The first class as a subject with a depth of three. -/
def subject : Subject := Subject.fresh catalog shape 2 .global .global

/-- A circle that has grown at most once, by one of three numbers, grows by one of three numbers. -/
theorem size_subject : subject.size = 12 := by
  have hcount : Subject.blockCount catalog shape 2 .global .global = 12 := by cbv
  rw [subject, Subject.size_fresh, hcount]
  rfl

theorem ofCatalog_shape : Subject.ofCatalog catalog shape 3 .global .global = .ok subject :=
  Subject.ofCatalog_succ catalog shape 2 .global .global

theorem lt_size_subject : 11 < subject.size := by
  rw [size_subject]
  decide

/-- There are five plans for a shape with two calls. -/
theorem lt_size_tree : 4 < (Sharing.treeAfter catalog .global [] 2 (.named shape) .all).size := by
  have hcount : catalog.planCount .global 2 (.named shape) .all = 5 := by cbv
  rw [Sharing.treeAfter_eq_tree, Fresh.size_tree, hcount]
  decide

/-- The last block of the shapes runs like the call it stands for. -/
theorem execute_eq_evaluate_last :
    Subject.ofCatalog catalog shape 3 .global .global = .ok subject ∧ 11 < subject.size ∧
      ∃ child offset calls b e,
        subject.indexRanges.locate 11 = .ok (child, offset) ∧
        subject.calls[child]? = some calls ∧
        subject.get 11 = .ok b ∧ calls.toTree.get offset = .ok e ∧
        ∀ (σ : Type) (perform : Executor σ),
          b.execute perform = e.evaluate perform [] ∧
          ∀ state, (b.execute perform.recorded).run.run (state, []) =
            (e.evaluate perform.recorded []).run.run (state, []) :=
  ⟨ofCatalog_shape, lt_size_subject, execute_eq_evaluate ofCatalog_shape lt_size_subject⟩

end Gallery

end CallPlan

import CallPlan.Block.Subject
import Mathlib

/-!
# Shared trees are fresh trees

`Fresh.tree` builds the tree of a type by the same recursion as `Sharing.treeOf`, but anew every
time. A memory is **faithful** if all the trees that it holds are fresh ones. Every computation here
keeps a memory faithful, so whatever was asked before, `Sharing.treeOf` answers with the fresh tree
(`Sharing.treeAfter_eq_tree`), and the trees of a subject are fresh ones (`Subject.ofCatalog_succ`).
-/

namespace CallPlan

/-! ### Fresh trees -/

namespace Fresh

/-- The calls of an operation, with slots from `below`. -/
def calls (k : Catalog) (below : TypeExpr → Demand → PlanTree) (op : Operation) : Calls :=
  ⟨op, k.implicit? op,
    (Sharing.slotsOf op (k.implicit? op)).map fun slot => below slot.1 slot.2⟩

/-- The alternatives for a type that call an operation. -/
def callAlternatives (k : Catalog) (granted : Access) (below : TypeExpr → Demand → PlanTree)
    (type : TypeExpr) : List PlanTree :=
  (((k.producers type granted).map (calls k below)).filter (·.size ≠ 0)).map Calls.toTree

/-- The tree of a type, given the alternatives that call an operation. -/
def treeWith (budget : Nat) (called : TypeExpr → List PlanTree) : TypeExpr → Demand → PlanTree
  | .array component, demand =>
    .sum (.array component) budget
      (Sharing.seedAlternative (.array component) demand ++
        (if component.leaf.isVoid then []
          else Sharing.arrayAlternative component (treeWith budget called component .all)) ++
        called (.array component))
  | type, demand => .sum type budget (Sharing.seedAlternative type demand ++ called type)

/-- The tree of a type, built without a memory. -/
def tree (k : Catalog) (granted : Access) : Nat → TypeExpr → Demand → PlanTree
  | 0 => treeWith 0 fun _ => []
  | budget + 1 => treeWith (budget + 1) (callAlternatives k granted (tree k granted budget))

/-- The alternatives for a type that call an operation, within a budget for all calls. -/
def called (k : Catalog) (granted : Access) : Nat → TypeExpr → List PlanTree
  | 0, _ => []
  | budget + 1, type => callAlternatives k granted (tree k granted budget) type

/-- The alternative for a type that fills an array, if the type has one. -/
def arrays (k : Catalog) (granted : Access) (budget : Nat) : TypeExpr → List PlanTree
  | .array component =>
    if component.leaf.isVoid then []
    else Sharing.arrayAlternative component (tree k granted budget component .all)
  | _ => []

/-- All that the tree of a type joins. -/
def alternatives (k : Catalog) (granted : Access) (budget : Nat) (type : TypeExpr)
    (demand : Demand) : List PlanTree :=
  Sharing.seedAlternative type demand ++ arrays k granted budget type ++
    called k granted budget type

theorem tree_eq_treeWith (k : Catalog) (granted : Access) (budget : Nat) :
    tree k granted budget = treeWith budget (called k granted budget) := by
  cases budget <;> rfl

/-- A tree joins seeds, arrays and calls. -/
theorem tree_eq (k : Catalog) (granted : Access) (budget : Nat) (type : TypeExpr)
    (demand : Demand) :
    tree k granted budget type demand =
      .sum type budget (alternatives k granted budget type demand) := by
  cases type with
  | array component => rw [tree_eq_treeWith, treeWith, alternatives, arrays, tree_eq_treeWith]
  | void | primitive p | named c =>
    rw [tree_eq_treeWith, treeWith, alternatives, arrays, List.append_nil]
    all_goals simp

end Fresh

/-! ### Faithful memories -/

/-- All trees that a memory holds are fresh trees. -/
def Memo.Faithful (k : Catalog) (granted : Access) (memo : Memo) : Prop :=
  ∀ key tree, memo.get? key = some tree → tree = Fresh.tree k granted key.budget key.type key.demand

theorem Memo.faithful_empty (k : Catalog) (granted : Access) : Memo.Faithful k granted ∅ := by
  intro key tree h
  simp at h

/-- A memory stays faithful with one more fresh tree. -/
theorem Memo.Faithful.insert {k : Catalog} {granted : Access} {memo : Memo}
    (h : Memo.Faithful k granted memo) (key : TreeKey) :
    Memo.Faithful k granted
      (memo.insert key (Fresh.tree k granted key.budget key.type key.demand)) := by
  intro other tree hget
  rw [Std.HashMap.get?_eq_getElem?, Std.HashMap.getElem?_insert] at hget
  split at hget
  · rename_i hkey
    obtain rfl : key = other := by simpa using hkey
    exact (Option.some.inj hget).symm
  · exact h other tree hget

namespace Sharing

variable {k : Catalog} {granted : Access} {α β : Type}

/-- On every faithful memory the computation has that result, and it leaves a faithful memory. -/
def Yields (k : Catalog) (granted : Access) (x : Sharing α) (a : α) : Prop :=
  ∀ memo : Memo, Memo.Faithful k granted memo →
    (x.run memo).1 = a ∧ Memo.Faithful k granted (x.run memo).2

theorem Yields.pure (a : α) : Yields k granted (pure a : Sharing α) a :=
  fun _ h => ⟨rfl, h⟩

theorem Yields.bind {x : Sharing α} {a : α} {f : α → Sharing β} {b : β}
    (hx : Yields k granted x a) (hf : Yields k granted (f a) b) :
    Yields k granted (x >>= f) b := by
  intro memo hmemo
  obtain ⟨hresult, hafter⟩ := hx memo hmemo
  have hrun : (x >>= f).run memo = (f (x.run memo).1).run (x.run memo).2 := rfl
  rw [hrun, hresult]
  exact hf _ hafter

/-- Computations for several elements yield the results for each of them. -/
theorem Yields.mapM {f : α → Sharing β} {g : α → β} (h : ∀ a, Yields k granted (f a) (g a))
    (as : List α) : Yields k granted (as.mapM f) (as.map g) := by
  induction as with
  | nil => exact .pure []
  | cons a as ih =>
    rw [List.mapM_cons]
    exact (h a).bind (ih.bind (.pure _))

/-- A tree that the memory holds is not built again, and one that is built is put into the
memory. -/
theorem run_remember (key : TreeKey) (build : Sharing PlanTree) (memo : Memo) :
    (remember key build).run memo =
      match memo.get? key with
      | some tree => (tree, memo)
      | none => ((build.run memo).1, (build.run memo).2.insert key (build.run memo).1) := by
  simp only [remember, StateT.run_bind, StateT.run_get, pure_bind]
  cases memo.get? key <;> rfl

/-- Remembering is of no effect on the result if what is built is the fresh tree. -/
theorem Yields.remember (key : TreeKey) {build : Sharing PlanTree}
    (h : Yields k granted build (Fresh.tree k granted key.budget key.type key.demand)) :
    Yields k granted (remember key build)
      (Fresh.tree k granted key.budget key.type key.demand) := by
  intro memo hmemo
  rw [run_remember]
  split
  · rename_i tree hfound
    -- what was built before is fresh because the memory is faithful
    exact ⟨hmemo key tree hfound, hmemo⟩
  · obtain ⟨hresult, hafter⟩ := h memo hmemo
    rw [hresult]
    exact ⟨rfl, hafter.insert key⟩

/-- The calls of an operation are fresh if the trees for its slots are. -/
theorem yields_calls {below : TypeExpr → Demand → Sharing PlanTree}
    {fresh : TypeExpr → Demand → PlanTree}
    (h : ∀ type demand, Yields k granted (below type demand) (fresh type demand))
    (op : Operation) : Yields k granted (calls k below op) (Fresh.calls k fresh op) := by
  have hslots := Yields.mapM (f := fun slot : TypeExpr × Demand => below slot.1 slot.2)
    (fun slot => h slot.1 slot.2) (slotsOf op (k.implicit? op))
  exact hslots.bind (.pure _)

/-- The alternatives that call an operation are fresh if the trees for the slots are. -/
theorem yields_callAlternatives {below : TypeExpr → Demand → Sharing PlanTree}
    {fresh : TypeExpr → Demand → PlanTree}
    (h : ∀ type demand, Yields k granted (below type demand) (fresh type demand))
    (type : TypeExpr) :
    Yields k granted (callAlternatives k granted below type)
      (Fresh.callAlternatives k granted fresh type) :=
  (Yields.mapM (yields_calls h) _).bind (.pure _)

/-- The tree of a type is fresh if the alternatives that call an operation are. -/
theorem yields_treeWith {budget : Nat} {called : TypeExpr → Sharing (List PlanTree)}
    (h : ∀ type, Yields k granted (called type) (Fresh.called k granted budget type))
    (type : TypeExpr) (demand : Demand) :
    Yields k granted (treeWith budget called type demand)
      (Fresh.tree k granted budget type demand) := by
  induction type generalizing demand with
  | array component ih =>
    refine Yields.remember ⟨.array component, demand, budget⟩ ?_
    rw [Fresh.tree_eq, Fresh.alternatives]
    have hrest (arrays : List PlanTree) :
        Yields k granted
          (do
            let rest ← called (.array component)
            return PlanTree.sum (.array component) budget
              (seedAlternative (.array component) demand ++ arrays ++ rest))
          (PlanTree.sum (.array component) budget
            (seedAlternative (.array component) demand ++ arrays ++
              Fresh.called k granted budget (.array component))) :=
      (h _).bind (.pure _)
    -- the tree of the component type is asked for within the same budget
    rw [Fresh.arrays]
    by_cases hvoid : component.leaf.isVoid = true
    · simp only [hvoid, if_true]
      exact Yields.bind (.pure []) (hrest [])
    · simp only [hvoid]
      exact (ih .all).bind (Yields.bind (.pure _) (hrest _))
  | void | primitive p | named c =>
    refine Yields.remember ⟨_, demand, budget⟩ ?_
    rw [Fresh.tree_eq, Fresh.alternatives, Fresh.arrays, List.append_nil]
    · exact (h _).bind (.pure _)
    · simp

/-- The tree of a type is the fresh one. -/
theorem yields_treeOf (budget : Nat) (type : TypeExpr) (demand : Demand) :
    Yields k granted (treeOf k granted budget type demand)
      (Fresh.tree k granted budget type demand) := by
  induction budget generalizing type demand with
  | zero => exact yields_treeWith (fun _ => .pure []) type demand
  | succ budget ih => exact yields_treeWith (yields_callAlternatives ih) type demand

/-- The calls of a tested operation are those with fresh slots. -/
theorem yields_callsOf (budget : Nat) (op : Operation) :
    Yields k granted (callsOf k granted op (budget + 1)).run
      (.ok (Fresh.calls k (Fresh.tree k granted budget) op)) := by
  have hcalls : Yields k granted (calls k (treeOf k granted budget) op)
      (Fresh.calls k (Fresh.tree k granted budget) op) := yields_calls (yields_treeOf budget) op
  exact hcalls.bind (f := fun c => Pure.pure (Except.ok c)) (.pure (Except.ok _))

theorem Yields.mapM_ok {ε : Type} {f : α → ExceptT ε Sharing β} {g : α → β}
    (h : ∀ a, Yields k granted (f a).run (.ok (g a))) (as : List α) :
    Yields k granted (as.mapM f).run (.ok (as.map g)) := by
  induction as with
  | nil => exact .pure _
  | cons a as ih =>
    rw [List.mapM_cons, ExceptT.run_bind]
    refine (h a).bind ?_
    change Yields k granted (as.mapM f >>= fun bs => Pure.pure (g a :: bs)).run _
    rw [ExceptT.run_bind]
    exact ih.bind (.pure _)

/-! ### What was asked before -/

/-- What can be asked for. -/
inductive Request where
  | tree (type : TypeExpr) (demand : Demand) (budget : Nat)
  | calls (op : Operation) (budget : Nat)

/-- The memory after a request. -/
def Request.serve (k : Catalog) (granted : Access) (memo : Memo) : Request → Memo
  | tree type demand budget => ((treeOf k granted budget type demand).run memo).2
  | calls op budget => ((callsOf k granted op budget).run.run memo).2

/-- The memory after requests, the first of which finds it empty. -/
def memoAfter (k : Catalog) (granted : Access) (requests : List Request) : Memo :=
  requests.foldl (Request.serve k granted) ∅

/-- A request leaves a faithful memory faithful. -/
theorem Request.faithful_serve {memo : Memo} (h : Memo.Faithful k granted memo)
    (request : Request) : Memo.Faithful k granted (request.serve k granted memo) := by
  cases request with
  | tree type demand budget => exact (yields_treeOf budget type demand memo h).2
  | calls op budget =>
    cases budget with
    | zero => exact h
    | succ budget => exact (yields_callsOf budget op memo h).2

/-- Requests keep the memory faithful. -/
theorem faithful_memoAfter (requests : List Request) :
    Memo.Faithful k granted (memoAfter k granted requests) := by
  have hfold (memo : Memo) (h : Memo.Faithful k granted memo) :
      Memo.Faithful k granted (requests.foldl (Request.serve k granted) memo) := by
    induction requests generalizing memo with
    | nil => exact h
    | cons request requests ih => exact ih _ (request.faithful_serve h)
  exact hfold ∅ (Memo.faithful_empty k granted)

/-- The tree of a type after some requests. -/
def treeAfter (k : Catalog) (granted : Access) (requests : List Request) (budget : Nat)
    (type : TypeExpr) (demand : Demand) : PlanTree :=
  ((treeOf k granted budget type demand).run (memoAfter k granted requests)).1

/-- Whatever was asked before, the tree of a type is the fresh one. -/
theorem treeAfter_eq_tree (requests : List Request) (budget : Nat) (type : TypeExpr)
    (demand : Demand) :
    treeAfter k granted requests budget type demand = Fresh.tree k granted budget type demand :=
  (yields_treeOf budget type demand _ (faithful_memoAfter requests)).1

end Sharing

/-! ### Subjects -/

namespace Subject

/-- The operations of a class that are tested. -/
def testedOperations (k : Catalog) (tested : ClassName) (granted : Access) : List Operation :=
  (k.usable tested granted).filter (isTestable k tested)

/-- The subject of a class, with fresh trees. -/
def fresh (k : Catalog) (tested : ClassName) (depth : Nat) (grantedTested grantedUsed : Access) :
    Subject where
  tested
  scope := (Scope.besides tested).withTypes (k.typesOf tested.package)
  depth := depth + 1
  calls := ((testedOperations k tested grantedTested).map
    (Fresh.calls k (Fresh.tree k grantedUsed depth))).filter (·.size ≠ 0)

/-- With a depth of at least one there is a subject, and its trees are fresh ones. -/
theorem ofCatalog_succ (k : Catalog) (tested : ClassName) (depth : Nat)
    (grantedTested grantedUsed : Access) :
    ofCatalog k tested (depth + 1) grantedTested grantedUsed =
      .ok (fresh k tested depth grantedTested grantedUsed) := by
  obtain ⟨hcalls, -⟩ := Sharing.Yields.mapM_ok (Sharing.yields_callsOf depth)
    (testedOperations k tested grantedTested) ∅ (Memo.faithful_empty k grantedUsed)
  rw [testedOperations] at hcalls
  rw [ofCatalog, if_neg (Nat.succ_ne_zero depth)]
  simp only [hcalls]
  rfl

/-- With a depth of at least one the subject is the one with fresh trees. -/
theorem eq_fresh_of_ofCatalog_eq_ok {k : Catalog} {tested : ClassName} {depth : Nat}
    {grantedTested grantedUsed : Access} {c : Subject}
    (h : ofCatalog k tested depth grantedTested grantedUsed = .ok c) :
    ∃ below, depth = below + 1 ∧ c = fresh k tested below grantedTested grantedUsed := by
  cases depth with
  | zero => simp [ofCatalog] at h
  | succ below => exact ⟨below, rfl, Except.ok.inj (h.symm.trans (ofCatalog_succ ..))⟩

end Subject

end CallPlan

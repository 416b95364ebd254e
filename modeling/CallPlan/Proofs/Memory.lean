import CallPlan.Proofs.Sharing

/-!
# What the memory holds

The tree of a type is built from the trees of other keys: those of its component type and those of
the slots of its producers (`TreeKey.needed`). Budget and dimensions go down from a key to those
that it needs, however the types of a catalogue refer to each other (`TreeKey.wellFounded_needs`). A
computation **visits** keys if it leaves just what the memory held before and all that can be
reached from these keys. So after any requests the memory holds what can be reached from the
requested keys, and nothing else, while every answer is the same as without a memory
(`Sharing.session_eq_fresh`).
-/

namespace CallPlan

/-! ### Keys and the keys they need -/

namespace TreeKey

/-- The key of the component type, if a type has components that can be made. -/
def ofComponents (budget : Nat) : TypeExpr → List TreeKey
  | .array component => if component.leaf.isVoid then [] else [⟨component, .all, budget⟩]
  | _ => []

/-- The keys of an operation's slots: any value but `null` for the implicit argument, and any value
for a parameter. -/
def ofSlots (k : Catalog) (budget : Nat) (op : Operation) : List TreeKey :=
  ((k.implicit? op).toList.map fun i => ⟨i.type, .nonNull, budget⟩) ++
    op.parameters.map fun t => ⟨t, .all, budget⟩

/-- The keys of the slots of all producers, within a budget that a call takes one from. -/
def ofProducers (k : Catalog) (granted : Access) (type : TypeExpr) : Nat → List TreeKey
  | 0 => []
  | budget + 1 => (k.producers type granted).flatMap (ofSlots k budget)

/-- The keys of the trees that the tree of a key is built from. -/
def needed (k : Catalog) (granted : Access) (key : TreeKey) : List TreeKey :=
  ofComponents key.budget key.type ++ ofProducers k granted key.type key.budget

/-- The first key needs the second one. -/
def Needs (k : Catalog) (granted : Access) (key other : TreeKey) : Prop :=
  other ∈ key.needed k granted

theorem ofSlots_eq_map (k : Catalog) (budget : Nat) (op : Operation) :
    ofSlots k budget op =
      (Sharing.slotsOf op (k.implicit? op)).map fun slot => ⟨slot.1, slot.2, budget⟩ := by
  simp [ofSlots, Sharing.slotsOf, Function.comp_def]

/-- A needed key has a smaller budget, or the same budget and fewer dimensions. -/
theorem lex_of_needs {k : Catalog} {granted : Access} {key other : TreeKey}
    (h : Needs k granted key other) :
    Prod.Lex (· < ·) (· < ·) (other.budget, other.type.dimensions)
      (key.budget, key.type.dimensions) := by
  obtain ⟨type, demand, budget⟩ := key
  rcases List.mem_append.mp h with h | h
  · unfold ofComponents at h
    split at h
    · split at h
      · simp at h
      · rename_i component htype hleaf
        obtain rfl : type = .array component := htype
        obtain rfl := List.mem_singleton.mp h
        exact .right _ (Nat.lt_succ_self component.dimensions)
    · simp at h
  · cases budget with
    | zero => simp [ofProducers] at h
    | succ budget =>
      obtain ⟨op, -, hslot⟩ := List.mem_flatMap.mp h
      rw [ofSlots_eq_map] at hslot
      obtain ⟨slot, -, rfl⟩ := List.mem_map.mp hslot
      exact .left _ _ (Nat.lt_succ_self _)

/-- No key leads on forever. -/
theorem wellFounded_needs (k : Catalog) (granted : Access) :
    WellFounded fun other key => Needs k granted key other :=
  Subrelation.wf lex_of_needs
    (InvImage.wf (fun key : TreeKey => (key.budget, key.type.dimensions))
      (Prod.lex Nat.lt_wfRel Nat.lt_wfRel).wf)

end TreeKey

/-! ### Visited keys -/

/-- Besides a key the memory holds all keys that it needs. -/
def Memo.Closed (k : Catalog) (granted : Access) (memo : Memo) : Prop :=
  ∀ key ∈ memo, ∀ other, key.Needs k granted other → other ∈ memo

/-- A closed memory holds all keys that can be reached from one that it holds. -/
theorem Memo.Closed.mem_of_chain {k : Catalog} {granted : Access} {memo : Memo}
    (h : memo.Closed k granted) {key other : TreeKey} (hkey : key ∈ memo)
    (hchain : Relation.ReflTransGen (TreeKey.Needs k granted) key other) : other ∈ memo := by
  induction hchain with
  | refl => exact hkey
  | tail _ hneeds ih => exact h _ ih _ hneeds

/-- A key can be reached from one of the roots. -/
def TreeKey.Reached (k : Catalog) (granted : Access) (roots : List TreeKey) (key : TreeKey) :
    Prop :=
  ∃ root ∈ roots, Relation.ReflTransGen (TreeKey.Needs k granted) root key

namespace Sharing

variable {k : Catalog} {granted : Access} {α β : Type}

/-- On every closed memory, the computation adds the keys that can be reached from the roots and no
others. -/
def Visits (k : Catalog) (granted : Access) (x : Sharing α) (roots : List TreeKey) : Prop :=
  ∀ memo : Memo, memo.Closed k granted → ∀ key : TreeKey,
    key ∈ (x.run memo).2 ↔ key ∈ memo ∨ key.Reached k granted roots

/-- What is left is closed again. -/
theorem Visits.closed {x : Sharing α} {roots : List TreeKey} (h : Visits k granted x roots)
    {memo : Memo} (hmemo : memo.Closed k granted) : Memo.Closed k granted (x.run memo).2 := by
  intro key hkey other hneeds
  rcases (h memo hmemo key).mp hkey with hbefore | ⟨root, hroot, hchain⟩
  · exact (h memo hmemo other).mpr (.inl (hmemo key hbefore other hneeds))
  · exact (h memo hmemo other).mpr (.inr ⟨root, hroot, hchain.tail hneeds⟩)

theorem Visits.pure (a : α) : Visits k granted (pure a : Sharing α) [] := by
  intro memo _ key
  have hroots : ¬ key.Reached k granted [] := by simp [TreeKey.Reached]
  exact (or_iff_left hroots).symm

/-- Computations one after the other visit the roots of both. -/
theorem Visits.bind {x : Sharing α} {f : α → Sharing β} {roots more : List TreeKey}
    (hx : Visits k granted x roots) (hf : ∀ a, Visits k granted (f a) more) :
    Visits k granted (x >>= f) (roots ++ more) := by
  intro memo hmemo key
  have hrun : (x >>= f).run memo = (f (x.run memo).1).run (x.run memo).2 := rfl
  rw [hrun, hf _ _ (hx.closed hmemo), hx memo hmemo]
  simp only [TreeKey.Reached, List.mem_append, or_and_right, exists_or, or_assoc]

/-- What follows without asking for trees visits nothing more. -/
theorem Visits.bind_pure {x : Sharing α} {f : α → β} {roots : List TreeKey}
    (hx : Visits k granted x roots) :
    Visits k granted (x >>= fun a => Pure.pure (f a)) roots := by
  simpa using hx.bind fun a => Visits.pure (f a)

/-- Computations for several elements visit the roots of all of them. -/
theorem Visits.mapM {f : α → Sharing β} {roots : α → List TreeKey}
    (h : ∀ a, Visits k granted (f a) (roots a)) (as : List α) :
    Visits k granted (as.mapM f) (as.flatMap roots) := by
  induction as with
  | nil => exact .pure []
  | cons a as ih =>
    rw [List.mapM_cons, List.flatMap_cons]
    exact (h a).bind fun _ => ih.bind_pure

/-- A key that is remembered is visited, if building its tree visits the keys that it needs. -/
theorem Visits.remember {key : TreeKey} {build : Sharing PlanTree}
    (h : Visits k granted build (key.needed k granted)) :
    Visits k granted (remember key build) [key] := by
  intro memo hmemo other
  have hreached : other.Reached k granted [key] ↔
      key = other ∨ other.Reached k granted (key.needed k granted) := by
    simp only [TreeKey.Reached, List.mem_singleton, exists_eq_left]
    rw [Relation.ReflTransGen.cases_head_iff]
    rfl
  rw [run_remember]
  split
  · rename_i tree hfound
    -- a closed memory holds the key along with all that it leads to
    have hkey : key ∈ memo := Std.HashMap.mem_iff_isSome_getElem?.mpr (by simp_all)
    refine ⟨.inl, fun hother => hother.elim id ?_⟩
    rintro ⟨root, hroot, hchain⟩
    obtain rfl := List.mem_singleton.mp hroot
    exact hmemo.mem_of_chain hkey hchain
  · rw [Std.HashMap.mem_insert, h memo hmemo, hreached, beq_iff_eq, or_left_comm]

/-- The calls of an operation visit the keys of its slots. -/
theorem visits_calls {budget : Nat} {below : TypeExpr → Demand → Sharing PlanTree}
    (h : ∀ type demand, Visits k granted (below type demand) [⟨type, demand, budget⟩])
    (op : Operation) : Visits k granted (calls k below op) (TreeKey.ofSlots k budget op) := by
  have hslots := Visits.mapM (f := fun slot : TypeExpr × Demand => below slot.1 slot.2)
    (fun slot => h slot.1 slot.2) (slotsOf op (k.implicit? op))
  rw [← List.map_eq_flatMap, ← TreeKey.ofSlots_eq_map] at hslots
  exact hslots.bind_pure

/-- Building the tree of a type visits its key, if the alternatives that call an operation visit the
keys of the producers. -/
theorem visits_treeWith {budget : Nat} {called : TypeExpr → Sharing (List PlanTree)}
    (h : ∀ type, Visits k granted (called type) (TreeKey.ofProducers k granted type budget))
    (type : TypeExpr) (demand : Demand) :
    Visits k granted (treeWith budget called type demand) [⟨type, demand, budget⟩] := by
  induction type generalizing demand with
  | array component ih =>
    refine Visits.remember ?_
    rw [TreeKey.needed, TreeKey.ofComponents]
    by_cases hvoid : component.leaf.isVoid = true
    · simp only [hvoid, if_true]
      exact (Visits.pure []).bind fun _ => (h _).bind_pure
    · simp only [hvoid]
      exact (ih .all).bind fun _ => (Visits.pure _).bind fun _ => (h _).bind_pure
  | void | primitive p | named c => exact Visits.remember (h _).bind_pure

/-- The tree of a type visits its own key. -/
theorem visits_treeOf (budget : Nat) (type : TypeExpr) (demand : Demand) :
    Visits k granted (treeOf k granted budget type demand) [⟨type, demand, budget⟩] := by
  induction budget generalizing type demand with
  | zero => exact visits_treeWith (fun _ => .pure []) type demand
  | succ budget ih =>
    exact visits_treeWith (fun type => (Visits.mapM (visits_calls ih) _).bind_pure) type demand

/-! ### Sessions -/

/-- What a request is answered with. -/
inductive Answer where
  | tree (tree : PlanTree)
  | calls (calls : Except PlanError Calls)

/-- The answer to a request. -/
def Request.answer (k : Catalog) (granted : Access) : Request → Sharing Answer
  | tree type demand budget => do return .tree (← treeOf k granted budget type demand)
  | calls op budget => do return .calls (← (callsOf k granted op budget).run)

/-- The answer to a request without a memory. -/
def Request.freshAnswer (k : Catalog) (granted : Access) : Request → Answer
  | tree type demand budget => .tree (Fresh.tree k granted budget type demand)
  | calls op 0 => .calls (.error (.budgetSpent op))
  | calls op (budget + 1) => .calls (.ok (Fresh.calls k (Fresh.tree k granted budget) op))

/-- The keys that a request asks for. -/
def Request.keys (k : Catalog) : Request → List TreeKey
  | tree type demand budget => [⟨type, demand, budget⟩]
  | calls _ 0 => []
  | calls op (budget + 1) => TreeKey.ofSlots k budget op

/-- Every request is answered as it is without a memory. -/
theorem Request.yields_answer (request : Request) :
    Yields k granted (request.answer k granted) (request.freshAnswer k granted) := by
  cases request with
  | tree type demand budget => exact (yields_treeOf budget type demand).bind (.pure _)
  | calls op budget =>
    cases budget with
    | zero => exact .pure _
    | succ budget => exact (yields_callsOf budget op).bind (.pure _)

/-- The answer to a request visits the keys that it asks for. -/
theorem Request.visits_answer (request : Request) :
    Visits k granted (request.answer k granted) (request.keys k) := by
  cases request with
  | tree type demand budget => exact (visits_treeOf budget type demand).bind_pure
  | calls op budget =>
    cases budget with
    | zero => exact .pure _
    | succ budget =>
      have hcalls : Visits k granted (Sharing.calls k (treeOf k granted budget) op)
          (TreeKey.ofSlots k budget op) := visits_calls (visits_treeOf budget) op
      exact hcalls.bind_pure (f := Except.ok).bind_pure

/-- The answers to requests, one after the other. -/
def session (k : Catalog) (granted : Access) (requests : List Request) : Sharing (List Answer) :=
  requests.mapM (Request.answer k granted)

/-- **A session answers as if nothing was remembered**: every answer is the one that needs no
memory, and so the one that a new session would give. Afterwards the memory holds the keys that can
be reached from the requested ones, each with its fresh tree, and no others. No chain of keys that
need each other goes on forever. -/
theorem session_eq_fresh (k : Catalog) (granted : Access) (requests : List Request) :
    (((session k granted requests).run ∅).1 = requests.map (Request.freshAnswer k granted) ∧
      ∀ request ∈ requests,
        ((request.answer k granted).run ∅).1 = request.freshAnswer k granted) ∧
    (∀ key : TreeKey, key ∈ ((session k granted requests).run ∅).2 ↔
      key.Reached k granted (requests.flatMap (Request.keys k))) ∧
    (∀ key tree, ((session k granted requests).run ∅).2.get? key = some tree →
      tree = Fresh.tree k granted key.budget key.type key.demand) ∧
    WellFounded fun other key => TreeKey.Needs k granted key other := by
  obtain ⟨hanswers, hfaithful⟩ :=
    Yields.mapM Request.yields_answer requests ∅ (Memo.faithful_empty k granted)
  have hvisits := Visits.mapM (@Request.visits_answer k granted) requests
  refine ⟨⟨hanswers, fun request _ => ?_⟩, fun key => ?_, hfaithful,
    TreeKey.wellFounded_needs k granted⟩
  · exact (request.yields_answer ∅ (Memo.faithful_empty k granted)).1
  · have hempty : Memo.Closed k granted ∅ := fun key hkey => by simp at hkey
    exact (hvisits ∅ hempty key).trans (or_iff_right Std.HashMap.not_mem_empty)

end Sharing

end CallPlan

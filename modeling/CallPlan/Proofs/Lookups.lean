import CallPlan.Proofs.PlanTree
import Mathlib

/-!
# Looking up plans in any tree

A tree is **composed** if its inner nodes were made by `PlanTree.sum` and `PlanTree.product`, of any
children, slots and assemblies. In such a tree the check at the root is enough: an index below the
size of the root leads to indices below the sizes of all nodes that the lookup passes
(`PlanTree.Composed.inRange`), also where some of them are empty or have sizes that are cut off. So
a lookup fails beyond the size only, or else because an assembly refuses its parts.
-/

namespace CallPlan

/-! ### Lookups that are answered -/

/-- Whether parts that do not go together are the reason, and not an index that leads nowhere. -/
def PlanError.isInvalidArgument : PlanError → Bool
  | indexOutOfRange .. => false
  | _ => true

/-- A result or a refusal of the parts. -/
def Answered {α : Type} (answer : Except PlanError α) : Prop :=
  (∃ a, answer = .ok a) ∨ ∃ fault, answer = .error fault ∧ fault.isInvalidArgument = true

namespace Answered

variable {α β : Type}

theorem ok (a : α) : Answered (.ok a) := .inl ⟨a, rfl⟩

theorem error {fault : PlanError} (h : fault.isInvalidArgument = true) :
    Answered (.error fault : Except PlanError α) := .inr ⟨fault, rfl, h⟩

/-- A computation is answered if its parts are, one after the other. -/
theorem bind {answer : Except PlanError α} {f : α → Except PlanError β} (h : Answered answer)
    (hf : ∀ a, Answered (f a)) : Answered (answer >>= f) := by
  obtain ⟨a, rfl⟩ | ⟨fault, rfl, hfault⟩ := h
  · exact hf a
  · exact error hfault

/-- An answer tells no index. -/
theorem ne_indexOutOfRange {answer : Except PlanError α} (h : Answered answer) (index size : Nat) :
    answer ≠ .error (.indexOutOfRange index size) := by
  obtain ⟨a, rfl⟩ | ⟨fault, rfl, hfault⟩ := h
  · exact nofun
  · rintro ⟨⟩
    cases hfault

end Answered

/-- A call is made, or its parts are refused. -/
theorem Expression.answered_call? (op : Operation) (implicit : Option Expression)
    (arguments : List Expression) : Answered (call? op implicit arguments) := by
  unfold call?
  split_ifs
  · exact .error rfl
  · exact .error rfl
  · exact .error rfl
  · split
    · exact .error rfl
    · split
      · exact .error rfl
      · exact .ok _

/-- An array is filled, or its components are refused. -/
theorem Expression.answered_fill? (component : TypeExpr) (components : List Expression) :
    Answered (fill? component components) := by
  unfold fill?
  split
  · exact .error rfl
  · exact .ok _

/-- An assembly takes its parts or refuses them, however many there are. -/
theorem Assembly.answered_build? (a : Assembly) (plans : List Expression) :
    Answered (a.build? plans) := by
  cases a with
  | operation op implicit =>
    rw [build?_operation]
    exact Expression.answered_call? _ _ _
  | array component => exact Expression.answered_fill? component plans

namespace PlanTree

/-! ### Composed trees -/

/-- Trees whose inner nodes have the sizes that come of their children and slots. -/
inductive Composed : PlanTree → Prop
  | values (type : TypeExpr) (plans : List Expression) : Composed (.values type plans)
  | sum (type : TypeExpr) (budget : Nat) {children : List PlanTree}
      (h : ∀ tree ∈ children, Composed tree) : Composed (.sum type budget children)
  | product (assembly : Assembly) {slots : List PlanTree} (h : ∀ tree ∈ slots, Composed tree) :
      Composed (.product assembly slots)

/-- The lookup of an index **stays in range**: every node that it passes finds the child, the plan
for each slot or the listed plan that the index stands for. -/
inductive InRange : PlanTree → Nat → Prop
  | values {type : TypeExpr} {plans : List Expression} {index : Nat} (h : index < plans.length) :
      InRange (.values type plans) index
  | alternatives {type : TypeExpr} {budget size : Nat} {children : List PlanTree}
      {index child offset : Nat} {tree : PlanTree}
      (hlocate : (indexRanges children).locate index = .ok (child, offset))
      (htree : children[child]? = some tree) (h : InRange tree offset) :
      InRange (.alternatives type budget size children) index
  | combination {assembly : Assembly} {size : Nat} {slots : List PlanTree} {index : Nat}
      (hindex : index < size)
      (hslots : List.Forall₂ InRange slots (digitsOf index (slots.map PlanTree.size))) :
      InRange (.combination assembly size slots) index

/-- The choices for the slots of a product are below the sizes of the slots. -/
theorem forall₂_lt_size {slots : List PlanTree} {index : Nat}
    (h : index < productOf (slots.map size)) :
    List.Forall₂ (fun slot offset => slot ∈ slots ∧ offset < slot.size) slots
      (digitsOf index (slots.map size)) := by
  have hdigits := (digitsOf_lt index (pos_of_lt_productOf h)).flip
  rw [List.forall₂_map_left_iff] at hdigits
  rw [List.forall₂_and_left]
  exact ⟨fun slot hslot => hslot, hdigits⟩

namespace Composed

/-- **The check at the root is enough**: an index below the size leads out of range nowhere. -/
theorem inRange {t : PlanTree} (h : t.Composed) {index : Nat} (hindex : index < t.size) :
    t.InRange index := by
  induction h generalizing index with
  | values type plans => exact .values hindex
  | sum type budget _ ih =>
    obtain ⟨child, offset, tree, hlocate, htree, hoffset⟩ := exists_child hindex
    exact .alternatives hlocate htree (ih tree (List.mem_of_getElem? htree) hoffset)
  | product assembly _ ih =>
    refine .combination hindex ((forall₂_lt_size hindex).imp ?_)
    exact fun slot offset hslot => ih slot hslot.1 hslot.2

end Composed

/-- A lookup in several slots is answered if that in each of them is. -/
theorem answered_getAll {slots : List PlanTree} {indices : List Nat}
    (h : List.Forall₂ (fun slot index => Answered (slot.get index)) slots indices) :
    Answered (getAll slots indices) := by
  induction h with
  | nil => exact .ok []
  | cons hslot _ ih =>
    rw [getAll]
    exact hslot.bind fun plan => ih.bind fun plans => .ok (plan :: plans)

namespace Composed

/-- Below the size a lookup fails only if an assembly refuses its parts. -/
theorem answered_get {t : PlanTree} (h : t.Composed) {index : Nat} (hindex : index < t.size) :
    Answered (t.get index) := by
  induction h generalizing index with
  | values type plans =>
    rw [get, List.getElem?_eq_getElem hindex]
    exact .ok _
  | sum type budget _ ih =>
    obtain ⟨child, offset, tree, hlocate, htree, hoffset⟩ := exists_child hindex
    rw [get_sum hlocate htree]
    exact ih tree (List.mem_of_getElem? htree) hoffset
  | product assembly _ ih =>
    rw [get_product hindex]
    refine (answered_getAll ((forall₂_lt_size hindex).imp ?_)).bind assembly.answered_build?
    exact fun slot offset hslot => ih slot hslot.1 hslot.2

/-- Beyond the size a lookup fails with the index and the size of the root. -/
theorem get_of_size_le {t : PlanTree} (h : t.Composed) {index : Nat} (hindex : t.size ≤ index) :
    t.get index = .error (.indexOutOfRange index t.size) := by
  cases h with
  | values type plans =>
    rw [get, List.getElem?_eq_none hindex]
    rfl
  | @sum type budget children _ =>
    rw [PlanTree.sum, get, (indexRanges children).locate_of_size_le hindex]
    rfl
  | product assembly _ =>
    rw [PlanTree.product, get]
    exact if_neg (Nat.not_lt.mpr hindex)

/-- **Only the root reports an index.** In every composed tree a lookup is out of range exactly at
and beyond the size, and reports the index asked for and the size of the whole tree. Below the size
all lookups inside stay in range, and there is a plan, or an assembly refuses its parts. -/
theorem get_eq_indexOutOfRange_iff {t : PlanTree} (h : t.Composed) (index : Nat) :
    (∀ i n, t.get index = .error (.indexOutOfRange i n) ↔
      t.size ≤ index ∧ i = index ∧ n = t.size) ∧
    (index < t.size →
      t.InRange index ∧
      ((∃ e, t.get index = .ok e) ∨
        ∃ fault, t.get index = .error fault ∧ fault.isInvalidArgument = true)) := by
  refine ⟨fun i n => ?_, fun hindex => ⟨h.inRange hindex, h.answered_get hindex⟩⟩
  constructor
  · intro hget
    have hsize : t.size ≤ index := by
      by_contra hindex
      exact (h.answered_get (Nat.not_le.mp hindex)).ne_indexOutOfRange i n hget
    rw [h.get_of_size_le hsize] at hget
    cases hget
    exact ⟨hsize, rfl, rfl⟩
  · rintro ⟨hsize, rfl, rfl⟩
    exact h.get_of_size_le hsize

end Composed

/-! ### A tree that cannot be counted -/

namespace Flags

/-- The type of the plans. -/
def type : TypeExpr := .array (.primitive .boolean)

/-- A number where truth values are wanted. -/
def misfit : PlanTree :=
  product (.array (.primitive .boolean)) [values (.primitive .int) [.literal (.int 0)]]

/-- The arrays of 64 truth values: one more than the largest number. -/
def words : PlanTree :=
  product (.array (.primitive .boolean))
    (List.replicate 64
      (values (.primitive .boolean) [.literal (.boolean true), .literal (.boolean false)]))

/-- No plan, a plan that is refused, all words, and a plan that no index is left for. -/
def tree : PlanTree :=
  sum type 0 [values type [], misfit, words, values type [.array (.primitive .boolean) []]]

theorem composed_tree : tree.Composed := by
  refine .sum type 0 fun child hchild => ?_
  simp only [List.mem_cons, List.not_mem_nil, or_false] at hchild
  obtain rfl | rfl | rfl | rfl := hchild
  · exact .values ..
  · exact .product _ fun slot hslot => List.mem_singleton.mp hslot ▸ .values ..
  · exact .product _ fun slot hslot => List.eq_of_mem_replicate hslot ▸ .values ..
  · exact .values ..

theorem size_words : words.size = maxCount := by
  rw [words, size_product, productOf_eq_clamp_prod, List.map_replicate, List.prod_replicate]
  rfl

theorem size_tree : tree.size = maxCount := by
  rw [tree, size_sum, IndexRanges.size_eq_clamp_sum]
  simp only [indexRanges, List.map_cons, List.map_nil, size_words]
  rfl

/-- The first index leads to the number, which does not fit. -/
theorem get_tree_zero :
    tree.get 0 =
      .error (.componentType 0 type (.primitive .int) (.primitive .boolean)) := by
  have hlocate : (indexRanges [values type [], misfit, words,
      values type [.array (.primitive .boolean) []]]).locate 0 = .ok (1, 0) := by
    rw [IndexRanges.locate_eq_ok_iff]
    simp only [indexRanges, List.map_cons, List.map_nil, size_words]
    decide
  rw [tree, get_sum hlocate rfl]
  rfl

/-- The last index is in range through sizes that are cut off and the one behind it is not. The plan
at the first index is refused. -/
theorem get_eq_indexOutOfRange_iff_tree :
    tree.Composed ∧ tree.size = maxCount ∧
      tree.get maxCount = .error (.indexOutOfRange maxCount maxCount) ∧
      maxCount - 1 < tree.size ∧ tree.InRange (maxCount - 1) ∧
      ∃ fault, tree.get 0 = .error fault ∧ fault.isInvalidArgument = true := by
  have hlast : maxCount - 1 < tree.size := by
    rw [size_tree]
    decide
  have hbeyond := (composed_tree.get_eq_indexOutOfRange_iff maxCount).1 maxCount maxCount
  have hinside := (composed_tree.get_eq_indexOutOfRange_iff (maxCount - 1)).2 hlast
  have hfirst := (composed_tree.get_eq_indexOutOfRange_iff 0).2 (Nat.zero_lt_of_lt hlast)
  refine ⟨composed_tree, size_tree, hbeyond.mpr ⟨size_tree.le, rfl, size_tree.symm⟩, hlast,
    hinside.1, hfirst.2.resolve_left ?_⟩
  rintro ⟨e, he⟩
  rw [get_tree_zero] at he
  cases he

end Flags

end PlanTree

end CallPlan

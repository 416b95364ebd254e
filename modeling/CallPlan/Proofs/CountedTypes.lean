import CallPlan.Proofs.TypeReading

/-!
# Types in counted form

An array type can also be given by an element and a number of dimensions. In this counted form one
type may be written in several ways, because an element can be an array itself and a number can be
zero. The forms in which neither is the case are the normal ones.

Reading, putting dimensions on and taking them off lead to normal forms only, and to no more
dimensions than were put on (`CountedType.Obtained.isNormal_and_le`). Among normal forms, taking a
type apart into its leaf and its dimensions undoes putting it together, and is undone by it. So each
type has one normal form, and what is done to the one corresponds to what is done to the other
(`CountedType.isNormal_and_withDimensions_decompose`).
-/

namespace CallPlan

/-- A type in **counted form**. The dimensions of an array type are counted, not nested. -/
inductive CountedType where
  | void
  | primitive (p : Primitive)
  | named (c : ClassName)
  | array (element : CountedType) (dimensions : Nat)

namespace CountedType

def isArray : CountedType → Bool
  | array .. => true
  | _ => false

/-- A form is **normal** if it counts all dimensions, and counts one at least if it is an array. -/
def IsNormal : CountedType → Prop
  | array element dimensions => element.isArray = false ∧ 1 ≤ dimensions
  | _ => True

/-! ### Putting dimensions on -/

/-- The array type whose components have the given type. -/
def arrayOf : CountedType → CountedType
  | array element dimensions => array element (dimensions + 1)
  | leaf => array leaf 1

/-- The type with that many dimensions put on, one after the other. -/
def withDimensions (t : CountedType) : Nat → CountedType
  | 0 => t
  | n + 1 => (t.withDimensions n).arrayOf

/-- Reads the name of a type. -/
def parse (text : String) : Except MalformedName CountedType :=
  if TypeExpr.stem text = "void" then
    if TypeExpr.bracketPairs text = 0 then .ok .void else .error ⟨text, .arrayOfVoid⟩
  else match Primitive.ofKeyword? (TypeExpr.stem text) with
    | some p => .ok ((primitive p).withDimensions (TypeExpr.bracketPairs text))
    | none => (ClassName.parse (TypeExpr.stem text)).map fun c =>
      (named c).withDimensions (TypeExpr.bracketPairs text)

/-! ### Taking dimensions off -/

/-- The type with one dimension taken off, unless it is no array. An array with a single dimension
has its elements for components, and so has one that counts no dimension. -/
def component? : CountedType → Option CountedType
  | array element (n + 2) => some (array element (n + 1))
  | array element _ => some element
  | _ => none

/-- What taking a dimension off makes smaller. -/
def weight : CountedType → Nat
  | array element dimensions => element.weight + dimensions + 1
  | _ => 0

/-- Components are smaller, so taking dimensions off comes to an end. -/
theorem weight_lt_of_component? {t c : CountedType} (h : t.component? = some c) :
    c.weight < t.weight := by
  cases t with
  | void | primitive p | named c => cases h
  | array element dimensions =>
    match dimensions with
    | 0 | 1 =>
      obtain rfl := Option.some.inj h
      simp only [weight]
      omega
    | n + 2 =>
      obtain rfl := Option.some.inj h
      simp only [weight]
      omega

/-- Takes dimensions off until there is no array any more, and goes on counting them. -/
def strip (t : CountedType) (taken : Nat) : CountedType × Nat :=
  match h : t.component? with
  | some component => component.strip (taken + 1)
  | none => (t, taken)
termination_by t.weight
decreasing_by exact weight_lt_of_component? h

/-- The leaf of a type and the number of its dimensions. -/
def decompose (t : CountedType) : CountedType × Nat := t.strip 0

/-- The type of the components, put together of the leaf and all dimensions but one. -/
def componentFromLeaf? (t : CountedType) : Option CountedType :=
  match t.decompose with
  | (_, 0) => none
  | (leaf, n + 1) => some (leaf.withDimensions n)

variable {t leaf : CountedType}

/-! ### Normal forms -/

theorem isNormal_of_isArray_eq_false (h : t.isArray = false) : t.IsNormal := by
  cases t with
  | void | primitive p | named c => trivial
  | array element dimensions => cases h

theorem IsNormal.arrayOf (h : t.IsNormal) : t.arrayOf.IsNormal := by
  cases t with
  | void | primitive p | named c => exact ⟨rfl, le_rfl⟩
  | array element dimensions => exact ⟨h.1, Nat.le_add_left 1 dimensions⟩

/-- What is no array can have any number of dimensions put on and is normal. -/
theorem isNormal_withDimensions (h : leaf.isArray = false) (n : Nat) :
    (leaf.withDimensions n).IsNormal := by
  induction n with
  | zero => exact isNormal_of_isArray_eq_false h
  | succ n ih => exact ih.arrayOf

/-- The dimensions of a leaf are counted, not nested. -/
theorem withDimensions_succ (h : leaf.isArray = false) (n : Nat) :
    leaf.withDimensions (n + 1) = array leaf (n + 1) := by
  induction n with
  | zero =>
    cases leaf with
    | void | primitive p | named c => rfl
    | array element dimensions => cases h
  | succ n ih => rw [CountedType.withDimensions, ih, CountedType.arrayOf]

/-- The normal forms are put together of a leaf and a number of dimensions. -/
theorem isNormal_iff :
    t.IsNormal ↔
      ∃ (leaf : CountedType) (n : Nat), leaf.isArray = false ∧ t = leaf.withDimensions n := by
  constructor
  · intro h
    cases t with
    | void | primitive p | named c => exact ⟨_, 0, rfl, rfl⟩
    | array element dimensions =>
      obtain ⟨hleaf, hpos⟩ := h
      obtain ⟨n, rfl⟩ := Nat.exists_eq_add_of_le' hpos
      exact ⟨element, n + 1, hleaf, (withDimensions_succ hleaf n).symm⟩
  · rintro ⟨leaf, n, hleaf, rfl⟩
    exact isNormal_withDimensions hleaf n

theorem component?_eq_none_iff : t.component? = none ↔ t.isArray = false := by
  cases t with
  | void | primitive p | named c => simp [component?, isArray]
  | array element dimensions =>
    match dimensions with
    | 0 | 1 | n + 2 => simp [component?, isArray]

/-- A dimension that was put on can be taken off again. -/
theorem IsNormal.component?_arrayOf (h : t.IsNormal) : t.arrayOf.component? = some t := by
  cases t with
  | void | primitive p | named c => rfl
  | array element dimensions =>
    obtain ⟨n, rfl⟩ := Nat.exists_eq_add_of_le' h.2
    rfl

/-- The dimension that was put on last is taken off first. -/
theorem component?_withDimensions_succ (h : leaf.isArray = false) (n : Nat) :
    (leaf.withDimensions (n + 1)).component? = some (leaf.withDimensions n) :=
  (isNormal_withDimensions h n).component?_arrayOf

/-! ### Leaf and dimensions -/

theorem strip_of_isArray_eq_false (h : t.isArray = false) (taken : Nat) :
    t.strip taken = (t, taken) := by
  rw [strip]
  split
  · rename_i hc
    rw [component?_eq_none_iff.mpr h] at hc
    cases hc
  · rfl

theorem strip_of_component? {c : CountedType} (h : t.component? = some c) (taken : Nat) :
    t.strip taken = c.strip (taken + 1) := by
  rw [strip]
  split
  · rename_i hc
    rw [Option.some.inj (h.symm.trans hc)]
  · rename_i hc
    rw [h] at hc
    cases hc

/-- The dimensions that were put on a leaf are taken off, and no others. -/
theorem strip_withDimensions (h : leaf.isArray = false) (n taken : Nat) :
    (leaf.withDimensions n).strip taken = (leaf, taken + n) := by
  induction n generalizing taken with
  | zero => exact strip_of_isArray_eq_false h taken
  | succ n ih =>
    rw [strip_of_component? (component?_withDimensions_succ h n), ih, Nat.add_assoc, Nat.add_comm 1]

/-- A leaf and a number of dimensions are found again in what they make. -/
theorem decompose_withDimensions (h : leaf.isArray = false) (n : Nat) :
    (leaf.withDimensions n).decompose = (leaf, n) := by
  rw [decompose, strip_withDimensions h, Nat.zero_add]

/-- Whatever the form, nothing is left to take off from the leaf. -/
theorem isArray_fst_strip (t : CountedType) (taken : Nat) : (t.strip taken).1.isArray = false := by
  fun_induction strip t taken with
  | case1 t taken component h ih => exact ih
  | case2 t taken h => exact component?_eq_none_iff.mp h

namespace IsNormal

/-- Taking a type apart is undone by putting it together again. -/
theorem withDimensions_decompose (h : t.IsNormal) :
    t.decompose.1.withDimensions t.decompose.2 = t := by
  obtain ⟨leaf, n, hleaf, rfl⟩ := isNormal_iff.mp h
  rw [decompose_withDimensions hleaf]

/-- Both ways to the type of the components lead to the same one. -/
theorem componentFromLeaf?_eq (h : t.IsNormal) : t.componentFromLeaf? = t.component? := by
  obtain ⟨leaf, n, hleaf, rfl⟩ := isNormal_iff.mp h
  rw [componentFromLeaf?, decompose_withDimensions hleaf]
  cases n with
  | zero => exact (component?_eq_none_iff.mpr hleaf).symm
  | succ n => exact (component?_withDimensions_succ hleaf n).symm

end IsNormal

/-! ### What is obtained -/

/-- A type that is **obtained** by reading, by putting dimensions on and by taking them off, one
after the other and in any order. Altogether `added` dimensions are put on. -/
inductive Obtained : (added : Nat) → CountedType → Prop
  | void : Obtained 0 .void
  | primitive (p : Primitive) : Obtained 0 (.primitive p)
  | named (c : ClassName) : Obtained 0 (.named c)
  | parse {text : String} {t : CountedType} (read : parse text = .ok t) :
    Obtained (TypeExpr.bracketPairs text) t
  | arrayOf {added : Nat} {t : CountedType} (component : Obtained added t) :
    Obtained (added + 1) t.arrayOf
  | withDimensions {added : Nat} {t : CountedType} (inner : Obtained added t) (n : Nat) :
    Obtained (added + n) (t.withDimensions n)
  | component? {added : Nat} {t c : CountedType} (array : Obtained added t)
    (component : t.component? = some c) : Obtained added c

theorem withDimensions_withDimensions (t : CountedType) (m n : Nat) :
    (t.withDimensions m).withDimensions n = t.withDimensions (m + n) := by
  induction n with
  | zero => rfl
  | succ n ih => rw [withDimensions, ih, ← Nat.add_assoc, withDimensions]

/-- Reading puts a dimension on for every bracket pair. -/
theorem exists_eq_withDimensions_of_parse {text : String} (h : parse text = .ok t) :
    ∃ leaf : CountedType, leaf.isArray = false ∧
      t = leaf.withDimensions (TypeExpr.bracketPairs text) := by
  unfold parse at h
  split_ifs at h with hvoid hpairs
  · obtain rfl := Except.ok.inj h
    exact ⟨.void, rfl, by rw [hpairs, withDimensions]⟩
  · split at h
    · obtain rfl := Except.ok.inj h
      exact ⟨_, rfl, rfl⟩
    · cases hc : ClassName.parse (TypeExpr.stem text) with
      | error fault =>
        rw [hc] at h
        cases h
      | ok c =>
        rw [hc] at h
        obtain rfl := Except.ok.inj h
        exact ⟨_, rfl, rfl⟩

/-- What is obtained is a leaf with dimensions put on, and these are no more than were added. -/
theorem Obtained.exists_eq_withDimensions {added : Nat} (h : Obtained added t) :
    ∃ (leaf : CountedType) (n : Nat), leaf.isArray = false ∧ n ≤ added ∧
      t = leaf.withDimensions n := by
  induction h with
  | void | primitive p | named c => exact ⟨_, 0, rfl, le_rfl, rfl⟩
  | parse read =>
    obtain ⟨leaf, hleaf, rfl⟩ := exists_eq_withDimensions_of_parse read
    exact ⟨leaf, _, hleaf, le_rfl, rfl⟩
  | arrayOf _ ih =>
    obtain ⟨leaf, m, hleaf, hle, rfl⟩ := ih
    exact ⟨leaf, m + 1, hleaf, Nat.succ_le_succ hle, rfl⟩
  | withDimensions _ n ih =>
    obtain ⟨leaf, m, hleaf, hle, rfl⟩ := ih
    exact ⟨leaf, m + n, hleaf, Nat.add_le_add_right hle n, withDimensions_withDimensions leaf m n⟩
  | component? _ hcomponent ih =>
    obtain ⟨leaf, m, hleaf, hle, rfl⟩ := ih
    cases m with
    | zero =>
      rw [CountedType.withDimensions, component?_eq_none_iff.mpr hleaf] at hcomponent
      cases hcomponent
    | succ m =>
      rw [component?_withDimensions_succ hleaf] at hcomponent
      exact ⟨leaf, m, hleaf, Nat.le_of_succ_le hle, (Option.some.inj hcomponent).symm⟩

/-- Only normal forms are obtained, and no dimension comes from nowhere. -/
theorem Obtained.isNormal_and_le {added : Nat} (h : Obtained added t) :
    t.IsNormal ∧ t.decompose.2 ≤ added := by
  obtain ⟨leaf, n, hleaf, hle, rfl⟩ := h.exists_eq_withDimensions
  rw [decompose_withDimensions hleaf]
  exact ⟨isNormal_withDimensions hleaf n, hle⟩

end CountedType

/-! ### The normal form of a type -/

namespace TypeExpr

/-- The type in counted form. -/
def counted : TypeExpr → CountedType
  | void => .void
  | primitive p => .primitive p
  | named c => .named c
  | array component => component.counted.arrayOf

variable {t : TypeExpr}

theorem isNormal_counted (t : TypeExpr) : t.counted.IsNormal := by
  induction t with
  | void | primitive p | named c => trivial
  | array component ih => exact ih.arrayOf

theorem isArray_counted (h : t.isArray = false) : t.counted.isArray = false := by
  cases t with
  | void | primitive p | named c => rfl
  | array component => cases h

theorem counted_ofLeaf (t : TypeExpr) (n : Nat) :
    (ofLeaf t n).counted = t.counted.withDimensions n := by
  induction n with
  | zero => rfl
  | succ n ih => rw [ofLeaf, counted, ih, CountedType.withDimensions]

/-- The component of a counted form is the counted form of the component. -/
theorem component?_counted (t : TypeExpr) :
    t.counted.component? = t.component?.map counted := by
  cases t with
  | void | primitive p | named c => rfl
  | array component => exact component.isNormal_counted.component?_arrayOf

/-- A counted form is decomposed into the leaf of its type and the number of dimensions. -/
theorem decompose_counted (t : TypeExpr) :
    t.counted.decompose = (t.leaf.counted, t.dimensions) := by
  conv_lhs => rw [← ofLeaf_leaf_dimensions t, counted_ofLeaf]
  exact CountedType.decompose_withDimensions (isArray_counted t.isArray_leaf) t.dimensions

end TypeExpr

namespace CountedType

/-- What is read in counted form is the counted form of what is read. -/
theorem parse_eq_map_counted (text : String) :
    parse text = (TypeExpr.parse text).map TypeExpr.counted := by
  rw [parse, TypeExpr.parse_eq]
  split_ifs
  · rfl
  · rfl
  · cases Primitive.ofKeyword? (TypeExpr.stem text) with
    | some p => exact congrArg Except.ok (TypeExpr.counted_ofLeaf (.primitive p) _).symm
    | none =>
      cases ClassName.parse (TypeExpr.stem text) with
      | error fault => rfl
      | ok c => exact congrArg Except.ok (TypeExpr.counted_ofLeaf (.named c) _).symm

/-- The type that a form stands for. -/
def expand : CountedType → TypeExpr
  | void => .void
  | primitive p => .primitive p
  | named c => .named c
  | array element dimensions => .ofLeaf element.expand dimensions

theorem expand_arrayOf (t : CountedType) : t.arrayOf.expand = .array t.expand := by
  cases t <;> rfl

/-- The counted form of a type stands for that type. -/
theorem expand_counted (t : TypeExpr) : t.counted.expand = t := by
  induction t with
  | void | primitive p | named c => rfl
  | array component ih => rw [TypeExpr.counted, expand_arrayOf, ih]

theorem expand_withDimensions (t : CountedType) (n : Nat) :
    (t.withDimensions n).expand = .ofLeaf t.expand n := by
  induction n with
  | zero => rfl
  | succ n ih => rw [withDimensions, expand_arrayOf, ih, TypeExpr.ofLeaf]

/-- A normal form is the counted form of what it stands for. -/
theorem counted_expand {t : CountedType} (h : t.IsNormal) : t.expand.counted = t := by
  obtain ⟨leaf, n, hleaf, rfl⟩ := isNormal_iff.mp h
  have hsame : leaf.expand.counted = leaf := by
    cases leaf with
    | void | primitive p | named c => rfl
    | array element dimensions => cases hleaf
  rw [expand_withDimensions, TypeExpr.counted_ofLeaf, hsame]

/-- Every type has one normal form, and every normal form is that of a type. -/
theorem bijOn_counted : Set.BijOn TypeExpr.counted Set.univ {t | t.IsNormal} := by
  have hinverse : Set.InvOn expand TypeExpr.counted Set.univ {t | t.IsNormal} :=
    ⟨fun t _ => expand_counted t, fun t ht => counted_expand ht⟩
  exact hinverse.bijOn (fun t _ => t.isNormal_counted) fun t _ => Set.mem_univ _

/-- Other forms are taken apart like the normal form of the same type. -/
example : (array (array (primitive .int) 1) 1).decompose = (primitive .int, 2) := by cbv

end CountedType

end CallPlan

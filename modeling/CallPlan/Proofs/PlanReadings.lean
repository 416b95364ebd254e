import CallPlan.Proofs.Blocks
import CallPlan.Proofs.Legibility
import CallPlan.Proofs.Subtyping

/-!
# What plans read

Plans can be read if their classes and methods can be named (`IsPlan.suits`). What a plan reads does
not say which of several methods of the same name it calls. So different plans may read the same,
but only if two operations can be called in the same words on the same arguments
(`IsPlan.eq_of_reading_eq`).
-/

namespace CallPlan

namespace Catalog

/-! ### Catalogues whose names can be written -/

/-- All operations of the catalogue. -/
def operations (k : Catalog) : List Operation := k.entries.flatMap Entry.operations

/-- The classes that are described or are the type of a parameter, or of its components. -/
def Mentions (k : Catalog) (c : ClassName) : Prop :=
  c ∈ k.entries.map Entry.name ∨ ∃ op ∈ k.operations, ∃ t ∈ op.parameters, t.leaf = .named c

/-- Operations differ in declaring class, name and parameters, classes can be named by tests of
`tested`, and methods have identifiers for names. -/
structure IsWritable (k : Catalog) (tested : ClassName) : Prop where
  distinct : (k.operations.map fun op => (op.owner, op.name, op.parameters)).Nodup
  classes : ∀ c, k.Mentions c → k.Names tested c
  methods : ∀ op ∈ k.operations, op.isConstructor = false →
    Text.isIdentifier op.name.toList = true

variable {k : Catalog} {tested : ClassName} {op op' : Operation}

theorem mem_operations_iff : op ∈ k.operations ↔ ∃ e ∈ k.entries, op ∈ e.operations :=
  List.mem_flatMap

theorem mentions_owner (h : op ∈ k.operations) : k.Mentions op.owner := by
  obtain ⟨e, he, hop⟩ := mem_operations_iff.mp h
  exact .inl (List.mem_map.mpr ⟨e, he, ((k.wellFormed e he).2 op hop).symm⟩)

namespace IsWritable

variable (h : k.IsWritable tested)

include h

theorem names_owner (hop : op ∈ k.operations) : k.Names tested op.owner :=
  h.classes _ (mentions_owner hop)

theorem isMember_owner (hop : op ∈ k.operations) : op.owner.isMember = false :=
  (h.names_owner hop).ordinary.topLevel

theorem isWord_name (hop : op ∈ k.operations) (hmethod : op.isConstructor = false) :
    Text.IsWord op.name.toList :=
  Text.isWord_of_isIdentifier (h.methods op hop hmethod)

theorem nodup_operations : ∀ e ∈ k.entries, e.operations.Nodup :=
  (List.nodup_flatMap.mp h.distinct.of_map).1

/-- The class of the slot of an operation can be named. -/
theorem knows_of_mem_slotTypes (hop : op ∈ k.operations) {t : TypeExpr}
    (ht : t ∈ Block.slotTypes op (k.implicit? op)) : t.Knows (k.Names tested) := by
  rcases List.mem_append.mp ht with ht | ht
  · obtain ⟨i, hi, rfl⟩ := List.mem_map.mp ht
    have himplicit := k.implicit?_eq (h.isMember_owner hop)
    rw [Option.mem_toList.mp hi] at himplicit
    split at himplicit
    · obtain rfl := Option.some.inj himplicit
      rintro c ⟨⟩
      exact h.names_owner hop
    · cases himplicit
  · exact fun c hc => h.classes c (.inr ⟨op, hop, t, ht, hc⟩)

/-- What is called and the types of the slots tell an operation. -/
theorem eq_of_callee_eq (hop : op ∈ k.operations) (hop' : op' ∈ k.operations)
    (howner : op.owner = op'.owner) (hcallee : op.callee = op'.callee)
    (htypes : Block.slotTypes op (k.implicit? op) = Block.slotTypes op' (k.implicit? op')) :
    op = op' := by
  have himplicit : k.implicit? op = k.implicit? op' := by
    rw [k.implicit?_eq (h.isMember_owner hop), k.implicit?_eq (h.isMember_owner hop'), hcallee,
      howner]
  have hparameters : op.parameters = op'.parameters := by
    rw [Block.slotTypes, Block.slotTypes, himplicit] at htypes
    exact List.append_cancel_left htypes
  have hname : op.name = op'.name := by rw [← op.name_callee, hcallee, op'.name_callee]
  exact List.inj_on_of_nodup_map h.distinct hop hop' (by rw [howner, hname, hparameters])

end IsWritable

end Catalog

/-! ### Plans can be read -/

namespace Reading

/-- The reading is that of a plan for the type: it can be read, and methods can be called on it if
`null` is not wanted. -/
structure Suits (known : ClassName → Prop) (type : TypeExpr) (demand : Demand) (x : Reading) :
    Prop where
  legible : x.Legible known
  isInstance : demand = .nonNull → ∀ c, type = .named c → x.IsInstance

theorem suits_of_mem_valueSeeds {known : ClassName → Prop} {type : TypeExpr} {demand : Demand}
    {e : Expression} (htype : type.Knows known) (h : e ∈ type.valueSeeds) :
    e.reading.Suits known type demand := by
  cases type with
  | void => cases h
  | primitive p =>
    obtain ⟨l, hl, rfl⟩ := List.mem_map.mp h
    have hconstant : l ∈ Literal.constants :=
      List.mem_append_left _ (List.mem_flatMap.mpr ⟨p, p.mem_all, hl⟩)
    rw [Expression.reading]
    exact ⟨.constant hconstant, fun _ c hc => by cases hc⟩
  | named c =>
    rw [TypeExpr.valueSeeds] at h
    split_ifs at h
    · have hstring {t : String} (ht : t = "" ∨ t = "hallo") :
          (Reading.literal (.string t)).Suits known (.named c) demand :=
        ⟨.constant (by rcases ht with rfl | rfl <;> simp [Literal.constants]), fun _ _ _ => trivial⟩
      rcases List.mem_pair.mp h with rfl | rfl
      · exact hstring (.inl rfl)
      · exact hstring (.inr rfl)
    · cases h
  | array component =>
    rw [TypeExpr.valueSeeds] at h
    split_ifs at h
    · cases h
    · rw [List.mem_singleton.mp h, Expression.reading, Expression.readings]
      exact ⟨.array htype (List.forall_mem_nil _), fun _ c hc => by cases hc⟩

/-- A seed suits its type: it can be read, and is `null` only where that may be given. -/
theorem suits_of_mem_seeds {known : ClassName → Prop} {type : TypeExpr} {demand : Demand}
    {e : Expression} (htype : type.Knows known) (h : e ∈ type.seeds demand) :
    e.reading.Suits known type demand := by
  rcases List.mem_append.mp h with h | h
  · exact suits_of_mem_valueSeeds htype h
  · split_ifs at h with hall
    · obtain ⟨hreference, rfl⟩ := TypeExpr.mem_nullSeed h
      rw [Expression.reading]
      exact ⟨.null htype, fun hdemand => by rw [hall] at hdemand; cases hdemand⟩
    · cases h

end Reading

section

variable {k : Catalog} {tested : ClassName} {granted : Access} {budget : Nat}

/-- The reading of a call on plans for the slots of an operation. -/
theorem Catalog.IsWritable.reading_callOn (hk : k.IsWritable tested) {op : Operation}
    (hop : op ∈ k.operations) {P : TypeExpr × Demand → Expression → Prop} {plans : List Expression}
    (hplans : List.Forall₂ P (Sharing.slotsOf op (k.implicit? op)) plans) :
    (Assembly.callOn op (k.implicit? op) plans).reading =
      op.callee.reading (plans.map Expression.reading) := by
  refine k.reading_callOn (hk.isMember_owner hop) ?_
  rintro hsome rfl
  obtain ⟨i, hi⟩ := Option.isSome_iff_exists.mp hsome
  rw [hi] at hplans
  cases hplans

/-- The call of an operation on plans for its slots can be read, and methods can be called on it. -/
theorem Catalog.IsWritable.legible_callOn (hk : k.IsWritable tested) {op : Operation}
    (hop : op ∈ k.operations) {plans : List Expression}
    (hplans : List.Forall₂ (fun slot e => e.reading.Suits (k.Names tested) slot.1 slot.2)
      (Sharing.slotsOf op (k.implicit? op)) plans) :
    (Assembly.callOn op (k.implicit? op) plans).reading.Legible (k.Names tested) ∧
      (Assembly.callOn op (k.implicit? op) plans).reading.IsInstance := by
  have howner := hk.names_owner hop
  have hlegible : ∀ x ∈ plans.map Expression.reading, x.Legible (k.Names tested) :=
    List.forall_mem_map.mpr (forall_mem_of_forall₂ (hplans.imp fun _ _ h => h.legible))
  have himplicit := k.implicit?_eq (hk.isMember_owner hop)
  rw [hk.reading_callOn hop hplans]
  rcases op.callee_cases with ⟨-, hcallee⟩ | ⟨hmethod, -, hcallee⟩ | ⟨hmethod, -, hcallee⟩
  · rw [hcallee]
    exact ⟨.construct howner hlegible, trivial⟩
  · rw [hcallee]
    exact ⟨.static howner (hk.isWord_name hop hmethod) hlegible, trivial⟩
  · rw [hcallee] at himplicit ⊢
    -- the first slot is that of the receiver
    rw [himplicit] at hplans
    obtain ⟨receiver, arguments, hreceiver, -, rfl⟩ := List.forall₂_cons_left_iff.mp hplans
    rw [List.map_cons, List.forall_mem_cons] at hlegible
    exact ⟨.member hlegible.1 (hreceiver.isInstance rfl _ rfl) (hk.isWord_name hop hmethod)
      hlegible.2, trivial⟩

/-- Producers are operations of the catalogue. -/
theorem Catalog.mem_operations_of_mem_producers {type : TypeExpr} {op : Operation}
    (h : op ∈ k.producers type granted) : op ∈ k.operations := by
  obtain ⟨e, he, hop, -⟩ := k.mem_producers_iff.mp h
  exact mem_operations_iff.mpr ⟨e, he, hop⟩

theorem Sharing.map_fst_slotsOf (op : Operation) (implicit : Option Implicit) :
    (slotsOf op implicit).map Prod.fst = Block.slotTypes op implicit := by
  simp [slotsOf, Block.slotTypes, Function.comp_def]

/-- Slots have types that are known. -/
theorem Catalog.IsWritable.knows_of_mem_slotsOf (hk : k.IsWritable tested) {op : Operation}
    (hop : op ∈ k.operations) : ∀ slot ∈ Sharing.slotsOf op (k.implicit? op),
      slot.1.Knows (k.Names tested) := by
  intro slot hslot
  refine hk.knows_of_mem_slotTypes hop ?_
  rw [← Sharing.map_fst_slotsOf]
  exact List.mem_map_of_mem hslot

/-- Plans **can be read**. -/
theorem IsPlan.suits (hk : k.IsWritable tested) {type : TypeExpr} {demand : Demand} {e : Expression}
    (h : IsPlan k granted budget type demand e) (htype : type.Knows (k.Names tested)) :
    e.reading.Suits (k.Names tested) type demand := by
  revert htype
  refine IsPlan.induction ?seed ?array ?call h
  case seed =>
    exact fun budget type demand e hseed htype => Reading.suits_of_mem_seeds htype hseed
  case array =>
    intro budget component demand e ih htype
    rw [Expression.reading, Expression.readings, Expression.readings]
    exact ⟨.array htype (List.forall_mem_singleton.mpr (ih htype).legible),
      fun _ c hc => by cases hc⟩
  case call =>
    intro budget type demand op plans hop ih _
    have hmem := Catalog.mem_operations_of_mem_producers hop
    have hplans := (List.forall₂_and_left _ _).mpr ⟨hk.knows_of_mem_slotsOf hmem, ih⟩
    obtain ⟨hlegible, hinstance⟩ := hk.legible_callOn hmem (hplans.imp fun _ _ h => h.2 h.1)
    exact ⟨hlegible, fun _ _ _ => hinstance⟩

/-! ### Plans that read the same -/

/-- Some values can be given where the one type is wanted and where the other one is. -/
def Catalog.Overlaps (k : Catalog) (t u : TypeExpr) : Prop :=
  ∃ v, k.assignable v t = true ∧ k.assignable v u = true

/-- The operation can be called inside plans. -/
def Catalog.Produces (k : Catalog) (granted : Access) (op : Operation) : Prop :=
  ∃ type, op ∈ k.producers type granted

/-- Two operations that are called in the same words inside plans **never take the same arguments**:
there is a slot where none of the values for the one can be given to the other. -/
def Catalog.IsUnambiguous (k : Catalog) (granted : Access) : Prop :=
  ∀ op op', k.Produces granted op → k.Produces granted op' → op.callee = op'.callee →
    List.Forall₂ k.Overlaps (Block.slotTypes op (k.implicit? op))
      (Block.slotTypes op' (k.implicit? op')) → op = op'

/-- The type of a plan is assignable to the type that it is for. -/
theorem IsPlan.assignable {type : TypeExpr} {demand : Demand} {e : Expression}
    (h : IsPlan k granted budget type demand e) : k.assignable e.type type = true := by
  cases h with
  | seed mem => rw [TypeExpr.type_of_mem_seeds mem, k.assignable_refl]
  | array leaf plan => exact k.assignable_refl _
  | call producer receiver plans => exact k.assignable_of_mem_producers producer

/-- Slots that take the same plans overlap. -/
theorem Catalog.forall₂_overlaps {budget' : Nat} {slots slots' : List (TypeExpr × Demand)}
    {plans : List Expression}
    (h : List.Forall₂ (fun slot e => IsPlan k granted budget slot.1 slot.2 e) slots plans)
    (h' : List.Forall₂ (fun slot e => IsPlan k granted budget' slot.1 slot.2 e) slots' plans) :
    List.Forall₂ k.Overlaps (slots.map Prod.fst) (slots'.map Prod.fst) := by
  induction h generalizing slots' with
  | nil =>
    cases h'
    exact .nil
  | cons hplan _ ih =>
    cases h' with
    | cons hplan' hplans' => exact .cons ⟨_, hplan.assignable, hplan'.assignable⟩ (ih hplans')

/-- A plan that reads like a call is one, in the same words and on plans that read the same. -/
theorem IsPlan.exists_callOn_of_reading_eq (hk : k.IsWritable tested) {type : TypeExpr}
    {demand : Demand} {e : Expression} (h : IsPlan k granted budget type demand e) {callee : Callee}
    {xs : List Reading} (hreading : e.reading = callee.reading xs) :
    ∃ below op plans, op ∈ k.producers type granted ∧
      List.Forall₂ (fun slot e => IsPlan k granted below slot.1 slot.2 e)
        (Sharing.slotsOf op (k.implicit? op)) plans ∧
      e = Assembly.callOn op (k.implicit? op) plans ∧ op.callee = callee ∧
      plans.map Expression.reading = xs := by
  rcases isPlan_iff.mp h with
    hseed | ⟨component, rfl, -, plan, rfl, -⟩ | ⟨below, rfl, op, hop, hcall⟩
  · obtain ⟨l, rfl, -⟩ | ⟨component, -, rfl⟩ := TypeExpr.mem_seeds hseed
    · rw [Expression.reading] at hreading
      exact absurd hreading.symm (callee.reading_ne_literal _ _)
    · rw [Expression.reading] at hreading
      exact absurd hreading.symm (callee.reading_ne_array _ _ _)
  · rw [Expression.reading] at hreading
    exact absurd hreading.symm (callee.reading_ne_array _ _ _)
  · obtain ⟨plans, hplans, rfl⟩ := isCallOn_iff.mp hcall
    rw [hk.reading_callOn (Catalog.mem_operations_of_mem_producers hop) hplans] at hreading
    obtain ⟨hcallee, hreadings⟩ := Callee.eq_of_reading_eq hreading
    exact ⟨below, op, plans, hop, hplans, rfl, hcallee, hreadings⟩

/-- Plans that read the same are the same one by one, if each of them is told by its reading. -/
theorem eq_of_map_reading_eq {α : Type} {P Q : α → Expression → Prop} {slots slots' : List α}
    {plans plans' : List Expression} (h : List.Forall₂ P slots plans)
    (h' : List.Forall₂ Q slots' plans')
    (heq : ∀ slot slot' e e', P slot e → Q slot' e' → e.reading = e'.reading → e = e')
    (hsame : plans.map Expression.reading = plans'.map Expression.reading) : plans = plans' := by
  induction h generalizing slots' plans' with
  | nil => exact (List.map_eq_nil_iff.mp hsame.symm).symm
  | cons hplan _ ih =>
    cases h' with
    | nil => cases hsame
    | cons hplan' hplans' =>
      obtain ⟨hfirst, hrest⟩ := List.cons.inj hsame
      rw [heq _ _ _ _ hplan hplan' hfirst, ih hplans' hrest]

/-- Plans that read the same **are the same**, if no two operations can be called in the same words
on the same arguments. -/
theorem IsPlan.eq_of_reading_eq (hk : k.IsWritable tested) (hunambiguous : k.IsUnambiguous granted)
    {type : TypeExpr} {demand : Demand} {e : Expression} (h : IsPlan k granted budget type demand e)
    {budget' : Nat} {type' : TypeExpr} {demand' : Demand} {e' : Expression}
    (h' : IsPlan k granted budget' type' demand' e') (hsame : e.reading = e'.reading) :
    e = e' := by
  induction budget, type using Fresh.budget_type_induction
    generalizing demand e budget' type' demand' e' with
  | step budget type hbelow hcomponent =>
    rcases isPlan_iff.mp h with
      hseed | ⟨component, rfl, -, plan, rfl, hplan⟩ | ⟨below, rfl, op, hop, hcall⟩
    · obtain ⟨l, rfl, -⟩ | ⟨component, -, rfl⟩ := TypeExpr.mem_seeds hseed
      · rw [Expression.reading] at hsame
        exact (Expression.eq_literal_of_reading_eq hsame.symm).symm
      · rw [Expression.reading, Expression.readings] at hsame
        obtain ⟨es, rfl, hes⟩ := Expression.exists_eq_array_of_reading_eq hsame.symm
        rw [List.map_eq_nil_iff.mp hes]
    · rw [Expression.reading, Expression.readings, Expression.readings] at hsame
      obtain ⟨es, rfl, hes⟩ := Expression.exists_eq_array_of_reading_eq hsame.symm
      obtain ⟨plan', rfl, hreading⟩ := List.map_eq_singleton_iff.mp hes
      cases h' with
      | seed mem =>
        obtain ⟨l, hl, -⟩ | ⟨_, -, harray⟩ := TypeExpr.mem_seeds mem
        · cases hl
        · cases harray
      | array leaf hplan' => rw [hcomponent component rfl hplan hplan' hreading.symm]
    · obtain ⟨plans, hplans, rfl⟩ := isCallOn_iff.mp hcall
      rw [hk.reading_callOn (Catalog.mem_operations_of_mem_producers hop) hplans] at hsame
      obtain ⟨below', op', plans', hop', hplans', rfl, hcallee, hreadings⟩ :=
        h'.exists_callOn_of_reading_eq hk hsame.symm
      -- the plans for the slots are the same, so the slots overlap
      obtain rfl := eq_of_map_reading_eq hplans hplans'
        (fun slot slot' f f' hf hf' => hbelow below rfl slot.1 hf hf') hreadings.symm
      have hoverlaps := Catalog.forall₂_overlaps hplans hplans'
      rw [Sharing.map_fst_slotsOf, Sharing.map_fst_slotsOf] at hoverlaps
      rw [hunambiguous op op' ⟨type, hop⟩ ⟨type', hop'⟩ hcallee.symm hoverlaps]

end

end CallPlan

import CallPlan.Proofs.BlockTexts
import CallPlan.Proofs.Enumeration
import CallPlan.Proofs.Permission
import CallPlan.Proofs.PlanReadings

/-!
# Overloaded operations in source text

The texts of a block tell the tested operation, which is called on variables that are declared with
the types of its slots, and what the bound plans read (`Catalog.IsWritable.texts_body_eq_iff`). They
tell the plans themselves unless two operations can be called in the same words on the same
arguments (`exists_texts_eq_iff`). If they can, then there may be blocks that call different
operations inside their plans and have the same text, because nested calls are written without the
types of the parameters (`Printer.texts_eq_of_width`).
-/

namespace CallPlan

section

variable {k : Catalog} {tested : ClassName} {granted : Access} {budget : Nat}

/-! ### Statements that read the same -/

/-- The variables of a block can be declared. -/
theorem Catalog.IsWritable.forall_mem_locals (hk : k.IsWritable tested) {op : Operation}
    (hop : op ∈ k.operations) : ∀ v ∈ Block.locals op (k.implicit? op),
      v.type.Knows (k.Names tested) ∧ Text.IsWord v.name.toList := by
  intro v hv
  have htype := List.mem_map_of_mem (f := Variable.type) hv
  rw [Block.locals, Block.types_variablesFrom] at htype
  exact ⟨hk.knows_of_mem_slotTypes hop htype, Block.isWord_name_of_mem_variablesFrom hv⟩

/-- The plans for the slots of an operation can be read. -/
theorem Catalog.IsWritable.legible_readings (hk : k.IsWritable tested) {op : Operation}
    (hop : op ∈ k.operations) {plans : List Expression}
    (hplans : List.Forall₂ (fun slot e => IsPlan k granted budget slot.1 slot.2 e)
      (Sharing.slotsOf op (k.implicit? op)) plans) :
    ∀ x ∈ plans.map Expression.reading, x.Legible (k.Names tested) := by
  have hknown := (List.forall₂_and_left _ _).mpr ⟨hk.knows_of_mem_slotsOf hop, hplans⟩
  exact List.forall_mem_map.mpr
    (forall_mem_of_forall₂ (hknown.imp fun _ _ h => (h.2.suits hk h.1).legible))

/-- There is a variable for every plan. -/
theorem length_locals_eq_of_plans {op : Operation} {implicit : Option Implicit}
    {plans : List Expression}
    (hplans : List.Forall₂ (fun slot e => IsPlan k granted budget slot.1 slot.2 e)
      (Sharing.slotsOf op implicit) plans) :
    (Block.locals op implicit).length = (plans.map Expression.reading).length := by
  rw [List.length_map, length_eq_of_plans hplans, Block.length_locals]

/-- The texts of the statements for operations of one class **tell the operation and what the plans
read**. -/
theorem Catalog.IsWritable.texts_body_eq_iff (hk : k.IsWritable tested) {s : Scope}
    (hs : s.Tells (k.Names tested)) {op op' : Operation} (hop : op ∈ k.operations)
    (hop' : op' ∈ k.operations) (howner : op'.owner = op.owner) {plans plans' : List Expression}
    (hplans : List.Forall₂ (fun slot e => IsPlan k granted budget slot.1 slot.2 e)
      (Sharing.slotsOf op (k.implicit? op)) plans)
    (hplans' : List.Forall₂ (fun slot e => IsPlan k granted budget slot.1 slot.2 e)
      (Sharing.slotsOf op' (k.implicit? op')) plans') :
    (Block.body op (k.implicit? op) plans).map (Statement.text s) =
        (Block.body op' (k.implicit? op') plans').map (Statement.text s) ↔
      op = op' ∧ plans.map Expression.reading = plans'.map Expression.reading := by
  rw [Block.texts_body, Block.texts_body]
  constructor
  · intro h
    obtain ⟨hbound, hlast⟩ := List.append_inj' h rfl
    obtain ⟨hlocals, hreadings⟩ := Reading.eq_of_boundTexts_eq hs (hk.forall_mem_locals hop)
      (hk.forall_mem_locals hop') (hk.legible_readings hop hplans)
      (hk.legible_readings hop' hplans') (length_locals_eq_of_plans hplans)
      (length_locals_eq_of_plans hplans') hbound
    have hcallee := Block.callee_eq_of_text_lastStatement_eq hs (hk.names_owner hop)
      (hk.isMember_owner hop) howner (hk.isWord_name hop) (hk.isWord_name hop') hlocals
      (List.cons.inj hlast).1
    have htypes := congrArg (List.map Variable.type) hlocals
    rw [Block.locals, Block.locals, Block.types_variablesFrom, Block.types_variablesFrom] at htypes
    exact ⟨hk.eq_of_callee_eq hop hop' howner.symm hcallee htypes, hreadings⟩
  · rintro ⟨rfl, hreadings⟩
    rw [hreadings]

end

/-! ### Blocks that read the same -/

namespace Subject

/-- The calls of an operation on some plans are at one index only. -/
theorem HoldsAt.index_eq {c : Subject} {calls : Calls} {plans : List Expression} {i j : Nat}
    (hcalls : c.calls.Nodup) (hslots : ∀ slot ∈ calls.slots, slot.Distinct)
    (hi : c.HoldsAt calls plans i) (hj : c.HoldsAt calls plans j) : i = j := by
  obtain ⟨child, offset, hlocate, hchild, hoffset, hparts⟩ := hi
  obtain ⟨child', offset', hlocate', hchild', hoffset', hparts'⟩ := hj
  have hlt : child < c.calls.length := (List.getElem?_eq_some_iff.mp hchild).1
  obtain rfl := (List.getElem?_inj hlt hcalls).mp (hchild.trans hchild'.symm)
  rw [Calls.parts, if_pos hoffset] at hparts
  rw [Calls.parts, if_pos hoffset'] at hparts'
  have hpos := pos_of_lt_productOf hoffset
  have hdigits := PlanTree.getAll_injective hslots (digitsOf_lt offset hpos)
    (digitsOf_lt offset' hpos) hparts hparts'
  obtain rfl := digitsOf_injective hoffset hoffset' hdigits
  exact c.indexRanges.locate_injective hlocate hlocate'

variable {k : Catalog} {tested : ClassName} {depth : Nat} {grantedTested grantedUsed : Access}

/-- Tested operations have different calls. -/
theorem nodup_calls_fresh (h : ∀ e ∈ k.entries, e.operations.Nodup) :
    (fresh k tested depth grantedTested grantedUsed).calls.Nodup := by
  have htested : (testedOperations k tested grantedTested).Nodup := by
    unfold testedOperations Catalog.usable
    split
    · rename_i e hfound
      exact ((h e (Catalog.find?_eq_some_iff.mp hfound).1).filter _).filter _
    · simp
  refine (htested.map ?_).filter _
  exact fun op op' hsame => congrArg Calls.operation hsame

end Subject

/-- **What the text of a block tells.** Let the operations of a catalogue differ in class, name and
parameters, and let tests of a class be able to name its classes and methods. Then there are blocks
at any two indices of the subject of the class, and they have the same text exactly if they test the
same operation and their values read the same. If no two operations of the catalogue can be called
in the same words on the same arguments, then blocks at different indices have different texts. -/
theorem exists_texts_eq_iff {k : Catalog} {tested : ClassName} {depth : Nat}
    {grantedTested grantedUsed : Access} {c : Subject} (hk : k.IsWritable tested)
    (hsubject : Subject.ofCatalog k tested depth grantedTested grantedUsed = .ok c) {i j : Nat}
    (hi : i < c.size) (hj : j < c.size) :
    ∃ b b', c.get i = .ok b ∧ c.get j = .ok b' ∧
      (b.texts c.scope = b'.texts c.scope ↔
        b.operation = b'.operation ∧ b.readings = b'.readings) ∧
      (k.IsUnambiguous grantedUsed → i ≠ j → b.texts c.scope ≠ b'.texts c.scope) := by
  obtain ⟨below, rfl, rfl⟩ := Subject.eq_fresh_of_ofCatalog_eq_ok hsubject
  obtain ⟨op, hop, plans, b, hplace, hplans, hget, rfl, hstatements⟩ :=
    Subject.exists_block_body (Fresh.serves_tree k grantedUsed below) (fun _ _ _ h => h) hi
  obtain ⟨op', hop', plans', b', hplace', hplans', hget', rfl, hstatements'⟩ :=
    Subject.exists_block_body (Fresh.serves_tree k grantedUsed below) (fun _ _ _ h => h) hj
  have hmem {op : Operation} (h : op ∈ Subject.testedOperations k tested grantedTested) :
      op ∈ k.operations ∧ op.owner = tested := by
    obtain ⟨howner, ⟨e, hfound, hop⟩, -⟩ := Catalog.permits_of_mem_testedOperations h
    exact ⟨Catalog.mem_operations_iff.mpr ⟨e, (Catalog.find?_eq_some_iff.mp hfound).1, hop⟩, howner⟩
  have htexts := hk.texts_body_eq_iff (k.tells_scope tested) (hmem hop).1 (hmem hop').1
    ((hmem hop').2.trans (hmem hop).2.symm) hplans hplans'
  rw [← hstatements, ← hstatements'] at htexts
  refine ⟨b, b', hget, hget', htexts.trans ?_, fun hunambiguous hne hsame => hne ?_⟩
  · rw [Block.readings, Block.readings, hstatements, hstatements',
      Block.readings_body (length_eq_of_plans hplans),
      Block.readings_body (length_eq_of_plans hplans')]
    refine and_congr_right fun hoperation => ?_
    rw [hoperation, List.append_left_inj]
  · obtain ⟨hoperation, hreadings⟩ := htexts.mp hsame
    have hplansEq := eq_of_map_reading_eq hplans hplans'
      (fun _ _ _ _ h h' => h.eq_of_reading_eq hk hunambiguous h') hreadings
    rw [← hoperation, ← hplansEq] at hplace'
    refine Subject.HoldsAt.index_eq (Subject.nodup_calls_fresh hk.nodup_operations) ?_ hplace
      hplace'
    intro slot hslot
    obtain ⟨key, -, rfl⟩ := List.mem_map.mp hslot
    exact Fresh.distinct_tree hk.nodup_operations _ _ _

/-! ### A printer -/

namespace Printer

/-- A class with overloads of a method. -/
def name : ClassName := .topLevel "demo" "Printer"

/-- The signature `static String text()`. -/
def text : Operation where
  owner := name
  kind := .method "text" .string true false
  parameters := []

/-- The signature `static int width(t)`. -/
def width (t : TypeExpr) : Operation where
  owner := name
  kind := .method "width" (.primitive .int) true false
  parameters := [t]

/-- The signature `static void indent(int)`. -/
def indent : Operation where
  owner := name
  kind := .method "indent" .void true false
  parameters := [.primitive .int]

/-- The printer takes the width of strings, and of values of one more type. -/
def catalog (t : TypeExpr) : Catalog where
  entries := [{ name, operations := [text, width t, width .string, indent] }]
  nodup := by simp
  wellFormed := by simp [Entry.WellFormed, text, width, indent]

def subject (t : TypeExpr) : Subject := Subject.fresh (catalog t) name 2 .global .global

theorem ofCatalog_printer (t : TypeExpr) :
    Subject.ofCatalog (catalog t) name 3 .global .global = .ok (subject t) :=
  Subject.ofCatalog_succ (catalog t) name 2 .global .global

theorem operations_catalog (t : TypeExpr) :
    (catalog t).operations = [text, width t, width .string, indent] := rfl

theorem names_name (t : TypeExpr) : (catalog t).Names name name where
  ordinary :=
    { proper := ⟨⟨["demo".toList], by decide, rfl⟩, by decide⟩
      topLevel := rfl
      packaged := by decide
      notKeyword := by decide }
  own _ := List.mem_cons_self

theorem names_core (t : TypeExpr) {simpleName : String}
    (h : simpleName = "String" ∨ simpleName = "Object") :
    (catalog t).Names name (.core simpleName) where
  ordinary :=
    { proper :=
        { package := ⟨["java".toList, "lang".toList], by decide,
            (by decide : "java.lang".toList = ['.'].intercalate ["java".toList, "lang".toList])⟩
          names := by rcases h with rfl | rfl <;> decide }
      topLevel := rfl
      packaged := (by decide : "java.lang" ≠ "")
      notKeyword := by rcases h with rfl | rfl <;> decide }
  own hpackage := absurd hpackage (by decide : "java.lang" ≠ "demo")

theorem isWritable_catalog {t : TypeExpr} (hne : t ≠ .string)
    (ht : ∀ c, t.leaf = .named c → c = .core "Object") : (catalog t).IsWritable name where
  distinct := by
    simp [operations_catalog, text, width, indent, Operation.name, hne]
  classes := by
    rintro c (hentry | ⟨op, hop, u, hu, hc⟩)
    · obtain rfl := List.mem_singleton.mp hentry
      exact names_name t
    · have hleaf : u = t ∨ u = .string ∨ u = .primitive .int := by
        rw [operations_catalog] at hop
        simp only [List.mem_cons, List.not_mem_nil, or_false] at hop
        rcases hop with rfl | rfl | rfl | rfl <;> simp_all [text, width, indent]
      rcases hleaf with rfl | rfl | rfl
      · rw [ht c hc]
        exact names_core _ (.inr rfl)
      · obtain rfl := TypeExpr.named.inj hc
        exact names_core t (.inl rfl)
      · cases hc
  methods := by
    rw [operations_catalog]
    simp only [List.forall_mem_cons]
    have hwidth : Text.isIdentifier "width".toList = true := by decide
    exact ⟨fun _ => by decide, fun _ => hwidth, fun _ => hwidth, fun _ => by decide, by simp⟩

/-- A number is no string, so the overloads for them are told apart. -/
theorem isUnambiguous_catalog : (catalog (.primitive .int)).IsUnambiguous .global := by
  have hproduced {op : Operation} (h : (catalog (.primitive .int)).Produces .global op) :
      op = text ∨ op = width (.primitive .int) ∨ op = width .string ∨ op = indent := by
    obtain ⟨type, hop⟩ := h
    have hmem := Catalog.mem_operations_of_mem_producers hop
    rw [operations_catalog] at hmem
    simpa using hmem
  have hapart {t u : TypeExpr} (h : t.isReference ≠ u.isReference) :
      ¬ List.Forall₂ (catalog (.primitive .int)).Overlaps [t] [u] := by
    intro hoverlaps
    obtain ⟨v, ht, hu⟩ := (List.forall₂_cons.mp hoverlaps).1
    exact h ((Catalog.isReference_of_assignable _ ht).trans
      (Catalog.isReference_of_assignable _ hu).symm)
  intro op op' hop hop' hcallee hoverlaps
  rcases hproduced hop with rfl | rfl | rfl | rfl <;>
    rcases hproduced hop' with rfl | rfl | rfl | rfl
  case inr.inl.inr.inr.inl => exact absurd hoverlaps (hapart (by decide))
  case inr.inr.inl.inr.inl => exact absurd hoverlaps (hapart (by decide))
  -- the others have different names, or are the same
  all_goals first | rfl | exact absurd hcallee (by decide)

/-- The overloads for strings and for all objects take strings both, so their calls on a string are
written in the same way. -/
theorem texts_eq_of_width :
    (catalog .object).IsWritable name ∧
      ∃ c b b', Subject.ofCatalog (catalog .object) name 3 .global .global = .ok c ∧
        11 < c.size ∧ 15 < c.size ∧ c.get 11 = .ok b ∧ c.get 15 = .ok b' ∧
        b.texts c.scope = ["int i1 = Printer.width(Printer.text());", "Printer.indent(i1);"] ∧
        b'.texts c.scope = ["int i1 = Printer.width(Printer.text());", "Printer.indent(i1);"] := by
  refine ⟨isWritable_catalog (by decide) fun c hc => (TypeExpr.named.inj hc).symm, subject .object,
    _, _, ofCatalog_printer .object, ?_, ?_, rfl, rfl, ?_, ?_⟩ <;> decide +kernel

/-- The text tells which of two overloads is called if none of the values for the one can be given
to the other. -/
theorem exists_texts_eq_iff_width :
    (catalog (.primitive .int)).IsWritable name ∧
      (catalog (.primitive .int)).IsUnambiguous .global ∧
      ∃ c b b', Subject.ofCatalog (catalog (.primitive .int)) name 3 .global .global = .ok c ∧
        4 < c.size ∧ 13 < c.size ∧ c.get 4 = .ok b ∧ c.get 13 = .ok b' ∧
        b.texts c.scope ≠ b'.texts c.scope := by
  have hk : (catalog (.primitive .int)).IsWritable name :=
    isWritable_catalog (by decide) fun c hc => by cases hc
  have hi : 4 < (subject (.primitive .int)).size := by decide +kernel
  have hj : 13 < (subject (.primitive .int)).size := by decide +kernel
  obtain ⟨b, b', hb, hb', -, hne⟩ := exists_texts_eq_iff hk (ofCatalog_printer _) hi hj
  exact ⟨hk, isUnambiguous_catalog, _, b, b', ofCatalog_printer _, hi, hj, hb, hb',
    hne isUnambiguous_catalog (by decide)⟩

end Printer

end CallPlan

import CallPlan.Proofs.Statements
import CallPlan.Proofs.Subtyping

/-!
# Blocks make permitted calls only

An operation is permitted to those whom its access level admits, if it has a body and its class can
be constructed in case it is a constructor (`Catalog.Permits`). Both ways in which a catalogue
offers operations respect this: `Catalog.producers` for what is called inside plans, and
`Subject.testedOperations` for what blocks test. Calls inside plans are calls of producers, so a
block is made of permitted calls (`exists_permitted_calls`).
-/

namespace CallPlan

namespace Catalog

/-- The catalogue **permits** the operation to those who are granted an access level. -/
structure Permits (k : Catalog) (granted : Access) (op : Operation) : Prop where
  /-- The entry of its class lists it. -/
  declared : ∃ entry, k.find? op.owner = some entry ∧ op ∈ entry.operations
  admitted : op.access.admits granted = true
  hasBody : op.isAbstract = false
  /-- There are instances of the class if the operation makes one. -/
  instantiable : op.isConstructor = true → k.isAbstract op.owner = false

variable {k : Catalog} {granted : Access} {op : Operation}

theorem find?_owner {entry : Entry} (h : entry ∈ k.entries) (hop : op ∈ entry.operations) :
    k.find? op.owner = some entry :=
  find?_eq_some_iff.mpr ⟨h, ((k.wellFormed entry h).2 op hop).symm⟩

theorem isAbstract_owner {entry : Entry} (h : entry ∈ k.entries) (hop : op ∈ entry.operations) :
    k.isAbstract op.owner = entry.isAbstract := by
  rw [isAbstract, find?_owner h hop]

/-- An operation that yields a value has a body, and yields something. -/
theorem of_yieldsValue {entry : Entry} (h : yieldsValue entry op = true) :
    op.isAbstract = false ∧ op.result.isVoid = false ∧
      (op.isConstructor = true → entry.isAbstract = false) := by
  simp only [yieldsValue, Bool.and_eq_true, Bool.not_eq_true'] at h
  obtain ⟨hbody, hkind⟩ := h
  cases hconstructor : op.isConstructor with
  | true =>
    refine ⟨hbody, ?_, by simpa [hconstructor] using hkind⟩
    -- a constructor yields an instance of its class
    cases hop : op.kind with
    | constructor => simp [Operation.result, hop, TypeExpr.isVoid]
    | method => simp [Operation.isConstructor, hop] at hconstructor
  | false => exact ⟨hbody, by simpa [hconstructor] using hkind, by simp⟩

/-- Producers are permitted, and have a result. -/
theorem permits_of_mem_producers {t : TypeExpr} (h : op ∈ k.producers t granted) :
    k.Permits granted op ∧ op.result.isVoid = false := by
  obtain ⟨entry, hentry, hop, hadmitted, hyields, -⟩ := k.mem_producers_iff.mp h
  obtain ⟨hbody, hresult, hinstance⟩ := of_yieldsValue hyields
  refine ⟨⟨⟨entry, find?_owner hentry hop, hop⟩, hadmitted, hbody, fun hconstructor => ?_⟩,
    hresult⟩
  rw [isAbstract_owner hentry hop, hinstance hconstructor]

/-- Tested operations are permitted, and the tested class declares them. -/
theorem permits_of_mem_testedOperations {tested : ClassName}
    (h : op ∈ Subject.testedOperations k tested granted) :
    op.owner = tested ∧ k.Permits granted op := by
  obtain ⟨husable, htestable⟩ := List.mem_filter.mp h
  simp only [Subject.isTestable, Bool.and_eq_true, Bool.not_eq_true', Bool.and_eq_false_iff]
    at htestable
  unfold usable at husable
  split at husable
  · rename_i entry hfound
    obtain ⟨hop, hadmitted⟩ := List.mem_filter.mp husable
    obtain ⟨hentry, hname⟩ := find?_eq_some_iff.mp hfound
    have howner : op.owner = tested := ((k.wellFormed entry hentry).2 op hop).trans hname
    refine ⟨howner, ⟨entry, howner ▸ hfound, hop⟩, hadmitted, htestable.1, fun hconstructor => ?_⟩
    rw [howner]
    simpa [hconstructor] using htestable.2
  · simp at husable

end Catalog

/-- **Blocks make permitted calls only.** At every index of a subject there is a block of an
operation that the tested class declares and that the catalogue permits to tests. The last statement
makes a call of this operation and no other. All other statements bind plans, and every call inside
these, however deep, is of an operation that the catalogue permits for arguments and that has a
result. -/
theorem exists_permitted_calls {k : Catalog} {tested : ClassName} {depth : Nat}
    {grantedTested grantedUsed : Access} {c : Subject}
    (hsubject : Subject.ofCatalog k tested depth grantedTested grantedUsed = .ok c) {index : Nat}
    (hindex : index < c.size) :
    ∃ b bindings last, c.get index = .ok b ∧ b.statements = bindings ++ [last] ∧
      b.operation.owner = tested ∧ k.Permits grantedTested b.operation ∧
      (∀ s ∈ bindings, ∃ v e, s = .bind v e ∧
        ∀ op implicit arguments, (Expression.call op implicit arguments).IsPartOf e →
          k.Permits grantedUsed op ∧ op.result.isVoid = false) ∧
      (∃ implicit arguments, last.value = .call b.operation implicit arguments) ∧
      ∀ op implicit arguments, (Expression.call op implicit arguments).IsPartOf last.value →
        .call op implicit arguments = last.value := by
  obtain ⟨below, child, offset, calls, b, plans, locals, last, rfl, -, -, -, hblock, hop, hplans,
    hcallsOn⟩ := Subject.exists_callsOn hsubject hindex
  obtain ⟨howner, hpermits⟩ := Catalog.permits_of_mem_testedOperations hop
  have hinner : ∀ e ∈ plans, e.HasInnerCalls k grantedUsed below :=
    forall_mem_of_forall₂ (hplans.imp fun _ _ hplan => hplan.2)
  refine ⟨b, _, last, hblock, hcallsOn.statements, howner, hpermits, fun s hs => ?_,
    ⟨_, _, hcallsOn.call⟩, fun op implicit arguments hpart => hcallsOn.eq_of_isPartOf hpart⟩
  obtain ⟨v, -, e, he, rfl⟩ := Block.exists_of_mem_bindings hs
  refine ⟨v, e, rfl, fun op implicit arguments hpart => ?_⟩
  obtain ⟨deeper, -, ⟨type, hproducer⟩, -⟩ := hinner e he op implicit arguments hpart
  exact Catalog.permits_of_mem_producers hproducer

/-- The last block of the shapes makes permitted calls only. -/
theorem Gallery.exists_permitted_calls_last :
    Subject.ofCatalog catalog shape 3 .global .global = .ok subject ∧ 11 < subject.size ∧
      ∃ b bindings last, subject.get 11 = .ok b ∧ b.statements = bindings ++ [last] ∧
        b.operation.owner = shape ∧ catalog.Permits .global b.operation ∧
        (∀ s ∈ bindings, ∃ v e, s = .bind v e ∧
          ∀ op implicit arguments, (Expression.call op implicit arguments).IsPartOf e →
            catalog.Permits .global op ∧ op.result.isVoid = false) ∧
        (∃ implicit arguments, last.value = .call b.operation implicit arguments) ∧
        ∀ op implicit arguments, (Expression.call op implicit arguments).IsPartOf last.value →
          .call op implicit arguments = last.value :=
  ⟨ofCatalog_shape, lt_size_subject, exists_permitted_calls ofCatalog_shape lt_size_subject⟩

end CallPlan

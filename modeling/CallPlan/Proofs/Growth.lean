import CallPlan.Proofs.Completeness

/-!
# Larger spaces

More budget, more access and the demand for `null` as well each give more plans: what is a plan
stays one (`IsPlan.mono`), and no count gets smaller (`Catalog.planCount_mono`). So no size does
either, cut off or not, and unless something is cut off from the larger tree it offers all plans of
the smaller one, though at other indices (`size_le_and_offers`).
-/

namespace CallPlan

/-! ### More operations -/

section

variable {granted granted' : Access}

/-- Where more access is granted, more members are admitted. -/
theorem Access.admits_of_granted_le {member : Access} (hgranted : granted'.rank ≤ granted.rank)
    (h : member.admits granted = true) : member.admits granted' = true := by
  simp only [admits, decide_eq_true_eq] at *
  exact hgranted.trans h

theorem Catalog.producers_sublist (k : Catalog) (type : TypeExpr)
    (hgranted : granted'.rank ≤ granted.rank) :
    (k.producers type granted).Sublist (k.producers type granted') := by
  unfold producers
  induction k.entries with
  | nil => exact .slnil
  | cons entry entries ih =>
    rw [List.flatMap_cons, List.flatMap_cons]
    refine (List.monotone_filter_right _ fun op hop => ?_).append ih
    simp only [Bool.and_eq_true] at hop ⊢
    exact ⟨⟨Access.admits_of_granted_le hgranted hop.1.1, hop.1.2⟩, hop.2⟩

theorem Subject.testedOperations_sublist (k : Catalog) (tested : ClassName)
    (hgranted : granted'.rank ≤ granted.rank) :
    (testedOperations k tested granted).Sublist (testedOperations k tested granted') := by
  refine List.Sublist.filter _ ?_
  unfold Catalog.usable
  split
  · exact List.monotone_filter_right _ fun op => Access.admits_of_granted_le hgranted
  · exact .slnil

end

/-! ### More plans -/

/-- If `null` is wanted as well, there are more seeds. -/
theorem TypeExpr.seeds_sublist (type : TypeExpr) {demand demand' : Demand}
    (h : demand' = .all ∨ demand' = demand) :
    (type.seeds demand).Sublist (type.seeds demand') := by
  rcases h with rfl | rfl
  · refine List.Sublist.append_left ?_ _
    split
    · exact .refl _
    · exact List.nil_sublist _
  · exact .refl _

section

variable {k : Catalog} {granted granted' : Access}

theorem sum_map_le_of_sublist {α : Type} {as bs : List α} {f g : α → Nat}
    (hsub : as.Sublist bs) (hle : ∀ a, f a ≤ g a) : (as.map f).sum ≤ (bs.map g).sum :=
  calc (as.map f).sum ≤ (bs.map f).sum := (hsub.map f).sum_le_sum fun _ _ => Nat.zero_le _
    _ ≤ (bs.map g).sum := List.sum_le_sum fun a _ => hle a

theorem Catalog.callCount_mono {count count' : TypeExpr → Demand → Nat}
    (h : ∀ type demand, count type demand ≤ count' type demand) (op : Operation) :
    k.callCount count op ≤ k.callCount count' op := by
  rw [← k.prod_slotsOf, ← k.prod_slotsOf]
  exact List.prod_map_le_prod_map₀ _ _ (fun _ _ => Nat.zero_le _) fun slot _ => h slot.1 slot.2

/-- The exact number of plans grows with everything that decides on it. -/
theorem Catalog.planCount_mono {budget budget' : Nat} {type : TypeExpr} {demand demand' : Demand}
    (hgranted : granted'.rank ≤ granted.rank) (hbudget : budget ≤ budget')
    (hdemand : demand' = .all ∨ demand' = demand) :
    k.planCount granted budget type demand ≤ k.planCount granted' budget' type demand' := by
  induction budget, type using Fresh.budget_type_induction
    generalizing budget' demand demand' with
  | step budget type hbelow hcomponent =>
    have hseeds := (type.seeds_sublist hdemand).length_le
    have harrays : k.arrayCount granted budget type ≤ k.arrayCount granted' budget' type := by
      cases type with
      | array component =>
        rw [arrayCount, arrayCount]
        split
        · exact Nat.le_refl _
        · exact hcomponent component rfl hbudget (.inl rfl)
      | void | primitive p | named c => exact Nat.le_refl _
    have hcalled : k.calledCount granted budget type ≤ k.calledCount granted' budget' type := by
      cases budget with
      | zero => exact Nat.zero_le _
      | succ below =>
        obtain ⟨below', rfl⟩ := Nat.exists_eq_add_of_le' (Nat.one_le_of_lt hbudget)
        exact sum_map_le_of_sublist (k.producers_sublist type hgranted) fun op =>
          callCount_mono (fun t d =>
            hbelow below rfl t (Nat.le_of_succ_le_succ hbudget) (.inr rfl)) op
    rw [k.planCount_eq, k.planCount_eq]
    exact Nat.add_le_add (Nat.add_le_add hseeds harrays) hcalled

/-- A plan is a plan also if more is allowed. -/
theorem IsPlan.mono {budget budget' : Nat} {type : TypeExpr} {demand demand' : Demand}
    {e : Expression} (h : IsPlan k granted budget type demand e)
    (hgranted : granted'.rank ≤ granted.rank) (hbudget : budget ≤ budget')
    (hdemand : demand' = .all ∨ demand' = demand) : IsPlan k granted' budget' type demand' e := by
  induction budget, type using Fresh.budget_type_induction
    generalizing budget' demand demand' e with
  | step budget type hbelow hcomponent =>
    rcases isPlan_iff.mp h with
      hseed | ⟨component, rfl, hleaf, plan, rfl, hplan⟩ | ⟨below, rfl, op, hop, hcall⟩
    · exact .seed ((type.seeds_sublist hdemand).subset hseed)
    · exact .array hleaf (hcomponent component rfl hplan hbudget (.inl rfl))
    · obtain ⟨below', rfl⟩ := Nat.exists_eq_add_of_le' (Nat.one_le_of_lt hbudget)
      obtain ⟨plans, hplans, rfl⟩ := isCallOn_iff.mp hcall
      refine isPlan_iff.mpr (.inr (.inr ⟨below', rfl, op,
        (k.producers_sublist type hgranted).subset hop, isCallOn_iff.mpr ⟨plans, ?_, rfl⟩⟩))
      exact hplans.imp fun slot plan hplan =>
        hbelow below rfl slot.1 hplan (Nat.le_of_succ_le_succ hbudget) (.inr rfl)

end

/-- More depth and more access give more blocks. -/
theorem Subject.blockCount_mono {k : Catalog} {tested : ClassName} {depth depth' : Nat}
    {grantedTested grantedTested' grantedUsed grantedUsed' : Access} (hdepth : depth ≤ depth')
    (htested : grantedTested'.rank ≤ grantedTested.rank)
    (hused : grantedUsed'.rank ≤ grantedUsed.rank) :
    blockCount k tested depth grantedTested grantedUsed ≤
      blockCount k tested depth' grantedTested' grantedUsed' :=
  sum_map_le_of_sublist (testedOperations_sublist k tested htested) <|
    Catalog.callCount_mono fun _ _ => Catalog.planCount_mono hused hdepth (.inr rfl)

/-- **Spaces only grow** with the budget, the access that is granted, and the demand for `null`.
Whatever was asked before, the size of the tree of a type does not get smaller, cut off or not, and
if there are not too many plans for the larger tree, then it holds every plan of the smaller one at
some index. The size of a subject does not get smaller with its depth and the access that is granted
for tested and for used operations. -/
theorem size_le_and_offers (k : Catalog) :
    (∀ (granted granted' : Access) (requests requests' : List Sharing.Request)
      (budget budget' : Nat) (type : TypeExpr) (demand demand' : Demand),
      granted'.rank ≤ granted.rank → budget ≤ budget' → demand' = .all ∨ demand' = demand →
      (Sharing.treeAfter k granted requests budget type demand).size ≤
        (Sharing.treeAfter k granted' requests' budget' type demand').size ∧
      (k.planCount granted' budget' type demand' ≤ maxCount →
        ∀ index < (Sharing.treeAfter k granted requests budget type demand).size,
          ∃ e, (Sharing.treeAfter k granted requests budget type demand).get index = .ok e ∧
            (Sharing.treeAfter k granted' requests' budget' type demand').Offers e)) ∧
    ∀ (tested : ClassName) (depth depth' : Nat)
      (grantedTested grantedTested' grantedUsed grantedUsed' : Access),
      1 ≤ depth → depth ≤ depth' → grantedTested'.rank ≤ grantedTested.rank →
      grantedUsed'.rank ≤ grantedUsed.rank →
      ∃ c c', Subject.ofCatalog k tested depth grantedTested grantedUsed = .ok c ∧
        Subject.ofCatalog k tested depth' grantedTested' grantedUsed' = .ok c' ∧
        c.size ≤ c'.size := by
  constructor
  · intro granted granted' requests requests' budget budget' type demand demand' hgranted hbudget
      hdemand
    rw [Sharing.treeAfter_eq_tree, Sharing.treeAfter_eq_tree]
    constructor
    · rw [Fresh.size_tree, Fresh.size_tree]
      exact clamp_mono (Catalog.planCount_mono hgranted hbudget hdemand)
    · intro hcount index hindex
      obtain ⟨e, he, hplan⟩ := Fresh.serves_tree k granted budget type demand index hindex
      exact ⟨e, he, Fresh.offers_tree (hplan.mono hgranted hbudget hdemand) hcount⟩
  · intro tested depth depth' grantedTested grantedTested' grantedUsed grantedUsed' hpos hdepth
      htested hused
    obtain ⟨depth, rfl⟩ := Nat.exists_eq_add_of_le' hpos
    obtain ⟨depth', rfl⟩ := Nat.exists_eq_add_of_le' (hpos.trans hdepth)
    refine ⟨_, _, Subject.ofCatalog_succ .., Subject.ofCatalog_succ .., ?_⟩
    rw [Subject.size_fresh, Subject.size_fresh]
    exact clamp_mono (Subject.blockCount_mono (Nat.le_of_succ_le_succ hdepth) htested hused)

/-- The three numbers that are plans without any call are among the thirty plans with one call, and
the class has no fewer blocks with a depth of four than with a depth of one. -/
theorem Mixer.size_le_and_offers_number :
    catalog.planCount .own 1 (.primitive .int) .all ≤ maxCount ∧
    (∀ index < 3, ∃ e,
      (Sharing.treeAfter catalog .global [] 0 (.primitive .int) .nonNull).get index = .ok e ∧
        (Sharing.treeAfter catalog .own [] 1 (.primitive .int) .all).Offers e) ∧
    ∃ c c', Subject.ofCatalog catalog name 1 .global .global = .ok c ∧
      Subject.ofCatalog catalog name 4 .own .own = .ok c' ∧ c.size ≤ c'.size := by
  have hcount : catalog.planCount .own 1 (.primitive .int) .all ≤ maxCount := by decide
  have hsize :
      (Sharing.treeAfter catalog .global [] 0 (.primitive .int) .nonNull).size = 3 := by
    rw [Sharing.treeAfter_eq_tree, Fresh.size_tree]
    rfl
  obtain ⟨htrees, hsubjects⟩ := size_le_and_offers catalog
  obtain ⟨-, hkept⟩ := htrees .global .own [] [] 0 1 (.primitive .int) .nonNull .all (by decide)
    (by decide) (.inl rfl)
  rw [hsize] at hkept
  exact ⟨hcount, hkept hcount, hsubjects name 1 4 .global .own .global .own (by decide) (by decide)
    (by decide) (by decide)⟩

end CallPlan

import CallPlan.Proofs.Subtyping

/-!
# Searching the supertypes of a class

`Catalog.reaches` uses up the entries of a list. A search can as well leave the catalogue alone and
keep a list of the classes that it has met. In each round it takes the class on top of its stack,
and if it meets the class for the first time, then the supertypes of the class go on the stack.

However the supertypes are declared, in circles, twice or without entries, every round brings the
search one step nearer to its end (`Search.workLeft_next`): an entry puts its supertypes on the
stack at most once. No round changes whether a chain leads to the target from what is pending, as
long as the chain keeps clear of the classes that were met (`Search.leads_next_iff`). So the search
gives the answer of `Catalog.isSubtype`, and within a number of rounds that is known beforehand
(`Catalog.search_decides_subtypes`).
-/

namespace CallPlan

/-- A state of the search. -/
structure Search where
  /-- The stack of classes to look at, the next one first. -/
  pending : List ClassName
  /-- The classes that were met. -/
  seen : List ClassName

namespace Search

/-- The search that starts at a class. -/
def startingAt (c : ClassName) : Search := ⟨[c], []⟩

/-- One round: the answer, or the state in which the search goes on. The supertypes of a class go on
the stack one after the other, so that the last one is the next to look at. -/
def next (k : Catalog) (target : ClassName) : Search → Bool ⊕ Search
  | ⟨[], _⟩ => .inl false
  | ⟨c :: pending, seen⟩ =>
    if c = target then .inl true
    else if c ∈ seen then .inr ⟨pending, seen⟩
    else match k.find? c with
      | none => .inr ⟨pending, c :: seen⟩
      | some e => .inr ⟨e.supertypes.reverse ++ pending, c :: seen⟩

/-- The answer, if the search has one after that many rounds. -/
def answerIn (k : Catalog) (target : ClassName) : Nat → Search → Option Bool
  | 0, _ => none
  | rounds + 1, s =>
    match s.next k target with
    | .inl answer => some answer
    | .inr later => answerIn k target rounds later

/-- The entries of the classes that were not met yet. -/
def unseen (k : Catalog) (s : Search) : List Entry :=
  k.entries.filter (·.name ∉ s.seen)

/-- How many classes are still to be taken from the stack at most. -/
def workLeft (k : Catalog) (s : Search) : Nat :=
  s.pending.length + ((s.unseen k).map (·.supertypes.length)).sum

/-- A chain leads to the target from a pending class, without the entries of classes that were
met. -/
def Leads (k : Catalog) (target : ClassName) (s : Search) : Prop :=
  ∃ c ∈ s.pending, Relation.ReflTransGen (Declares (s.unseen k)) c target

variable {k : Catalog} {target : ClassName} {s later : Search}

/-! ### One round -/

theorem nodup_unseen (k : Catalog) (s : Search) : ((s.unseen k).map Entry.name).Nodup :=
  k.nodup.sublist (List.filter_sublist.map _)

/-- A class that was met, or is not catalogued, has no entry left. -/
theorem name_ne_of_mem_unseen {c : ClassName} (h : c ∈ s.seen ∨ k.find? c = none) :
    ∀ e ∈ s.unseen k, e.name ≠ c := by
  rintro e he rfl
  obtain ⟨hentry, hunseen⟩ := List.mem_filter.mp he
  rcases h with hseen | hmissing
  · exact of_decide_eq_true hunseen hseen
  · rw [Catalog.find?_eq_some_iff.mpr ⟨hentry, rfl⟩] at hmissing
    cases hmissing

/-- To meet a class without an entry changes nothing. -/
theorem unseen_cons_of_find?_eq_none {c : ClassName} {pending later seen : List ClassName}
    (h : k.find? c = none) :
    (Search.mk later (c :: seen)).unseen k = (Search.mk pending seen).unseen k := by
  refine List.filter_congr fun e he => ?_
  have hne : e.name ≠ c := by
    rintro rfl
    rw [Catalog.find?_eq_some_iff.mpr ⟨he, rfl⟩] at h
    cases h
  simp [hne]

/-- To meet a class for the first time uses up its entry. -/
theorem perm_unseen {c : ClassName} {e : Entry} {pending later seen : List ClassName}
    (hfound : k.find? c = some e) (hseen : c ∉ seen) :
    ((Search.mk pending seen).unseen k).Perm (e :: (Search.mk later (c :: seen)).unseen k) := by
  obtain ⟨hentry, rfl⟩ := Catalog.find?_eq_some_iff.mp hfound
  have hentries : k.entries.Nodup := .of_map _ k.nodup
  have hgone : e ∉ (Search.mk later (e.name :: seen)).unseen k := by simp [unseen]
  refine (List.perm_ext_iff_of_nodup (hentries.filter _)
    (List.nodup_cons.mpr ⟨hgone, hentries.filter _⟩)).mpr fun d => ?_
  by_cases hname : d.name = e.name
  · have hsame : d ∈ k.entries ↔ d = e :=
      ⟨fun hd => List.inj_on_of_nodup_map k.nodup hd hentry hname, fun hd => hd ▸ hentry⟩
    simp [unseen, hname, hseen, hsame]
  · have hne : d ≠ e := fun hd => hname (congrArg Entry.name hd)
    simp [unseen, hname, hne]

/-- **What one round can do** when it gives no answer: drop a class that has no entry left, or
replace a class by the supertypes that its entry declares, and use up the entry. -/
theorem next_cases (h : s.next k target = .inr later) :
    ∃ c pending, s.pending = c :: pending ∧ c ≠ target ∧
      (((∀ e ∈ s.unseen k, e.name ≠ c) ∧ later.pending = pending ∧
          later.unseen k = s.unseen k) ∨
        ∃ e, e.name = c ∧ (s.unseen k).Perm (e :: later.unseen k) ∧
          later.pending = e.supertypes.reverse ++ pending) := by
  obtain ⟨pending, seen⟩ := s
  cases pending with
  | nil => cases h
  | cons c pending =>
    simp only [next] at h
    split_ifs at h with htarget hseen
    · exact ⟨c, pending, rfl, htarget,
        .inl ⟨name_ne_of_mem_unseen (.inl hseen), by rw [← Sum.inr.inj h], by
          rw [← Sum.inr.inj h]; rfl⟩⟩
    · refine ⟨c, pending, rfl, htarget, ?_⟩
      split at h
      · rename_i hmissing
        obtain rfl := Sum.inr.inj h
        exact .inl ⟨name_ne_of_mem_unseen (.inr hmissing), rfl,
          unseen_cons_of_find?_eq_none hmissing⟩
      · rename_i e hfound
        obtain rfl := Sum.inr.inj h
        exact .inr ⟨e, (Catalog.find?_eq_some_iff.mp hfound).2, perm_unseen hfound hseen, rfl⟩

/-- Every round that gives no answer takes one class from the stack for good. -/
theorem workLeft_next (h : s.next k target = .inr later) :
    later.workLeft k + 1 = s.workLeft k := by
  obtain ⟨c, pending, hpending, -, ⟨-, hlater, hunseen⟩ | ⟨e, -, hperm, hlater⟩⟩ := next_cases h
  · rw [workLeft, workLeft, hpending, hlater, hunseen, List.length_cons]
    omega
  · have hsum := (hperm.map (·.supertypes.length)).sum_eq
    rw [List.map_cons, List.sum_cons] at hsum
    rw [workLeft, workLeft, hpending, hlater, hsum, List.length_append, List.length_reverse,
      List.length_cons]
    omega

/-- No round that gives no answer changes whether the search leads to the target. -/
theorem leads_next_iff (h : s.next k target = .inr later) :
    later.Leads k target ↔ s.Leads k target := by
  obtain ⟨c, pending, hpending, hne, ⟨hgone, hlater, hunseen⟩ | ⟨e, rfl, hperm, hlater⟩⟩ :=
    next_cases h
  · rw [Leads, Leads, hpending, hlater, hunseen,
      Catalog.exists_chain_iff_of_not_declared hgone hne]
  · rw [Leads, Leads, hpending, hlater,
      Catalog.exists_chain_iff_of_perm (nodup_unseen k s) hperm hne]
    simp only [List.mem_append, List.mem_reverse]

/-- An answer is right. -/
theorem leads_iff_of_next_eq_inl {answer : Bool} (h : s.next k target = .inl answer) :
    answer = true ↔ s.Leads k target := by
  obtain ⟨pending, seen⟩ := s
  cases pending with
  | nil =>
    obtain rfl := Sum.inl.inj h
    simp [Leads]
  | cons c pending =>
    simp only [next] at h
    split_ifs at h with htarget
    · obtain rfl := Sum.inl.inj h
      exact ⟨fun _ => ⟨c, List.mem_cons_self, htarget ▸ .refl⟩, fun _ => rfl⟩
    · split at h <;> cases h

/-! ### Whole searches -/

/-- With enough rounds there is an answer, and it is right. -/
theorem exists_answerIn (target : ClassName) {rounds : Nat} (h : s.workLeft k < rounds) :
    ∃ answer, answerIn k target rounds s = some answer ∧ (answer = true ↔ s.Leads k target) := by
  induction rounds generalizing s with
  | zero => exact absurd h (Nat.not_lt_zero _)
  | succ rounds ih =>
    rw [answerIn]
    cases hnext : s.next k target with
    | inl answer => exact ⟨answer, rfl, leads_iff_of_next_eq_inl hnext⟩
    | inr later =>
      have hwork := workLeft_next hnext
      obtain ⟨answer, hanswer, hleads⟩ := ih (s := later) (by omega)
      exact ⟨answer, hanswer, hleads.trans (leads_next_iff hnext)⟩

@[simp]
theorem unseen_startingAt (k : Catalog) (c : ClassName) :
    (startingAt c).unseen k = k.entries := by
  simp [unseen, startingAt]

/-- A search that starts at a class leads to the supertypes of the class. -/
theorem leads_startingAt_iff {c : ClassName} :
    (startingAt c).Leads k target ↔ Relation.ReflTransGen (Declares k.entries) c target := by
  simp [Leads, startingAt, unseen]

end Search

/-- **Subtypes are found by searching.** From any class and for any target, the search with a stack
and a list of the classes met ends, at the latest in the second round after as many rounds as
supertypes are declared in the catalogue, and answers as `isSubtype` does. The answer is yes exactly
if a chain of declared supertypes, perhaps an empty one, leads from the class to the target. So to
be a subtype is reflexive and transitive. -/
theorem Catalog.search_decides_subtypes (k : Catalog) :
    (∀ (sub super : ClassName) (more : Nat),
      (Search.startingAt sub).answerIn k super
        ((k.entries.map (·.supertypes.length)).sum + 2 + more) = some (k.isSubtype sub super)) ∧
    (∀ sub super : ClassName,
      k.isSubtype sub super = true ↔ Relation.ReflTransGen (Declares k.entries) sub super) ∧
    IsPreorder ClassName (k.isSubtype · · = true) := by
  refine ⟨fun sub super more => ?_, fun sub super => k.isSubtype_iff, ?_⟩
  · have hwork : (Search.startingAt sub).workLeft k <
        (k.entries.map (·.supertypes.length)).sum + 2 + more := by
      rw [Search.workLeft, Search.unseen_startingAt, Search.startingAt, List.length_singleton]
      omega
    obtain ⟨answer, hanswer, hright⟩ := Search.exists_answerIn super hwork
    rw [Search.leads_startingAt_iff, ← k.isSubtype_iff] at hright
    rw [hanswer, Bool.eq_iff_iff.mpr hright]
  · simp only [k.isSubtype_iff]
    infer_instance

/-! ### Two classes above each other -/

namespace Circle

def upper : ClassName := .topLevel "demo" "Upper"

def lower : ClassName := .topLevel "demo" "Lower"

/-- Each of two classes is declared above the other one, and above itself. One of them is also below
a class without an entry, and that twice. -/
def catalog : Catalog where
  entries :=
    [{ name := upper, supertypes := [lower, upper] },
     { name := lower, supertypes := [.core "Object", upper, lower, .core "Object"] }]
  nodup := by decide
  wellFormed := by simp [Entry.WellFormed]

example : (Search.startingAt upper).answerIn catalog (.core "Object") 8 = some true := by decide

example : (Search.startingAt upper).answerIn catalog (.core "String") 8 = some false := by decide

end Circle

end CallPlan

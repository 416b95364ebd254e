import CallPlan.Proofs.TestClasses

/-!
# Numbering test classes

Where the name of a test class is taken, all test classes of the class under test are numbered anew.
One counter serves all of them: it tries a number in every round, and goes to the next test class
when the name is free (`Numbering.round`). No bound is set to the rounds. Still every round brings
the numbering one step nearer to its end, because either a test class gets its number or one of the
taken names is left behind (`Numbering.workLeft_round`).

So the test classes get the free numbers one after the other, from the smallest one
(`TestClass.renumber_eq_mapIdx`), and the names that are left differ from each other and from those
taken (`TestClass.avoid_of_split`).
-/

namespace CallPlan

namespace TestClass

/-! ### Free numbers -/

/-- The number leads to a name that is not taken. -/
def IsFree (taken : List String) (tested : ClassName) (n : Nat) : Prop :=
  0 < n ∧ nameWith tested n ∉ taken

instance (taken : List String) (tested : ClassName) : DecidablePred (IsFree taken tested) :=
  fun n => inferInstanceAs (Decidable (0 < n ∧ nameWith tested n ∉ taken))

/-- The numbers from `next` on whose names are taken. -/
def takenFrom (taken : List String) (tested : ClassName) (next : Nat) : Set Nat :=
  {n | next ≤ n ∧ nameWith tested n ∈ taken}

variable {taken : List String} {tested : ClassName} {next : Nat}

/-- There are no more of them than names. -/
theorem finite_takenFrom (hnext : 0 < next) :
    (takenFrom taken tested next).Finite ∧ (takenFrom taken tested next).ncard ≤ taken.length := by
  have hmaps : ∀ n ∈ takenFrom taken tested next,
      nameWith tested n ∈ (taken.toFinset : Set String) := fun n hn => by simpa using hn.2
  -- zero and negative numbers would all lead to one name
  have hinjective : Set.InjOn (fun n : Nat => nameWith tested n) (takenFrom taken tested next) := by
    intro m hm n hn hsame
    have hm := hm.1
    have hn := hn.1
    exact_mod_cast nameWith_injective (by omega) (by omega) hsame
  have hfinite : (taken.toFinset : Set String).Finite := taken.toFinset.finite_toSet
  refine ⟨Set.Finite.of_injOn hmaps hinjective hfinite, ?_⟩
  calc (takenFrom taken tested next).ncard
      ≤ (taken.toFinset : Set String).ncard :=
        Set.ncard_le_ncard_of_injOn _ hmaps hinjective hfinite
    _ = taken.toFinset.card := Set.ncard_coe_finset _
    _ ≤ taken.length := taken.toFinset_card_le

theorem notMem_takenFrom_succ : next ∉ takenFrom taken tested (next + 1) :=
  fun h => absurd h.1 (Nat.not_succ_le_self next)

/-- A number whose name is taken is one of the taken numbers from there on. -/
theorem takenFrom_of_mem (h : nameWith tested next ∈ taken) :
    takenFrom taken tested next = insert next (takenFrom taken tested (next + 1)) := by
  ext n
  constructor
  · rintro ⟨hle, htaken⟩
    exact hle.eq_or_lt.imp Eq.symm fun hlt => ⟨hlt, htaken⟩
  · rintro (rfl | ⟨hlt, htaken⟩)
    · exact ⟨le_rfl, h⟩
    · exact ⟨Nat.le_of_succ_le hlt, htaken⟩

theorem takenFrom_of_notMem (h : nameWith tested next ∉ taken) :
    takenFrom taken tested next = takenFrom taken tested (next + 1) := by
  ext n
  refine and_congr_left fun htaken => ⟨fun hle => lt_of_le_of_ne hle ?_, Nat.le_of_succ_le⟩
  rintro rfl
  exact h htaken

/-- There is always one more free number. -/
theorem infinite_isFree (taken : List String) (tested : ClassName) :
    ({n | IsFree taken tested n}).Infinite := by
  have hcover : Set.Ici 1 ⊆ {n | IsFree taken tested n} ∪ takenFrom taken tested 1 := by
    intro n hn
    by_cases htaken : nameWith tested n ∈ taken
    · exact .inr ⟨hn, htaken⟩
    · exact .inl ⟨hn, htaken⟩
  intro hfinite
  exact Set.Ici_infinite 1 ((hfinite.union (finite_takenFrom one_pos).1).subset hcover)

/-- A free number is found at once. -/
theorem firstFree_of_notMem (hnext : 0 < next) (hfree : nameWith tested next ∉ taken) :
    firstFree taken tested taken.length next = next :=
  (isLeast_firstFree taken tested hnext).unique ⟨⟨le_rfl, hfree⟩, fun _ hn => hn.1⟩

/-- A number whose name is taken is left behind. -/
theorem firstFree_of_mem (hnext : 0 < next) (htaken : nameWith tested next ∈ taken) :
    firstFree taken tested taken.length next = firstFree taken tested taken.length (next + 1) := by
  have hset : {n : Nat | next + 1 ≤ n ∧ nameWith tested n ∉ taken} =
      {n | next ≤ n ∧ nameWith tested n ∉ taken} := by
    ext n
    refine and_congr_left fun hfree => ⟨Nat.le_of_succ_le, fun hle => lt_of_le_of_ne hle ?_⟩
    rintro rfl
    exact hfree htaken
  exact (isLeast_firstFree taken tested hnext).unique
    (hset ▸ isLeast_firstFree taken tested (Nat.succ_pos next))

/-- The search for a free number finds the next one. -/
theorem firstFree_eq_nth (hnext : 0 < next) :
    firstFree taken tested taken.length next =
      Nat.nth (IsFree taken tested) (Nat.count (IsFree taken tested) next) := by
  have hleast := isLeast_firstFree taken tested hnext
  have hset : {n : Nat | next ≤ n ∧ nameWith tested n ∉ taken} =
      {n | IsFree taken tested n ∧ next ≤ n} := by
    ext n
    exact ⟨fun h => ⟨⟨hnext.trans_le h.1, h.2⟩, h.1⟩, fun h => ⟨h.2, h.1.2⟩⟩
  rw [hset] at hleast
  rw [Nat.nth_count_eq_sInf, hleast.csInf_eq]

/-- Test classes get the free numbers one after the other. -/
theorem renumber_eq_mapIdx {classes : List TestClass} (htested : ∀ t ∈ classes, t.tested = tested)
    (hnext : 0 < next) :
    renumber taken next classes = classes.mapIdx fun k t =>
      { t with
        suffix := Nat.nth (IsFree taken tested) (Nat.count (IsFree taken tested) next + k) } := by
  induction classes generalizing next with
  | nil => rfl
  | cons t classes ih =>
    obtain ⟨ht, hclasses⟩ := List.forall_mem_cons.mp htested
    have hcount : Nat.count (IsFree taken tested)
        (Nat.nth (IsFree taken tested) (Nat.count (IsFree taken tested) next) + 1) =
          Nat.count (IsFree taken tested) next + 1 :=
      Nat.count_nth_succ_of_infinite (infinite_isFree taken tested) _
    have hnumber : firstFree taken t.tested taken.length next =
        Nat.nth (IsFree taken tested) (Nat.count (IsFree taken tested) next) := by
      rw [ht, firstFree_eq_nth hnext]
    rw [renumber, hnumber, ih hclasses (Nat.succ_pos _), hcount, List.mapIdx_cons]
    simp only [Nat.add_zero, Nat.add_assoc, Nat.add_comm 1]

theorem count_isFree_one (taken : List String) (tested : ClassName) :
    Nat.count (IsFree taken tested) 1 = 0 := by
  simp [Nat.count_succ, IsFree]

end TestClass

/-! ### The counter -/

/-- A state of the numbering. -/
structure Numbering where
  /-- The test classes that have their numbers. -/
  numbered : List TestClass
  /-- The test classes to number, the next one first. -/
  pending : List TestClass
  /-- The number to try next. -/
  next : Nat

namespace Numbering

open TestClass

/-- The numbering that starts from one. -/
def ofClasses (classes : List TestClass) : Numbering := ⟨[], classes, 1⟩

/-- One round: all test classes with their numbers, or the state in which the numbering goes on. -/
def round (taken : List String) : Numbering → List TestClass ⊕ Numbering
  | ⟨numbered, [], _⟩ => .inl numbered
  | ⟨numbered, t :: pending, n⟩ =>
    let tried := { t with suffix := n }
    if taken.contains tried.name then .inr ⟨numbered, tried :: pending, n + 1⟩
    else .inr ⟨numbered ++ [tried], pending, n + 1⟩

/-- The test classes, if the numbering is finished after that many rounds. -/
def resultIn (taken : List String) : Nat → Numbering → Option (List TestClass)
  | 0, _ => none
  | rounds + 1, s =>
    match s.round taken with
    | .inl classes => some classes
    | .inr later => resultIn taken rounds later

/-- The test classes to number are those of one class under test, and so far no number was tried but
positive ones. -/
structure IsFor (s : Numbering) (tested : ClassName) : Prop where
  tested : ∀ t ∈ s.pending, t.tested = tested
  pos : 0 < s.next

/-- How many rounds are still to come at most. -/
noncomputable def workLeft (s : Numbering) (taken : List String) (tested : ClassName) : Nat :=
  s.pending.length + (takenFrom taken tested s.next).ncard

/-- The test classes as they are numbered in the end. -/
def outcome (s : Numbering) (taken : List String) : List TestClass :=
  s.numbered ++ renumber taken s.next s.pending

variable {taken : List String} {tested : ClassName} {s later : Numbering}

/-- **What one round can do** when it does not finish: leave a taken name behind, or give a test
class the number that the search for a free one finds. -/
theorem round_cases (hs : s.IsFor tested) (h : s.round taken = .inr later) :
    later.IsFor tested ∧ later.next = s.next + 1 ∧ later.outcome taken = s.outcome taken ∧
      ((nameWith tested s.next ∈ taken ∧ later.pending.length = s.pending.length) ∨
        (nameWith tested s.next ∉ taken ∧ later.pending.length + 1 = s.pending.length)) := by
  obtain ⟨numbered, pending, next⟩ := s
  cases pending with
  | nil => cases h
  | cons t pending =>
    obtain ⟨ht, hpending⟩ := List.forall_mem_cons.mp hs.tested
    simp only [round, name, List.contains_iff_mem] at h
    split_ifs at h with htaken
    · obtain rfl := Sum.inr.inj h
      refine ⟨⟨List.forall_mem_cons.mpr ⟨ht, hpending⟩, Nat.succ_pos next⟩, rfl, ?_,
        .inl ⟨ht ▸ htaken, rfl⟩⟩
      simp only [outcome, renumber, firstFree_of_mem hs.pos htaken]
    · obtain rfl := Sum.inr.inj h
      refine ⟨⟨hpending, Nat.succ_pos next⟩, rfl, ?_, .inr ⟨ht ▸ htaken, rfl⟩⟩
      simp only [outcome, renumber, firstFree_of_notMem hs.pos htaken, List.append_assoc,
        List.singleton_append]

/-- The round that ends the numbering gives the test classes as they are numbered in the end. -/
theorem eq_outcome_of_round_eq_inl {classes : List TestClass} (h : s.round taken = .inl classes) :
    classes = s.outcome taken := by
  obtain ⟨numbered, pending, next⟩ := s
  cases pending with
  | nil =>
    obtain rfl := Sum.inl.inj h
    exact (List.append_nil _).symm
  | cons t pending =>
    simp only [round] at h
    split at h <;> cases h

/-- Every round that does not finish brings the numbering one step nearer to its end. -/
theorem workLeft_round (hs : s.IsFor tested) (h : s.round taken = .inr later) :
    later.workLeft taken tested + 1 = s.workLeft taken tested := by
  obtain ⟨-, hnext, -, hcases⟩ := round_cases hs h
  rw [workLeft, workLeft, hnext]
  rcases hcases with ⟨htaken, hpending⟩ | ⟨hfree, hpending⟩
  · rw [takenFrom_of_mem htaken, Set.ncard_insert_of_notMem notMem_takenFrom_succ
      (finite_takenFrom (Nat.succ_pos s.next)).1, hpending]
    omega
  · rw [takenFrom_of_notMem hfree]
    omega

/-! ### Whole numberings -/

/-- With enough rounds the numbering is finished. -/
theorem resultIn_eq {rounds : Nat} (hs : s.IsFor tested)
    (h : s.workLeft taken tested < rounds) : resultIn taken rounds s = some (s.outcome taken) := by
  induction rounds generalizing s with
  | zero => exact absurd h (Nat.not_lt_zero _)
  | succ rounds ih =>
    rw [resultIn]
    cases hround : s.round taken with
    | inl classes => exact congrArg some (eq_outcome_of_round_eq_inl hround)
    | inr later =>
      have hwork := workLeft_round hs hround
      obtain ⟨hlater, -, houtcome, -⟩ := round_cases hs hround
      rw [← houtcome]
      exact ih hlater (by omega)

end Numbering

/-! ### Avoiding names -/

namespace TestClass

/-- The test classes with names that are not taken, if they are found after that many rounds. -/
def avoidIn (taken : List String) (rounds : Nat) (classes : List TestClass) :
    Option (List TestClass) :=
  if classes.all fun t => !taken.contains t.name then some classes
  else Numbering.resultIn taken rounds (.ofClasses classes)

variable {tested : ClassName} {classes : List TestClass}

/-- The numbering ends within as many rounds as there are names taken and test classes, and one
more. -/
theorem avoidIn_eq (htested : ∀ t ∈ classes, t.tested = tested) (taken : List String) {rounds : Nat}
    (h : taken.length + classes.length < rounds) :
    avoidIn taken rounds classes = some (avoid taken classes) := by
  have hwork : (Numbering.ofClasses classes).workLeft taken tested < rounds := by
    have htaken : (takenFrom taken tested 1).ncard ≤ taken.length := (finite_takenFrom one_pos).2
    simp only [Numbering.workLeft, Numbering.ofClasses]
    omega
  rw [avoidIn, avoid, Numbering.resultIn_eq ⟨htested, one_pos⟩ hwork]
  split <;> rfl

/-- Test classes keep their numbers if no name is taken, and else have the free numbers in order. -/
theorem avoid_eq (htested : ∀ t ∈ classes, t.tested = tested) (taken : List String) :
    avoid taken classes =
      if ∀ t ∈ classes, t.name ∉ taken then classes
      else classes.mapIdx fun k t => { t with suffix := Nat.nth (IsFree taken tested) k } := by
  rw [avoid, renumber_eq_mapIdx htested one_pos, count_isFree_one]
  simp

/-- **Names that are not taken.** The test classes that the blocks of a class are split into are
numbered anew if one of their names is taken, and otherwise left as they are. With a counter that
all of them share the numbering comes to an end, in one round for each of them and one more for each
taken name at most. Then the numbers are the smallest ones that are free, in order, of which there
are always more. The blocks stay where they are, the names differ from each other, and none of them
is taken. -/
theorem avoid_of_split {blocks : List Block} {most : Nat} {filtering : Bool}
    (h : split tested blocks most filtering = .ok classes) (taken : List String) :
    (∀ more, avoidIn taken (taken.length + classes.length + 1 + more) classes =
        some (avoid taken classes)) ∧
      {n | IsFree taken tested n}.Infinite ∧
      avoid taken classes =
        (if ∀ t ∈ classes, t.name ∉ taken then classes
        else classes.mapIdx fun k t => { t with suffix := Nat.nth (IsFree taken tested) k }) ∧
      (avoid taken classes).map TestClass.blocks = classes.map TestClass.blocks ∧
      ((avoid taken classes).map name).Nodup ∧
      ∀ t ∈ avoid taken classes, t.name ∉ taken := by
  have hspreads := spreads_of_split h
  obtain ⟨havoid, hfree⟩ := hspreads.avoid taken
  refine ⟨fun more => avoidIn_eq hspreads.tested taken (by omega), infinite_isFree taken tested,
    avoid_eq hspreads.tested taken, ?_, havoid.names, hfree⟩
  rw [avoid]
  split
  · rfl
  · exact map_renumber (fun _ _ => rfl) 1 classes

end TestClass

/-! ### Two test classes and two taken names -/

namespace Bell

/-- The class under test. -/
def tested : ClassName := .topLevel "demo" "Bell"

/-- A method without parameters. -/
def ring : Operation where
  owner := tested
  kind := .method "ring" .void true false
  parameters := []

/-- The call of the method. -/
def block : Block where
  operation := ring
  statements := [.run (.call ring none [])]
  names := ⟨[]⟩

/-- Three calls, no more than two in one test class. -/
def classes : List TestClass :=
  [{ TestClass.ofBlocks tested [block, block] true with suffix := 1 },
   { TestClass.ofBlocks tested [block] true with suffix := 2 }]

/-- The first name is in the way of the first test class, the second one in that of the counter. -/
def taken : List String := ["BellTest1", "BellTest3"]

/-- After two taken names and two free ones the numbering is finished. -/
theorem avoid_of_split_calls :
    TestClass.split tested [block, block, block] 2 true = .ok classes ∧
      TestClass.avoidIn taken 5 classes = some (TestClass.avoid taken classes) ∧
      (TestClass.avoid taken classes).map TestClass.name = ["BellTest2", "BellTest4"] ∧
      ((TestClass.avoid taken classes).map TestClass.name).Nodup := by
  have hsplit : TestClass.split tested [block, block, block] 2 true = .ok classes := by
    simp [TestClass.split, pieces, classes]
  obtain ⟨hrounds, -, -, -, hnames, -⟩ := TestClass.avoid_of_split hsplit taken
  exact ⟨hsplit, hrounds 0, by decide +kernel, hnames⟩

end Bell

end CallPlan

import CallPlan.Render.Suite
import Mathlib

/-!
# Test classes of one package

The blocks of a class are spread over test classes of limited size with different names
(`TestClass.spreads_of_split`). Other classes of the package may have taken some of these names;
then the test classes are numbered anew, and as a number is told by the name, one of so many
numbers is free (`TestClass.isLeast_firstFree`). So the names differ from each other and from those
taken (`TestClass.Spreads.avoid`), and no name is that of the suite. A test class has a test
method for each of its blocks, and a suite adds the classes it is given.
-/

namespace CallPlan

namespace TestClass

/-! ### Names -/

/-- A positive number is told by the name that it leads to. -/
theorem nameWith_injective {tested : ClassName} {m n : Int} (hm : 0 < m) (hn : 0 < n)
    (h : nameWith tested m = nameWith tested n) : m = n := by
  have hcharacters := congrArg String.toList h
  simp only [nameWith, if_pos hm, if_pos hn, String.toList_append, List.append_cancel_left_eq,
    Int.toString_eq_repr] at hcharacters
  exact Int.repr_injective (String.toList_injective hcharacters)

/-- No test class has the name of the suite. -/
theorem nameWith_ne_suiteName (tested : ClassName) (n : Int) : nameWith tested n ≠ Suite.name := by
  intro h
  have hmem : 'T' ∈ (nameWith tested n).toList := by simp [nameWith]
  rw [h] at hmem
  simp [Suite.name] at hmem

/-- Behind the name of the class under test there are letters and digits only. -/
theorem isAlphanum_of_mem_ending {n : Int} {c : Char}
    (h : c ∈ "Test".toList ++ (if 0 < n then toString n else "").toList) : c.isAlphanum = true := by
  rcases List.mem_append.mp h with hword | hdigit
  · have hletters : ∀ d ∈ ['T', 'e', 's', 't'], d.isAlphanum = true := by simp
    exact hletters c (by simpa using hword)
  · split at hdigit
    · rename_i hpositive
      rw [Int.toString_eq_repr, Int.repr_eq_if, if_pos hpositive.le, Nat.toList_repr] at hdigit
      have hisDigit := Nat.isDigit_of_mem_toDigits (by decide) (by decide) hdigit
      rw [Char.isAlphanum, hisDigit, Bool.or_true]
    · simp at hdigit

/-- Besides the characters of the class under test a name has letters and digits only. -/
theorem mem_nameWith {tested : ClassName} {n : Int} {c : Char}
    (h : c ∈ (nameWith tested n).toList) :
    c ∈ tested.simpleName.toList ∨ c.isAlphanum = true := by
  rw [nameWith, String.toList_append, String.toList_append, List.append_assoc] at h
  exact (List.mem_append.mp h).imp_right isAlphanum_of_mem_ending

/-! ### Free names -/

/-- The search goes on from its start over taken names, and it ends at a free name or after all of
its steps. -/
theorem firstFree_search (taken : List String) (tested : ClassName) (fuel start : Nat) :
    start ≤ firstFree taken tested fuel start ∧
      (∀ n, start ≤ n → n < firstFree taken tested fuel start → nameWith tested n ∈ taken) ∧
      (nameWith tested (firstFree taken tested fuel start) ∉ taken ∨
        firstFree taken tested fuel start = start + fuel) := by
  induction fuel generalizing start with
  | zero => exact ⟨le_rfl, fun n hstart hn => absurd hstart hn.not_ge, .inr rfl⟩
  | succ fuel ih =>
    rw [firstFree]
    split
    · rename_i htaken
      obtain ⟨hle, hall, hend⟩ := ih (start + 1)
      refine ⟨by omega, fun n hstart hn => ?_, hend.imp_right fun hlast => by omega⟩
      rcases hstart.eq_or_lt with rfl | hlt
      · simpa using htaken
      · exact hall n hlt hn
    · rename_i hfree
      exact ⟨le_rfl, fun n hstart hn => absurd hstart hn.not_ge, .inl (by simpa using hfree)⟩

/-- With a step for each taken name, the search ends at the first free name. -/
theorem isLeast_firstFree (taken : List String) (tested : ClassName) {start : Nat}
    (hstart : 0 < start) :
    IsLeast {n : Nat | start ≤ n ∧ nameWith tested n ∉ taken}
      (firstFree taken tested taken.length start) := by
  obtain ⟨hle, hall, hend⟩ := firstFree_search taken tested taken.length start
  refine ⟨⟨hle, fun htaken => ?_⟩, fun n hn => not_lt.mp fun hlt => hn.2 (hall n hn.1 hlt)⟩
  have hlast := hend.resolve_left (not_not_intro htaken)
  -- otherwise there were more names in the list than it is long
  let names := (List.range' start (taken.length + 1)).map fun n : Nat => nameWith tested n
  have hnodup : names.Nodup := by
    refine List.Nodup.map_on (fun m hm n hn hsame => ?_) List.nodup_range'
    rw [List.mem_range'_1] at hm hn
    exact_mod_cast nameWith_injective (by omega) (by omega) hsame
  have hsubset : names ⊆ taken := by
    intro name hname
    obtain ⟨n, hn, rfl⟩ := List.mem_map.mp hname
    rw [List.mem_range'_1] at hn
    by_cases hlt : n < firstFree taken tested taken.length start
    · exact hall n hn.1 hlt
    · rwa [show n = firstFree taken tested taken.length start by omega]
  have hlength := (hnodup.subperm hsubset).length_le
  simp [names] at hlength

/-! ### Spreading blocks -/

/-- Test classes **spread** the blocks of a class: they hold the blocks in order, each of them some
but not more than `most`, and no two have the same name. -/
structure Spreads (tested : ClassName) (blocks : List Block) (most : Nat)
    (classes : List TestClass) : Prop where
  blocks : classes.flatMap TestClass.blocks = blocks
  tested : ∀ t ∈ classes, t.tested = tested
  size : ∀ t ∈ classes, 0 < t.blocks.length ∧ t.blocks.length ≤ most
  names : (classes.map name).Nodup

theorem names_nodup_of_suffixes {tested : ClassName} {classes : List TestClass}
    (htested : ∀ t ∈ classes, t.tested = tested) (hpositive : ∀ t ∈ classes, 0 < t.suffix)
    (hsuffixes : (classes.map suffix).Nodup) : (classes.map name).Nodup := by
  rw [List.Nodup, List.pairwise_map] at hsuffixes ⊢
  refine hsuffixes.imp_of_mem fun {t u} ht hu hne hsame => hne ?_
  rw [name, name, htested t ht, htested u hu] at hsame
  exact nameWith_injective (hpositive t ht) (hpositive u hu) hsame

/-- The pieces of the blocks, numbered from one, spread the blocks. -/
theorem spreads_numbered (tested : ClassName) (blocks : List Block) (most : Nat)
    (filtering : Bool) (hmost : 0 < most) :
    Spreads tested blocks most ((pieces (most - 1) blocks).zipIdx.map fun (piece, index) =>
      { ofBlocks tested piece filtering with suffix := index + 1 }) where
  blocks := by
    rw [List.flatMap_def, List.map_map]
    exact (congrArg List.flatten (List.zipIdx_map_fst 0 _)).trans (flatten_pieces _ _)
  tested := by
    rw [List.forall_mem_map]
    exact fun entry _ => rfl
  size := by
    rw [List.forall_mem_map]
    rintro ⟨piece, index⟩ hentry
    have hpiece := length_of_mem_pieces (List.fst_mem_of_mem_zipIdx hentry)
    exact ⟨hpiece.1, hpiece.2.trans (by omega)⟩
  names := by
    refine names_nodup_of_suffixes (List.forall_mem_map.mpr fun entry _ => rfl) ?_ ?_
    · rw [List.forall_mem_map]
      exact fun entry _ => Int.natCast_succ_pos _
    · have hindices : ((pieces (most - 1) blocks).zipIdx.map Prod.snd).Nodup := by
        rw [List.zipIdx_map_snd]
        exact List.nodup_range'
      have hinjective : Function.Injective fun index : Nat => (index + 1 : Int) :=
        fun m n hsame => by simpa using hsame
      have hsuffixes := hindices.map hinjective
      rw [List.map_map] at hsuffixes ⊢
      exact hsuffixes

/-- Splitting spreads the blocks. -/
theorem spreads_of_split {tested : ClassName} {blocks : List Block} {most : Nat} {filtering : Bool}
    {classes : List TestClass} (h : split tested blocks most filtering = .ok classes) :
    Spreads tested blocks most classes := by
  rw [split] at h
  split_ifs at h with hmost hempty hfew
  · obtain rfl := Except.ok.inj h
    obtain rfl := List.isEmpty_iff.mp hempty
    exact ⟨rfl, by simp, by simp, by simp⟩
  · obtain rfl := Except.ok.inj h
    have hpositive := List.length_pos_of_ne_nil (mt List.isEmpty_iff.mpr hempty)
    refine ⟨by simp [ofBlocks], by simp [ofBlocks], ?_, List.nodup_singleton _⟩
    exact List.forall_mem_singleton.mpr ⟨hpositive, hfew⟩
  · obtain rfl := Except.ok.inj h
    exact spreads_numbered tested blocks most filtering (Nat.pos_of_ne_zero hmost)

/-- How test classes are written makes no difference. -/
theorem Spreads.map {tested : ClassName} {blocks : List Block} {most : Nat}
    {classes : List TestClass} (h : Spreads tested blocks most classes)
    {f : TestClass → TestClass}
    (hf : ∀ t, (f t).tested = t.tested ∧ (f t).blocks = t.blocks ∧ (f t).name = t.name) :
    Spreads tested blocks most (classes.map f) where
  blocks := by
    rw [List.flatMap_map, List.flatMap_congr fun t _ => (hf t).2.1, h.blocks]
  tested := by
    rw [List.forall_mem_map]
    exact fun t ht => (hf t).1.trans (h.tested t ht)
  size := by
    rw [List.forall_mem_map]
    intro t ht
    rw [(hf t).2.1]
    exact h.size t ht
  names := by
    have hnames : name ∘ f = name := funext fun t => (hf t).2.2
    rw [List.map_map, hnames]
    exact h.names

/-! ### Avoiding names -/

section

variable {taken : List String} {tested : ClassName}

/-- Only the suffixes are changed. -/
theorem map_renumber {α : Type} {f : TestClass → α} (hf : ∀ t n, f { t with suffix := n } = f t)
    (next : Nat) (classes : List TestClass) :
    (renumber taken next classes).map f = classes.map f := by
  induction classes generalizing next with
  | nil => rfl
  | cons t classes ih => rw [renumber, List.map_cons, List.map_cons, hf, ih]

theorem exists_of_mem_renumber {next : Nat} {classes : List TestClass} {t : TestClass}
    (h : t ∈ renumber taken next classes) :
    ∃ u ∈ classes, u.tested = t.tested ∧ u.blocks = t.blocks := by
  have hmem := List.mem_map_of_mem (f := fun t => (t.tested, t.blocks)) h
  rw [map_renumber fun t n => rfl] at hmem
  obtain ⟨u, hu, hsame⟩ := List.mem_map.mp hmem
  exact ⟨u, hu, Prod.mk.inj hsame⟩

/-- The numbers count up from `next` and lead to free names. -/
theorem renumber_spec (taken : List String) (classes : List TestClass) {next : Nat}
    (hnext : 0 < next) :
    (∀ t ∈ renumber taken next classes, next ≤ t.suffix ∧ t.name ∉ taken) ∧
      ((renumber taken next classes).map suffix).Nodup := by
  induction classes generalizing next with
  | nil => simp [renumber]
  | cons t classes ih =>
    obtain ⟨⟨hle, hfree⟩, -⟩ := isLeast_firstFree taken t.tested hnext
    rw [renumber]
    generalize firstFree taken t.tested taken.length next = number at hle hfree
    obtain ⟨hrest, hnodup⟩ := ih (Nat.succ_pos number)
    have hnumber : (next : Int) ≤ number := by exact_mod_cast hle
    refine ⟨List.forall_mem_cons.mpr ⟨⟨hnumber, hfree⟩, fun u hu => ?_⟩, ?_⟩
    · exact ⟨by have := (hrest u hu).1; omega, (hrest u hu).2⟩
    · refine List.nodup_cons.mpr ⟨fun hmem => ?_, hnodup⟩
      obtain ⟨u, hu, hsame⟩ := List.mem_map.mp hmem
      have hlarger := (hrest u hu).1
      simp only at hsame
      omega

/-- What `avoid` leaves spreads the same blocks under free names. -/
theorem Spreads.avoid {blocks : List Block} {most : Nat} {classes : List TestClass}
    (h : Spreads tested blocks most classes) (taken : List String) :
    Spreads tested blocks most (avoid taken classes) ∧
      ∀ t ∈ TestClass.avoid taken classes, t.name ∉ taken := by
  rw [TestClass.avoid]
  split
  · rename_i hfree
    exact ⟨h, by simpa using hfree⟩
  · obtain ⟨hnumbers, hsuffixes⟩ := renumber_spec taken classes one_pos
    have htested : ∀ t ∈ renumber taken 1 classes, t.tested = tested := by
      intro t ht
      obtain ⟨u, hu, hsame, -⟩ := exists_of_mem_renumber ht
      rw [← hsame, h.tested u hu]
    refine ⟨⟨?_, htested, fun t ht => ?_, ?_⟩, fun t ht => (hnumbers t ht).2⟩
    · rw [List.flatMap_def, map_renumber fun t n => rfl]
      exact h.blocks
    · obtain ⟨u, hu, -, hsame⟩ := exists_of_mem_renumber ht
      rw [← hsame]
      exact h.size u hu
    · exact names_nodup_of_suffixes htested
        (fun t ht => Int.lt_of_lt_of_le Int.one_pos (hnumbers t ht).1) hsuffixes

end

/-! ### Test methods -/

/-- The line opens a test method. -/
def opensTest (line : SourceLine) : Bool :=
  line.level == 1 && line.text.startsWith "public void test"

/-- The number of test methods in the text of a test class. -/
def numberOfTests (t : TestClass) : Nat := t.lines.countP opensTest

theorem opensTest_iff {level : Nat} {text : String} :
    opensTest ⟨level, text⟩ = true ↔
      level = 1 ∧ "public void test".toList <+: text.toList := by
  simp [opensTest, String.startsWith_string_iff]

/-- A test method is opened once. -/
theorem countP_testLines (t : TestClass) (number : Nat) (b : Block) :
    (t.testLines number b).countP opensTest = 1 := by
  have hlines (level : Nat) : (b.lines t.scope (level + 1)).countP opensTest = 0 := by
    rw [List.countP_eq_zero, Block.lines, List.forall_mem_append, List.forall_mem_map]
    refine ⟨fun text _ => by simp [opensTest_iff], List.forall_mem_singleton.mpr ?_⟩
    simp [opensTest_iff]
  rw [testLines]
  split
  · simp [hlines, opensTest_iff]
  · simp [hlines, opensTest_iff]

theorem countP_testMethodLines (t : TestClass) :
    t.testMethodLines.countP opensTest = t.blocks.length := by
  rw [testMethodLines, List.countP_flatten, List.map_map]
  have hone : List.countP opensTest ∘ (fun entry : Block × Nat => t.testLines entry.2 entry.1) =
      fun _ => 1 := funext fun entry => countP_testLines t entry.2 entry.1
  exact (congrArg (fun f => (t.blocks.zipIdx.map f).sum) hone).trans (by simp)

/-- What is made of a name without blanks is no test method. -/
theorem not_opensTest_constructor {name : String} (hblank : ' ' ∉ name.toList) :
    opensTest ⟨1, "public " ++ name ++ "(String pName) \x7b"⟩ = false := by
  rw [Bool.eq_false_iff, ne_eq, opensTest_iff]
  rintro ⟨-, rest, hrest⟩
  have hname : ∀ c ∈ name.toList, decide (c ≠ ' ') = true := fun c hc =>
    decide_eq_true fun hc' => hblank (hc' ▸ hc)
  -- what stands up to the second blank cannot be the same
  have hword : ['v', 'o', 'i', 'd'] =
      (name.toList ++ "(String pName) \x7b".toList).takeWhile (fun c => decide (c ≠ ' ')) := by
    have hsame := congrArg (fun text => (text.drop 7).takeWhile fun c => decide (c ≠ ' ')) hrest
    simpa [String.toList_append] using hsame
  rw [List.takeWhile_append_of_pos hname] at hword
  have hmem : '(' ∈ ['v', 'o', 'i', 'd'] := by
    rw [hword]
    simp
  simp at hmem

/-- There are as many test methods as blocks, if there is no blank in the name of the class under
test. -/
theorem numberOfTests_eq (t : TestClass) (hblank : ' ' ∉ t.tested.simpleName.toList) :
    t.numberOfTests = t.blocks.length := by
  have hname : ' ' ∉ t.name.toList := fun h => (mem_nameWith h).elim hblank (by decide +kernel)
  have hconstructor := not_opensTest_constructor hname
  rw [numberOfTests, lines]
  simp only [List.countP_append, countP_testMethodLines, headerLines, footerLines]
  have hreset : t.resetLines.countP opensTest = 0 := by
    unfold resetLines
    split <;> simp [opensTest_iff]
  have htested : t.testedMethodLines.countP opensTest = 0 := by
    unfold testedMethodLines
    split <;> simp [opensTest_iff]
  simp [hreset, htested, hconstructor, opensTest_iff]

end TestClass

/-! ### Suites -/

namespace Suite

/-- The line that adds a test class to a suite. -/
def addition (testClass : String) : SourceLine :=
  ⟨2, "suite.addTestSuite(" ++ testClass ++ ".class);"⟩

/-- The line adds a test class. -/
def isAddition (line : SourceLine) : Bool := line.text.startsWith "suite.addTestSuite("

/-- A suite adds the test classes that it is given, in order, and no others. -/
theorem filter_lines (testClasses : List String) :
    (lines testClasses).filter isAddition = testClasses.map addition := by
  have hadditions : (testClasses.map addition).filter isAddition = testClasses.map addition := by
    rw [List.filter_eq_self, List.forall_mem_map]
    exact fun testClass _ => by simp [isAddition, addition, String.startsWith_string_iff]
  rw [lines, List.filter_append, List.filter_append]
  refine Eq.trans (congrArg (fun added => _ ++ added ++ _) hadditions) ?_
  simp [isAddition, String.startsWith_string_iff, name]

end Suite

end CallPlan

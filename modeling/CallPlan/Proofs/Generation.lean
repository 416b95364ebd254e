import CallPlan.Proofs.Paths
import CallPlan.Proofs.Samples
import CallPlan.Proofs.TestClasses

/-!
# What a generating run leaves behind

A run takes class after class. What it makes of each class is told by the settings alone
(`ClassRun.IsFor`), up to the names of the test classes, which have to differ from those that the
package has got before. So the run as a whole is described by an invariant that each class keeps
(`Progress.Tracks`): the suites hold the names of the test classes package by package, and no two
test classes agree in package and name. In the end every file has a place of its own
(`exists_isOutcome`).
-/

namespace CallPlan

/-! ### Steps that write -/

namespace Writing

variable {α β : Type} {before after : List (String × String)}

/-- A step after another succeeds on the files that this one leaves. -/
theorem exists_of_bind_eq_ok {x : Writing α} {f : α → Writing β} {b : β}
    (h : (x >>= f).run.run before = (.ok b, after)) :
    ∃ a mid, x.run.run before = (.ok a, mid) ∧ (f a).run.run mid = (.ok b, after) := by
  rw [run_run_bind] at h
  rcases hx : x.run.run before with ⟨outcome, mid⟩
  rw [hx] at h
  cases outcome with
  | error e => cases h
  | ok a => exact ⟨a, mid, rfl, h⟩

/-- A step that writes nothing succeeds and leaves the files as they are. -/
theorem exists_of_step_bind_eq_ok {x : Except RunError α} {f : α → Writing β} {b : β}
    (h : (step x >>= f).run.run before = (.ok b, after)) :
    ∃ a, x = .ok a ∧ (f a).run.run before = (.ok b, after) := by
  cases x with
  | error e => cases h
  | ok a => exact ⟨a, rfl, h⟩

theorem run_step_bind {x : Except RunError α} {a : α} (hx : x = .ok a) (f : α → Writing β) :
    (step x >>= f).run.run before = (f a).run.run before := by
  rw [hx]
  rfl

theorem eq_of_pure {a b : α} (h : (pure a : Writing α).run.run before = (.ok b, after)) :
    a = b ∧ after = before := by
  obtain ⟨hvalue, rfl⟩ := Prod.mk.inj h
  exact ⟨Except.ok.inj hvalue, rfl⟩

/-- The path and the text of a source file below a directory. -/
def entry (output : String) (s : Style) (f : SourceFile) : String × String :=
  (Text.Path.join output f.path, f.text s)

/-- Writing source files one after the other. -/
theorem run_mapM_file (output : String) (s : Style) (f : α → SourceFile) (as : List α)
    (before : List (String × String)) :
    (as.mapM fun a => file output (f a) s).run.run before =
      (.ok (as.map fun a => (entry output s (f a)).1),
        (as.map fun a => entry output s (f a)).reverse ++ before) := by
  induction as generalizing before with
  | nil => rfl
  | cons a as ih =>
    have hfile : (file output (f a) s).run.run before =
        (.ok (entry output s (f a)).1, entry output s (f a) :: before) := rfl
    rw [List.mapM_cons, run_run_bind, hfile]
    simp only [run_run_bind, ih]
    rw [List.map_cons, List.map_cons, List.reverse_cons, List.append_assoc]
    rfl

end Writing

/-! ### Names of packages -/

/-- The names of the test classes in a package, in order. -/
def namesIn (package : String) (tests : List TestClass) : List String :=
  (tests.filter (·.tested.package = package)).map TestClass.name

theorem namesIn_append (package : String) (tests more : List TestClass) :
    namesIn package (tests ++ more) = namesIn package tests ++ namesIn package more := by
  simp [namesIn]

/-- Test classes for one class are all in its package. -/
theorem namesIn_of_forall {tested : ClassName} {tests : List TestClass}
    (h : ∀ t ∈ tests, t.tested = tested) (package : String) :
    namesIn package tests = if tested.package = package then tests.map TestClass.name else [] := by
  unfold namesIn
  split_ifs with hpackage
  · rw [List.filter_eq_self.mpr fun t ht => by simp [h t ht, hpackage]]
  · rw [List.filter_eq_nil_iff.mpr fun t ht => by simp [h t ht, hpackage], List.map_nil]

theorem mem_namesIn {tests : List TestClass} {t : TestClass} (h : t ∈ tests) :
    t.name ∈ namesIn t.tested.package tests :=
  List.mem_map_of_mem (List.mem_filter.mpr ⟨h, by simp⟩)

/-- Test classes that differ in package or name have different names in each package. -/
theorem nodup_namesIn {tests : List TestClass}
    (h : (tests.map fun t => (t.tested.package, t.name)).Nodup) (package : String) :
    (namesIn package tests).Nodup := by
  rw [List.Nodup, List.pairwise_map] at h
  rw [namesIn, List.Nodup, List.pairwise_map]
  refine (h.filter _).imp_of_mem fun {t u} ht hu hne hsame => hne ?_
  have hpackage (v : TestClass) (hv : v ∈ tests.filter (·.tested.package = package)) :
      v.tested.package = package := by simpa using (List.mem_filter.mp hv).2
  rw [hpackage t ht, hpackage u hu, hsame]

namespace Suites

@[simp]
theorem namesOf_nil (package : String) : namesOf [] package = [] := rfl

@[simp]
theorem namesOf_cons (package : String) (names : List String) (s : Suites) (other : String) :
    namesOf ((package, names) :: s) other = if package = other then names else s.namesOf other := by
  unfold namesOf
  split_ifs with h
  · rw [h, List.lookup_cons_self, Option.getD_some]
  · rw [List.lookup_cons, beq_false_of_ne (Ne.symm h)]

/-- Names that are added come behind those that the package already has. -/
theorem namesOf_add (package : String) (names : List String) (s : Suites) (other : String) :
    (s.add package names).namesOf other =
      s.namesOf other ++ if package = other then names else [] := by
  induction s with
  | nil => simp [add]
  | cons suite s ih =>
    obtain ⟨p, ns⟩ := suite
    by_cases hp : p = package
    · rw [add, if_pos hp, namesOf_cons, namesOf_cons, hp]
      split_ifs <;> simp
    · rw [add, if_neg hp, namesOf_cons, namesOf_cons, ih]
      split_ifs with hother hsame
      · exact absurd (hother.trans hsame.symm) hp
      · rw [List.append_nil]
      · rfl
      · rfl

/-- Only a package that is new adds an entry, which comes last. -/
theorem map_fst_add (package : String) (names : List String) (s : Suites) :
    (s.add package names).map Prod.fst =
      if package ∈ s.map Prod.fst then s.map Prod.fst else s.map Prod.fst ++ [package] := by
  induction s with
  | nil => rfl
  | cons suite s ih =>
    obtain ⟨p, ns⟩ := suite
    by_cases hp : p = package
    · rw [add, if_pos hp, if_pos (by simp [hp])]
      rfl
    · rw [add, if_neg hp, List.map_cons, ih, List.map_cons]
      simp only [List.mem_cons, Ne.symm hp, false_or]
      split_ifs <;> rfl

/-- Each package has one entry, and the entry holds names. -/
structure Tidy (s : Suites) : Prop where
  packages : (s.map Prod.fst).Nodup
  nonempty : ∀ suite ∈ s, suite.2 ≠ []

/-- The entries are the packages that have got names. -/
theorem Tidy.mem_iff {s : Suites} (h : s.Tidy) {package : String} {names : List String} :
    (package, names) ∈ s ↔ names ≠ [] ∧ s.namesOf package = names := by
  obtain ⟨hpackages, hnonempty⟩ := h
  induction s with
  | nil => simp [eq_comm]
  | cons suite s ih =>
    obtain ⟨p, ns⟩ := suite
    obtain ⟨hp, hs⟩ := List.nodup_cons.mp hpackages
    obtain ⟨hns, hrest⟩ := List.forall_mem_cons.mp hnonempty
    by_cases hsame : p = package
    · subst hsame
      have hnot : (p, names) ∉ s := fun hmem => hp (List.mem_map.mpr ⟨_, hmem, rfl⟩)
      rw [List.mem_cons, or_iff_left hnot, namesOf_cons, if_pos rfl, Prod.mk.injEq]
      exact ⟨fun hcons => ⟨hcons.2 ▸ hns, hcons.2.symm⟩, fun hcons => ⟨rfl, hcons.2.symm⟩⟩
    · have hnot : (package, names) ≠ (p, ns) := fun hcons => hsame (Prod.mk.inj hcons).1.symm
      rw [List.mem_cons, or_iff_right hnot, namesOf_cons, if_neg hsame, ih hs hrest]

/-- Suites stay tidy when names are added. -/
theorem Tidy.add {s : Suites} (h : s.Tidy) (package : String) {names : List String}
    (hnames : names ≠ []) : (s.add package names).Tidy := by
  constructor
  · rw [map_fst_add]
    split_ifs with hmem
    · exact h.packages
    · exact List.nodup_append_comm.mp (List.nodup_cons.mpr ⟨hmem, h.packages⟩)
  · have hnonempty := h.nonempty
    clear h
    induction s with
    | nil => exact List.forall_mem_singleton.mpr hnames
    | cons suite s ih =>
      obtain ⟨p, ns⟩ := suite
      obtain ⟨hns, hrest⟩ := List.forall_mem_cons.mp hnonempty
      rw [Suites.add]
      split_ifs
      · exact List.forall_mem_cons.mpr ⟨List.append_ne_nil_of_right_ne_nil _ hnames, hrest⟩
      · exact List.forall_mem_cons.mpr ⟨hns, ih hrest⟩

/-- Adds names to those of a package, if there are any. -/
def addAny (package : String) (names : List String) (s : Suites) : Suites :=
  if names.isEmpty then s else s.add package names

theorem namesOf_addAny (package : String) (names : List String) (s : Suites) (other : String) :
    (s.addAny package names).namesOf other =
      s.namesOf other ++ if package = other then names else [] := by
  unfold addAny
  split_ifs with hnames hother
  · rw [List.isEmpty_iff.mp hnames, List.append_nil]
  · rw [List.append_nil]
  all_goals simp_all [namesOf_add]

theorem Tidy.addAny {s : Suites} (h : s.Tidy) (package : String) (names : List String) :
    (s.addAny package names).Tidy := by
  unfold Suites.addAny
  split_ifs with hnames
  · exact h
  · exact h.add package (mt List.isEmpty_iff.mpr hnames)

end Suites

/-! ### One class -/

/-- The test classes of a class spread its blocks, and they have free names. -/
theorem spreads_testClassesOf {s : Settings} {c : Subject} {blocks : List Block}
    {taken : List String} {tests : List TestClass}
    (h : testClassesOf s c blocks taken = .ok tests) :
    TestClass.Spreads c.tested blocks s.testsPerClass tests ∧ ∀ t ∈ tests, t.name ∉ taken := by
  obtain ⟨classes, hsplit, h⟩ := exists_of_bind_eq_ok h
  obtain rfl := Except.ok.inj h
  have hspreads := TestClass.spreads_of_split (eq_ok_of_mapError_eq_ok hsplit)
  obtain ⟨havoid, hfree⟩ := hspreads.avoid taken
  refine ⟨havoid.map fun t => ⟨rfl, rfl, rfl⟩, ?_⟩
  rw [List.forall_mem_map]
  exact hfree

/-- What a run makes of one class. -/
structure ClassRun where
  subject : Subject
  indices : List Nat
  operations : List OperationTally
  tests : List TestClass

namespace ClassRun

/-- What is reported of the class. -/
def tally (r : ClassRun) : ClassTally :=
  r.subject.classTally r.operations (r.tests.map TestClass.name)

/-- What settings lead to for a class: a sample is taken, and the test classes hold its blocks in
order, each of them some but not more than the settings allow. -/
structure IsFor (k : Catalog) (s : Settings) (tested : ClassName) (r : ClassRun) : Prop where
  subject : Subject.ofSettings k s tested = .ok r.subject
  sample : r.subject.sample s.plansPerOperation = .ok (r.indices, r.operations)
  blocks : List.Forall₂ (fun index b => r.subject.get index = .ok b) r.indices
    (r.tests.flatMap TestClass.blocks)
  tested : ∀ t ∈ r.tests, t.tested = tested
  size : ∀ t ∈ r.tests, 0 < t.blocks.length ∧ t.blocks.length ≤ s.testsPerClass

end ClassRun

/-- Test classes of a class whose names the package has not got go with the others. -/
theorem nodup_append_tests {tests more : List TestClass} {tested : ClassName}
    (h : (tests.map fun t => (t.tested.package, t.name)).Nodup)
    (htested : ∀ t ∈ more, t.tested = tested) (hnames : (more.map TestClass.name).Nodup)
    (hfree : ∀ t ∈ more, t.name ∉ namesIn tested.package tests) :
    ((tests ++ more).map fun t => (t.tested.package, t.name)).Nodup := by
  rw [List.map_append]
  refine h.append ?_ ?_
  · rw [List.Nodup, List.pairwise_map] at hnames ⊢
    exact hnames.imp fun hne hsame => hne (Prod.mk.inj hsame).2
  · rw [List.disjoint_left]
    rintro _ hold hnew
    obtain ⟨t, ht, rfl⟩ := List.mem_map.mp hnew
    obtain ⟨u, hu, hsame⟩ := List.mem_map.mp hold
    obtain ⟨hpackage, hname⟩ := Prod.mk.inj hsame
    refine hfree t ht ?_
    rw [← hname, ← htested t ht, ← hpackage]
    exact mem_namesIn hu

/-- What a run has done **tracks** what it has made of the classes so far: the suites hold the names
of the test classes package by package, these differ in package or name, and each of them has been
written. -/
structure Progress.Tracks (k : Catalog) (s : Settings) (output : String) (p : Progress)
    (classes : List ClassName) (runs : List ClassRun) (written : List (String × String)) :
    Prop where
  each : List.Forall₂ (ClassRun.IsFor k s) classes runs
  names : ∀ package, p.suites.namesOf package = namesIn package (runs.flatMap ClassRun.tests)
  tidy : p.suites.Tidy
  distinct : ((runs.flatMap ClassRun.tests).map fun t => (t.tested.package, t.name)).Nodup
  tallies : p.report.classes = runs.map ClassRun.tally
  entries : written.reverse = (runs.flatMap ClassRun.tests).map fun t =>
    Writing.entry output s.style t.sourceFile
  files : p.report.files = written.reverse.map Prod.fst

namespace Progress.Tracks

variable {k : Catalog} {s : Settings} {output : String} {p q : Progress}
  {classes more : List ClassName} {runs : List ClassRun} {before after : List (String × String)}

theorem initial (k : Catalog) (s : Settings) (output : String) :
    Progress.Tracks k s output {} [] [] [] where
  each := .nil
  names := fun _ => rfl
  tidy := ⟨List.nodup_nil, by simp⟩
  distinct := List.nodup_nil
  tallies := rfl
  entries := rfl
  files := rfl

/-- A class keeps track. -/
theorem generateClass {tested : ClassName} (h : p.Tracks k s output classes runs before)
    (hrun : (CallPlan.generateClass k s output p tested).run.run before = (.ok q, after)) :
    ∃ r, q.Tracks k s output (classes ++ [tested]) (runs ++ [r]) after := by
  obtain ⟨c, hsubject, hrun⟩ := Writing.exists_of_step_bind_eq_ok hrun
  obtain ⟨⟨indices, operations⟩, hsample, hrun⟩ := Writing.exists_of_step_bind_eq_ok hrun
  obtain ⟨blocks, hblocks, hrun⟩ := Writing.exists_of_step_bind_eq_ok hrun
  obtain ⟨tests, htests, hrun⟩ := Writing.exists_of_step_bind_eq_ok hrun
  rw [run_run_bind, Writing.run_mapM_file] at hrun
  obtain ⟨rfl, rfl⟩ := Writing.eq_of_pure hrun
  obtain ⟨hspreads, hfree⟩ := spreads_testClassesOf htests
  obtain rfl := Subject.tested_of_ofSettings hsubject
  have hfor : ClassRun.IsFor k s c.tested ⟨c, indices, operations, tests⟩ :=
    ⟨hsubject, hsample, hspreads.blocks.symm ▸ c.forall₂_of_blocksAt hblocks, hspreads.tested,
      hspreads.size⟩
  let r : ClassRun := ⟨c, indices, operations, tests⟩
  have htests : (runs ++ [r]).flatMap ClassRun.tests = runs.flatMap ClassRun.tests ++ tests := by
    simp [r]
  refine ⟨r, ⟨List.rel_append h.each (.cons hfor .nil), fun package => ?_, ?_, ?_, ?_, ?_, ?_⟩⟩
  · rw [htests, namesIn_append, ← h.names, namesIn_of_forall hspreads.tested]
    exact Suites.namesOf_addAny ..
  · exact h.tidy.addAny ..
  · rw [htests]
    exact nodup_append_tests h.distinct hspreads.tested hspreads.names
      fun t ht => h.names _ ▸ hfree t ht
  · rw [List.map_append, ← h.tallies]
    rfl
  · rw [htests, List.map_append, ← h.entries, List.reverse_append, List.reverse_reverse]
  · rw [List.reverse_append, List.reverse_reverse, List.map_append, ← h.files, List.map_map]
    rfl

/-- A run keeps track. -/
theorem foldlM_generateClass (h : p.Tracks k s output classes runs before)
    (hrun : (more.foldlM (CallPlan.generateClass k s output) p).run.run before = (.ok q, after)) :
    ∃ runs', q.Tracks k s output (classes ++ more) runs' after := by
  induction more generalizing p classes runs before with
  | nil =>
    obtain ⟨rfl, rfl⟩ := Writing.eq_of_pure hrun
    rw [List.append_nil]
    exact ⟨runs, h⟩
  | cons tested more ih =>
    rw [List.foldlM_cons] at hrun
    obtain ⟨mid, written, hclass, hrest⟩ := Writing.exists_of_bind_eq_ok hrun
    obtain ⟨r, hr⟩ := h.generateClass hclass
    rw [List.append_cons]
    exact ih hr hrest

end Progress.Tracks

/-! ### The whole run -/

/-- The source file of the suite of a package. -/
def suiteFile (s : Settings) (suite : String × List String) : SourceFile :=
  Suite.file suite.1 suite.2 s.comment s.style

/-- The source files of a run, in the order in which they are written. -/
def sourcesOf (s : Settings) (tests : List TestClass) (suites : Suites) : List SourceFile :=
  tests.map TestClass.sourceFile ++ suites.map (suiteFile s)

/-- **The outcome** of a run that succeeds, given what it has made of the classes and the suites of
the packages. -/
structure IsOutcome (k : Catalog) (s : Settings) (output : String) (classes : List ClassName)
    (report : RunReport) (written : List (String × String)) (runs : List ClassRun)
    (suites : Suites) : Prop where
  each : List.Forall₂ (ClassRun.IsFor k s) classes runs
  /-- Test classes of one package have names of their own. -/
  names : ∀ package, (namesIn package (runs.flatMap ClassRun.tests)).Nodup ∧
    Suite.name ∉ namesIn package (runs.flatMap ClassRun.tests)
  /-- Each package with test classes has one suite, with their names in order. -/
  packages : (suites.map Prod.fst).Nodup
  mem_suites : ∀ package names, (package, names) ∈ suites ↔
    names ≠ [] ∧ namesIn package (runs.flatMap ClassRun.tests) = names
  /-- A suite adds the test classes with its names, in order, and no others. -/
  additions : ∀ suite ∈ suites,
    (suiteFile s suite).body = s.style.textOf (Suite.lines suite.2) ∧
      (Suite.lines suite.2).filter Suite.isAddition = suite.2.map Suite.addition
  /-- The test classes are written in order, and then the suites. -/
  entries : written =
    (sourcesOf s (runs.flatMap ClassRun.tests) suites).map (Writing.entry output s.style)
  /-- All paths are different. -/
  paths : (written.map Prod.fst).Nodup
  /-- No file overwrites another one, wherever they are written. -/
  kept : ∀ t u, FileTree.writeAll? t written = some u →
    ∀ file ∈ written, u.read? file.1 = some file.2
  tallies : report.classes = runs.map ClassRun.tally
  files : report.files = written.map Prod.fst
  /-- The reported number is the number of test methods in all test classes. -/
  numberOfTests : report.numberOfTests =
    ((runs.flatMap ClassRun.tests).map TestClass.numberOfTests).sum

section

variable {k : Catalog} {s : Settings} {output : String} {classes : List ClassName}
  {runs : List ClassRun} {suites : Suites}

/-- The test classes of a run are for classes among the given ones. -/
theorem forall_tests {P : ClassName → Prop} (h : ∀ c ∈ classes, P c)
    (heach : List.Forall₂ (ClassRun.IsFor k s) classes runs) :
    ∀ t ∈ runs.flatMap ClassRun.tests, P t.tested := by
  have hruns : List.Forall₂ (fun _ r => ∀ t ∈ ClassRun.tests r, P t.tested) classes runs :=
    ((List.forall₂_and_left _ _).mpr ⟨h, heach⟩).imp fun c r ⟨hc, hr⟩ t ht => hr.tested t ht ▸ hc
  intro t ht
  obtain ⟨r, hr, htr⟩ := List.mem_flatMap.mp ht
  exact forall_mem_of_forall₂ hruns r hr t htr

/-- Source files that differ in package or class are at different locations. -/
theorem nodup_locations (s : Settings) (output : String) {sources : List SourceFile}
    (hproper : ∀ f ∈ sources, f.Proper)
    (h : (sources.map fun f => (f.package, f.className)).Nodup) :
    ((sources.map (Writing.entry output s.style)).map
      fun file => Location.ofPath file.1).Nodup := by
  rw [List.map_map, List.Nodup, List.pairwise_map]
  rw [List.Nodup, List.pairwise_map] at h
  refine h.imp_of_mem fun {f g} hf hg hne hsame => hne ?_
  rw [Function.comp_apply, Function.comp_apply, Writing.entry, Writing.entry] at hsame
  obtain ⟨hpackage, hclass⟩ := SourceFile.eq_of_location_eq (hproper f hf) (hproper g hg) hsame
  rw [hpackage, hclass]

/-- The files of a run differ in package or class. -/
theorem nodup_sources (s : Settings) {tests : List TestClass}
    (htests : (tests.map fun t => (t.tested.package, t.name)).Nodup)
    (hsuites : (suites.map Prod.fst).Nodup) :
    ((sourcesOf s tests suites).map fun f => (f.package, f.className)).Nodup := by
  rw [sourcesOf, List.map_append, List.map_map, List.map_map]
  refine htests.append ?_ ?_
  · have hpair := hsuites.map (f := fun package => (package, Suite.name))
      fun _ _ hsame => (Prod.mk.inj hsame).1
    rw [List.map_map] at hpair
    exact hpair
  · rw [List.disjoint_left]
    rintro _ htest hsuite
    obtain ⟨t, -, rfl⟩ := List.mem_map.mp htest
    obtain ⟨suite, -, hsame⟩ := List.mem_map.mp hsuite
    exact TestClass.nameWith_ne_suiteName _ _ (Prod.mk.inj hsame).2.symm

/-- What is reported as selected for a class is rendered as test methods. -/
theorem ClassRun.IsFor.sum_selected {tested : ClassName} {r : ClassRun}
    (h : ClassRun.IsFor k s tested r) (hblank : ' ' ∉ tested.simpleName.toList) :
    (r.operations.map OperationTally.selected).sum = (r.tests.map TestClass.numberOfTests).sum := by
  have hcounts : r.tests.map TestClass.numberOfTests = r.tests.map fun t => t.blocks.length :=
    List.map_congr_left fun t ht => t.numberOfTests_eq (h.tested t ht ▸ hblank)
  rw [Subject.sum_selected_of_sample h.sample, h.blocks.length_eq, List.length_flatMap, hcounts]

/-- As many plans are reported to be selected as there are test methods in the texts. -/
theorem sum_selected (heach : List.Forall₂ (ClassRun.IsFor k s) classes runs)
    (hblank : ∀ c ∈ classes, ' ' ∉ c.simpleName.toList) :
    ((runs.flatMap ClassRun.operations).map OperationTally.selected).sum =
      ((runs.flatMap ClassRun.tests).map TestClass.numberOfTests).sum := by
  induction heach with
  | nil => rfl
  | cons hr _ ih =>
    obtain ⟨hclass, hrest⟩ := List.forall_mem_cons.mp hblank
    simp only [List.flatMap_cons, List.map_append, List.sum_append, ih hrest,
      hr.sum_selected hclass]

/-- The files of a run have proper paths. -/
theorem proper_sources (s : Settings) {tests : List TestClass}
    (htests : ∀ t ∈ tests, t.tested.Proper)
    (hsuites : ∀ suite ∈ suites, suite.2 ≠ [] ∧ namesIn suite.1 tests = suite.2) :
    ∀ f ∈ sourcesOf s tests suites, f.Proper := by
  rw [sourcesOf, List.forall_mem_append, List.forall_mem_map, List.forall_mem_map]
  constructor
  · intro t ht
    refine SourceFile.proper_of_proper (htests t ht) rfl fun hslash => ?_
    rcases TestClass.mem_nameWith hslash with hsimple | hletter
    · exact (htests t ht).notMem_simpleName (by decide) hsimple
    · exact absurd hletter (by decide +kernel)
  · intro suite hsuite
    -- a suite is in the package of one of its test classes
    obtain ⟨hne, hnames⟩ := hsuites suite hsuite
    obtain ⟨name, hname⟩ := List.exists_mem_of_ne_nil _ hne
    rw [← hnames] at hname
    obtain ⟨t, ht, -⟩ := List.mem_map.mp hname
    obtain ⟨ht, hpackage⟩ := List.mem_filter.mp ht
    refine SourceFile.proper_of_proper (htests t ht) (of_decide_eq_true hpackage).symm ?_
    simp [suiteFile, Suite.file, Suite.name]

/-- What tracks the classes of a run leads to its outcome, once the suites are written. -/
theorem Progress.Tracks.isOutcome {p : Progress} {before : List (String × String)}
    (h : p.Tracks k s output classes runs before) (hproper : ∀ c ∈ classes, c.Proper)
    (hsuites : suites.Perm p.suites) :
    IsOutcome k s output classes
      ⟨p.report.classes, p.report.files ++
        suites.map fun suite => (Writing.entry output s.style (suiteFile s suite)).1⟩
      (before.reverse ++ suites.map fun suite => Writing.entry output s.style (suiteFile s suite))
      runs suites := by
  have htidy : Suites.Tidy suites :=
    ⟨(hsuites.map Prod.fst).nodup_iff.mpr h.tidy.packages,
      fun suite hsuite => h.tidy.nonempty suite (hsuites.mem_iff.mp hsuite)⟩
  have hmem (package : String) (names : List String) : (package, names) ∈ suites ↔
      names ≠ [] ∧ namesIn package (runs.flatMap ClassRun.tests) = names := by
    rw [hsuites.mem_iff, h.tidy.mem_iff, h.names]
  have hwritten : before.reverse ++
      suites.map (fun suite => Writing.entry output s.style (suiteFile s suite)) =
        (sourcesOf s (runs.flatMap ClassRun.tests) suites).map (Writing.entry output s.style) := by
    rw [h.entries, sourcesOf, List.map_append, List.map_map, List.map_map]
    rfl
  have hlocations := nodup_locations s output
    (proper_sources s (forall_tests hproper h.each) fun suite hsuite =>
      (hmem suite.1 suite.2).mp hsuite)
    (nodup_sources s h.distinct htidy.packages)
  rw [← hwritten] at hlocations
  refine {
    each := h.each
    names := fun package => ⟨nodup_namesIn h.distinct package, ?_⟩
    packages := htidy.packages
    mem_suites := hmem
    additions := fun suite _ => ⟨rfl, Suite.filter_lines _⟩
    entries := hwritten
    paths := ?_
    kept := fun t u hwrite => (FileTree.read?_of_writeAll? hlocations hwrite).1
    tallies := h.tallies
    files := ?_
    numberOfTests := ?_ }
  · intro hname
    obtain ⟨t, -, hsuite⟩ := List.mem_map.mp hname
    exact TestClass.nameWith_ne_suiteName _ _ hsuite
  · refine List.Nodup.of_map Location.ofPath ?_
    rw [List.map_map]
    exact hlocations
  · rw [List.map_append, ← h.files, List.map_map]
    rfl
  · rw [← sum_selected h.each fun c hc => (hproper c hc).notMem_simpleName (by decide)]
    rw [RunReport.numberOfTests, h.tallies, ← List.sum_eq_foldl, List.flatMap_map]
    rfl

end

/-- **Every run that succeeds has an outcome as it should be**, for any classes with names that can
be read, also if some are given more than once. -/
theorem exists_isOutcome {k : Catalog} {classes : List ClassName} {s : Settings} {output : String}
    {report : RunReport} {files : List (String × String)}
    (hnames : ∀ c ∈ classes, ∃ text, ClassName.parse text = .ok c)
    (h : (generate k classes s output).run.run [] = (.ok report, files)) :
    ∃ runs suites, IsOutcome k s output classes report files.reverse runs suites := by
  have hproper : ∀ c ∈ classes, c.Proper := fun c hc =>
    (hnames c hc).elim fun _ hparse => ClassName.proper_of_parse hparse
  obtain ⟨p, before, hclasses, h⟩ := Writing.exists_of_bind_eq_ok h
  obtain ⟨runs, htracks⟩ :=
    (Progress.Tracks.initial k s output).foldlM_generateClass hclasses
  rw [run_run_bind] at h
  have hsuites := Writing.run_mapM_file output s.style (suiteFile s) p.suites.sorted before
  have hrun : (p.suites.sorted.mapM (generateSuite s output)).run.run before = _ := hsuites
  rw [hrun] at h
  obtain ⟨rfl, rfl⟩ := Writing.eq_of_pure h
  rw [List.reverse_append, List.reverse_reverse]
  exact ⟨runs, p.suites.sorted, htracks.isOutcome hproper (List.mergeSort_perm ..)⟩

/-! ### Runs that succeed -/

/-- Blocks can be spread over test classes as soon as a test class may hold one. -/
theorem exists_split_eq_ok {most : Nat} (hmost : most ≠ 0) (tested : ClassName)
    (blocks : List Block) (filtering : Bool) :
    ∃ tests, TestClass.split tested blocks most filtering = .ok tests := by
  rw [TestClass.split, if_neg hmost]
  split_ifs
  · exact ⟨_, rfl⟩
  · exact ⟨_, rfl⟩
  · exact ⟨_, rfl⟩

theorem exists_testClassesOf_eq_ok {s : Settings} (hmost : s.testsPerClass ≠ 0) (c : Subject)
    (blocks : List Block) (taken : List String) :
    ∃ tests, testClassesOf s c blocks taken = .ok tests := by
  obtain ⟨tests, htests⟩ := exists_split_eq_ok hmost c.tested blocks s.filtering
  rw [testClassesOf, htests]
  exact ⟨_, rfl⟩

/-- What settings that can be used demand, apart from the style. -/
theorem Settings.bounds_of_fault? {s : Settings} (h : s.fault? = none) :
    s.depth ≠ 0 ∧ s.testsPerClass ≠ 0 ∧ s.plansPerOperation ≤ maxSample := by
  unfold fault? at h
  split_ifs at h with hdepth hmost hworkers hlarge
  exact ⟨hdepth, hmost, Nat.le_of_not_lt hlarge⟩

section

variable {k : Catalog} {s : Settings} {output : String}

/-- Under settings that are valid and limit the plans, no class fails to be generated. -/
theorem exists_generateClass_eq_ok (hs : s.fault? = none) (hlimit : s.plansPerOperation ≠ 0)
    (p : Progress) (tested : ClassName) (before : List (String × String)) :
    ∃ q after, (generateClass k s output p tested).run.run before = (.ok q, after) := by
  obtain ⟨hdepth, hmost, hlarge⟩ := s.bounds_of_fault? hs
  obtain ⟨depth, hdepth⟩ := Nat.exists_eq_succ_of_ne_zero hdepth
  let c := Subject.fresh k tested depth s.tested s.used
  have hsubject : Subject.ofSettings k s tested = .ok c := by
    rw [Subject.ofSettings, hdepth, Subject.ofCatalog_succ]
    rfl
  obtain ⟨indices, tallies, hsample⟩ := c.exists_sample_eq_ok hlimit hlarge
  obtain ⟨blocks, hblocks⟩ := c.exists_blocksAt_eq_ok (fun index hindex =>
    Subject.exists_get_fresh k tested depth s.tested s.used
      ((Subject.pairwise_and_lt_size_of_sample hsample).2 index hindex)) s.workers
  obtain ⟨tests, htests⟩ :=
    exists_testClassesOf_eq_ok hmost c blocks (p.suites.namesOf tested.package)
  have hfiles := Writing.run_mapM_file output s.style TestClass.sourceFile tests before
  unfold generateClass
  rw [Writing.run_step_bind hsubject, Writing.run_step_bind hsample, Writing.run_step_bind hblocks,
    Writing.run_step_bind htests, run_run_bind, hfiles]
  exact ⟨_, _, rfl⟩

/-- Under such settings, going through classes one after the other does not fail either. -/
theorem exists_foldlM_generateClass_eq_ok (hs : s.fault? = none)
    (hlimit : s.plansPerOperation ≠ 0) (classes : List ClassName) (p : Progress)
    (before : List (String × String)) :
    ∃ q after, (classes.foldlM (generateClass k s output) p).run.run before = (.ok q, after) := by
  induction classes generalizing p before with
  | nil => exact ⟨p, before, rfl⟩
  | cons tested classes ih =>
    obtain ⟨mid, written, hclass⟩ :=
      @exists_generateClass_eq_ok k s output hs hlimit p tested before
    obtain ⟨q, after, hrest⟩ := ih mid written
    refine ⟨q, after, ?_⟩
    rw [List.foldlM_cons, run_run_bind, hclass]
    exact hrest

/-- **No run fails** with settings that can be used and a limit to the samples. -/
theorem exists_generate_eq_ok (hs : s.fault? = none) (hlimit : s.plansPerOperation ≠ 0)
    (classes : List ClassName) :
    ∃ report files, (generate k classes s output).run.run [] = (.ok report, files) := by
  obtain ⟨p, written, hclasses⟩ :=
    @exists_foldlM_generateClass_eq_ok k s output hs hlimit classes {} []
  have hsuites : (p.suites.sorted.mapM (generateSuite s output)).run.run written = _ :=
    Writing.run_mapM_file output s.style (suiteFile s) p.suites.sorted written
  rw [generate, run_run_bind, hclasses]
  simp only
  rw [run_run_bind, hsuites]
  exact ⟨_, _, rfl⟩

end

/-! ### A class given twice -/

namespace Mixer

/-- Ten plans of each operation, spread over test classes of four. -/
def settings : Settings := { depth := 4, plansPerOperation := 10, testsPerClass := 4 }

/-- The run for a class that is given twice succeeds, and its outcome is as it should be. -/
theorem exists_isOutcome_twice :
    (∀ c ∈ [name, name], ∃ text, ClassName.parse text = .ok c) ∧
      ∃ report files,
        (generate catalog [name, name] settings "out").run.run [] = (.ok report, files) ∧
        ∃ runs suites,
          IsOutcome catalog settings "out" [name, name] report files.reverse runs suites := by
  have hparse : ClassName.parse "demo.Mixer" = .ok name := rfl
  have hnames : ∀ c ∈ [name, name], ∃ text, ClassName.parse text = .ok c := by
    intro c hc
    obtain rfl : c = name := by simpa using hc
    exact ⟨_, hparse⟩
  have hvalid : settings.fault? = none := rfl
  obtain ⟨report, files, hrun⟩ :=
    @exists_generate_eq_ok catalog settings "out" hvalid (by decide) [name, name]
  exact ⟨hnames, report, files, hrun, exists_isOutcome hnames hrun⟩

end Mixer

end CallPlan

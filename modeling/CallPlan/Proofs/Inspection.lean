import CallPlan.Proofs.Generation

/-!
# Counting with and without a sample

An inspection counts what a sample would hold (`Subject.tally`), a generating run counts the sample
it has taken. A sample that can be taken holds as many plans as were counted
(`Subject.tally_of_sample`), so both report the same. A sample of too many plans is refused
(`Subject.sample_eq_error_iff`), but its size is still known: no inspection fails
(`exists_inspect_eq_ok`).
-/

namespace CallPlan

/-! ### Samples of one operation -/

namespace Subject

variable {c : Subject} {limit : Nat}

/-- The number of plans that a range of indices is for. -/
def width (range : Operation × Nat × Nat) : Nat := range.2.2 - range.2.1

theorem sampleRange_eq_error_iff {range : Operation × Nat × Nat} {e : RunError} :
    sampleRange limit range = .error e ↔
      maxSample < sampleSize (width range) limit ∧
        e = .sampling range.1
          (.sampleTooLarge (sampleSize (width range) limit) (width range)) := by
  obtain ⟨op, start, stop⟩ := range
  cases hchosen : CallPlan.sample (stop - start) limit with
  | error cause =>
    obtain ⟨hlarge, rfl⟩ := sample_eq_error_iff.mp hchosen
    simp [sampleRange, hchosen, width, hlarge, eq_comm]
  | ok chosen =>
    have hsmall : ¬ maxSample < sampleSize (stop - start) limit := fun hlarge => by
      rw [sample_eq_error_iff.mpr ⟨hlarge, rfl⟩] at hchosen
      cases hchosen
    simp [sampleRange, hchosen, width, hsmall]

theorem exists_sampleRange_eq_ok_iff {range : Operation × Nat × Nat} :
    (∃ part, sampleRange limit range = .ok part) ↔
      sampleSize (width range) limit ≤ maxSample := by
  rw [← not_lt, ← not_iff_not, not_not, not_exists]
  constructor
  · intro h
    cases hrange : sampleRange limit range with
    | error e => exact (sampleRange_eq_error_iff.mp hrange).1
    | ok part => exact absurd hrange (h part)
  · intro hlarge part hpart
    rw [sampleRange_eq_error_iff.mpr ⟨hlarge, rfl⟩] at hpart
    cases hpart

/-! ### Samples of a subject -/

/-- The sample of a subject is refused for the first operation whose own sample is too large. -/
theorem sample_eq_error_iff {e : RunError} :
    c.sample limit = .error e ↔
      ∃ before range after, c.operationRanges = before ++ range :: after ∧
        (∀ r ∈ before, sampleSize (width r) limit ≤ maxSample) ∧
        maxSample < sampleSize (width range) limit ∧
        e = .sampling range.1
          (.sampleTooLarge (sampleSize (width range) limit) (width range)) := by
  have hparts : c.sample limit = .error e ↔
      c.operationRanges.mapM (sampleRange limit) = .error e := by
    rw [sample]
    cases c.operationRanges.mapM (sampleRange limit) with
    | error cause =>
      constructor <;>
      · intro h
        obtain rfl := Except.error.inj h
        rfl
    | ok parts => constructor <;> rintro ⟨⟩
  rw [hparts, mapM_eq_error_iff]
  simp only [sampleRange_eq_error_iff, exists_sampleRange_eq_ok_iff]

/-- No sample of a subject is taken exactly if the sample of one of its operations is too large. -/
theorem exists_sample_eq_error_iff :
    (∃ e, c.sample limit = .error e) ↔
      ∃ range ∈ c.operationRanges, maxSample < sampleSize (width range) limit := by
  constructor
  · rintro ⟨e, h⟩
    obtain ⟨before, range, after, hranges, -, hlarge, -⟩ := sample_eq_error_iff.mp h
    exact ⟨range, by simp [hranges], hlarge⟩
  · rintro ⟨range, hrange, hlarge⟩
    rcases hsample : c.sample limit with e | ⟨indices, tallies⟩
    · exact ⟨e, rfl⟩
    · obtain ⟨parts, hparts, -, -⟩ := exists_parts_of_sample hsample
      have hall : ∀ range ∈ c.operationRanges, sampleSize (width range) limit ≤ maxSample :=
        forall_mem_of_forall₂ <| hparts.flip.imp fun part _ hpart =>
          exists_sampleRange_eq_ok_iff.mp ⟨part, hpart⟩
      exact absurd hlarge (hall range hrange).not_gt

end Subject

/-! ### Reports -/

section

variable {k : Catalog} {s : Settings} {output : String} {classes : List ClassName}

/-- A tally without the test classes. -/
def ClassTally.counts (t : ClassTally) : ClassTally := { t with testClasses := [] }

/-- There is a subject for every class if the settings can be used. -/
theorem Subject.exists_ofSettings_eq_ok (hs : s.fault? = none) (tested : ClassName) :
    ∃ c, Subject.ofSettings k s tested = .ok c := by
  obtain ⟨hdepth, -, -⟩ := s.bounds_of_fault? hs
  obtain ⟨depth, hdepth⟩ := Nat.exists_eq_succ_of_ne_zero hdepth
  rw [Subject.ofSettings, hdepth, Subject.ofCatalog_succ]
  exact ⟨_, rfl⟩

/-- An inspection gives the tallies of its classes, if there are subjects for them. -/
theorem inspect_eq_ok {subjects : List Subject}
    (h : List.Forall₂ (fun tested c => Subject.ofSettings k s tested = .ok c) classes subjects) :
    inspect k classes s =
      .ok (subjects.map fun c => c.classTally (c.tally s.plansPerOperation) []) := by
  rw [inspect, mapM_eq_ok_iff, List.forall₂_map_right_iff]
  refine h.imp fun tested c hc => ?_
  rw [inspectClass, hc]
  rfl

/-- What a run reports of a class is what is counted without a sample. -/
theorem ClassRun.IsFor.counts_tally {tested : ClassName} {r : ClassRun}
    (h : ClassRun.IsFor k s tested r) :
    r.tally.counts = r.subject.classTally (r.subject.tally s.plansPerOperation) [] := by
  rw [ClassRun.tally, Subject.tally_of_sample h.sample]
  rfl

/-- An inspection finds what a run reports. -/
theorem inspect_eq_of_generate {report : RunReport} {files : List (String × String)}
    (h : (generate k classes s output).run.run [] = (.ok report, files)) :
    inspect k classes s = .ok (report.classes.map ClassTally.counts) := by
  obtain ⟨p, before, hclasses, h⟩ := Writing.exists_of_bind_eq_ok h
  obtain ⟨runs, htracks⟩ := (Progress.Tracks.initial k s output).foldlM_generateClass hclasses
  obtain ⟨paths, written, -, h⟩ := Writing.exists_of_bind_eq_ok h
  obtain ⟨rfl, -⟩ := Writing.eq_of_pure h
  have hsubjects : List.Forall₂ (fun tested c => Subject.ofSettings k s tested = .ok c) classes
      (runs.map ClassRun.subject) := by
    rw [List.forall₂_map_right_iff]
    exact htracks.each.imp fun _ _ hr => hr.subject
  have hcounts : ∀ r ∈ runs, r.subject.classTally (r.subject.tally s.plansPerOperation) [] =
      r.tally.counts :=
    forall_mem_of_forall₂ (htracks.each.imp fun _ _ hr => hr.counts_tally.symm)
  rw [inspect_eq_ok hsubjects, htracks.tallies, List.map_map, List.map_map]
  exact congrArg Except.ok (List.map_congr_left hcounts)

/-- **Inspections and generating runs report the same.** An inspection with settings that can be
used always gives the tallies of its classes, and they are those that a generating run reports if it
succeeds. Whether the sample of a class can be taken shows in the sizes that are counted for its
operations, and the inspection gives these also if it cannot. -/
theorem exists_inspect_eq_ok (hs : s.fault? = none) :
    ∃ subjects,
      List.Forall₂ (fun tested c => Subject.ofSettings k s tested = .ok c) classes subjects ∧
      inspect k classes s =
        .ok (subjects.map fun c => c.classTally (c.tally s.plansPerOperation) []) ∧
      (∀ output report files, (generate k classes s output).run.run [] = (.ok report, files) →
        inspect k classes s = .ok (report.classes.map ClassTally.counts)) ∧
      ∀ (c : Subject) limit, (∃ e, c.sample limit = .error e) ↔
        ∃ range ∈ c.operationRanges, maxSample < sampleSize (Subject.width range) limit := by
  obtain ⟨subjects, hsubjects⟩ :=
    exists_mapM_eq_ok fun tested (_ : tested ∈ classes) => Subject.exists_ofSettings_eq_ok hs tested
  rw [mapM_eq_ok_iff] at hsubjects
  exact ⟨subjects, hsubjects, inspect_eq_ok hsubjects, fun _ _ _ => inspect_eq_of_generate,
    fun _ _ => Subject.exists_sample_eq_error_iff⟩

end

/-! ### A sample that is too large -/

namespace Mixer

/-- All plans of each operation. -/
def unlimited : Settings := { settings with plansPerOperation := 0 }

/-- With a limit the counts of a generating run are found, and without one there are counts but no
sample. -/
theorem exists_inspect_eq_ok_unlimited :
    (∃ report files, (generate catalog [name] settings "out").run.run [] = (.ok report, files) ∧
      inspect catalog [name] settings = .ok (report.classes.map ClassTally.counts)) ∧
    ∃ c, Subject.ofSettings catalog unlimited name = .ok c ∧
      inspect catalog [name] unlimited = .ok [c.classTally (c.tally 0) []] ∧
      ∃ e, c.sample 0 = .error e := by
  constructor
  · have hvalid : settings.fault? = none := rfl
    obtain ⟨report, files, hrun⟩ :=
      @exists_generate_eq_ok catalog settings "out" hvalid (by decide) [name]
    obtain ⟨-, -, -, hreport, -⟩ := @exists_inspect_eq_ok catalog settings [name] hvalid
    exact ⟨report, files, hrun, hreport "out" report files hrun⟩
  · have hvalid : unlimited.fault? = none := rfl
    obtain ⟨subjects, hsubjects, hinspect, -, hsample⟩ :=
      @exists_inspect_eq_ok catalog unlimited [name] hvalid
    obtain ⟨c, rest, hc, hrest, rfl⟩ := List.forall₂_cons_left_iff.mp hsubjects
    obtain rfl := List.forall₂_nil_left_iff.mp hrest
    have hsubject : Subject.ofSettings catalog unlimited name = .ok subject := by
      change Except.mapError _ (Subject.ofCatalog catalog name 4 .global .global) = _
      rw [Subject.ofCatalog_succ]
      rfl
    obtain rfl := Except.ok.inj (hc.symm.trans hsubject)
    refine ⟨subject, hsubject, hinspect, (hsample subject 0).mpr ⟨(mix, 0, maxCount), ?_, ?_⟩⟩
    · rw [operationRanges_subject]
      exact List.mem_cons_self
    · decide

end Mixer

end CallPlan

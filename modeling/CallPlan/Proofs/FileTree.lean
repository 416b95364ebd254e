import CallPlan.Run.FileTree
import Mathlib

/-!
# Written files are found again

Where a path leads to is told by its names alone (`Location.ofPath`), as long as nothing is in the
way. So a written file is found again, and writing it leaves the files at other locations as they
are (`FileTree.read?_of_write?`). Files at different locations can all be written without any of
them being overwritten (`FileTree.read?_of_writeAll?`).
-/

namespace CallPlan

/-! ### Locations -/

namespace Location

/-- Where a name leads to from a directory. -/
def follow (here : Location) (name : String) : Location :=
  if FileTree.isIdle name then here else if name = ".." then here.up else name :: here

/-- Where a path leads to. -/
def ofPath (path : String) : Location :=
  (FileTree.namesOf path).foldl follow (startOf path)

theorem follow_of_isName {here : Location} {name : String} (hidle : FileTree.isIdle name = false)
    (hup : name ≠ "..") : follow here name = name :: here := by
  simp [follow, hidle, hup]

end Location

namespace FileTree

/-- A name can be entered if it leads nowhere else, leads up, or is that of a directory. -/
theorem enter_eq_some_iff {t : FileTree} {here there : Location} {name : String} :
    t.enter here name = some there ↔
      there = here.follow name ∧
        (isIdle name = true ∨ name = ".." ∨ t.hasDirectory (name :: here) = true) := by
  unfold enter Location.follow
  split_ifs with hidle hup hdirectory
  · exact ⟨fun h => ⟨(Option.some.inj h).symm, .inl hidle⟩, fun h => congrArg some h.1.symm⟩
  · exact ⟨fun h => ⟨(Option.some.inj h).symm, .inr (.inl hup)⟩, fun h => congrArg some h.1.symm⟩
  · exact ⟨fun h => ⟨(Option.some.inj h).symm, .inr (.inr hdirectory)⟩,
      fun h => congrArg some h.1.symm⟩
  · simp [hidle, hup, hdirectory]

/-- The directories of a tree are there in another one too. -/
def DirectoriesIn (t u : FileTree) : Prop := ∀ l, t.hasDirectory l = true → u.hasDirectory l = true

/-- What can be entered can be entered when there are more directories. -/
theorem DirectoriesIn.enter {t u : FileTree} (h : t.DirectoriesIn u) {here there : Location}
    {name : String} (henter : t.enter here name = some there) : u.enter here name = some there := by
  obtain ⟨hfollow, hway⟩ := enter_eq_some_iff.mp henter
  exact enter_eq_some_iff.mpr ⟨hfollow, hway.imp_right (.imp_right (h _))⟩

/-- Where a way leads that is open in one tree, it leads in the other. -/
theorem DirectoriesIn.foldlM_enter {t u : FileTree} (h : t.DirectoriesIn u) {names : List String}
    {here there : Location} (hway : names.foldlM t.enter here = some there) :
    names.foldlM u.enter here = some there := by
  induction names generalizing here with
  | nil => exact hway
  | cons name names ih =>
    rw [List.foldlM_cons] at hway ⊢
    obtain ⟨next, henter, hrest⟩ := Option.bind_eq_some_iff.mp hway
    exact Option.bind_eq_some_iff.mpr ⟨next, h.enter henter, ih hrest⟩

theorem foldl_follow_of_foldlM_enter {t : FileTree} {names : List String} {here there : Location}
    (hway : names.foldlM t.enter here = some there) : names.foldl Location.follow here = there := by
  induction names generalizing here with
  | nil => exact Option.some.inj hway
  | cons name names ih =>
    rw [List.foldlM_cons] at hway
    obtain ⟨next, henter, hrest⟩ := Option.bind_eq_some_iff.mp hway
    rw [List.foldl_cons, ← (enter_eq_some_iff.mp henter).1]
    exact ih hrest

/-- Making a directory on the way changes no file and removes no directory. -/
theorem enterNew_spec {t u : FileTree} {here there : Location} {name : String}
    (h : t.enterNew here name = some (u, there)) :
    u.texts = t.texts ∧ t.DirectoriesIn u ∧ u.enter here name = some there := by
  unfold enterNew at h
  split at h
  · rename_i henter
    obtain ⟨rfl, rfl⟩ := Prod.mk.inj (Option.some.inj h)
    exact ⟨rfl, fun l hl => hl, henter⟩
  · rename_i henter
    simp only at h
    split_ifs at h
    obtain ⟨rfl, rfl⟩ := Prod.mk.inj (Option.some.inj h)
    refine ⟨rfl, fun l hl => ?_, enter_eq_some_iff.mpr ⟨?_, .inr (.inr ?_)⟩⟩
    · simp only [hasDirectory, Bool.or_eq_true, List.contains_cons] at hl ⊢
      exact hl.imp_right .inr
    · -- neither an idle name nor one that leads up is new
      have hnew : ¬ (isIdle name = true ∨ name = "..") := fun hold => by
        cases henter ▸ enter_eq_some_iff.mpr ⟨rfl, hold.imp_right .inl⟩
      obtain ⟨hidle, hup⟩ := not_or.mp hnew
      exact (Location.follow_of_isName (Bool.eq_false_iff.mpr hidle) hup).symm
    · simp [hasDirectory]

/-- Directories are made on the way as far as they are missing, and no text is changed. -/
theorem foldlM_enterNew_spec {t u : FileTree} {names : List String} {here there : Location}
    (h : names.foldlM (fun (t, here) name => enterNew t here name) (t, here) = some (u, there)) :
    u.texts = t.texts ∧ t.DirectoriesIn u ∧ names.foldlM u.enter here = some there := by
  induction names generalizing t here with
  | nil =>
    obtain ⟨rfl, rfl⟩ := Prod.mk.inj (Option.some.inj h)
    exact ⟨rfl, fun l hl => hl, rfl⟩
  | cons name names ih =>
    rw [List.foldlM_cons] at h
    obtain ⟨⟨mid, next⟩, hnew, hrest⟩ := Option.bind_eq_some_iff.mp h
    obtain ⟨htexts, hdirectories, henter⟩ := enterNew_spec hnew
    obtain ⟨htexts', hdirectories', hway⟩ := ih hrest
    refine ⟨htexts'.trans htexts, fun l hl => hdirectories' l (hdirectories l hl), ?_⟩
    rw [List.foldlM_cons]
    exact Option.bind_eq_some_iff.mpr ⟨next, hdirectories'.enter henter, hway⟩

theorem ofPath_of_split? {path last : String} {names : List String}
    (h : split? path = some (names, last)) :
    Location.ofPath path = last :: names.foldl Location.follow (Location.startOf path) := by
  simp only [split?, Option.bind_eq_bind, Option.bind_eq_some_iff, Option.pure_def, guard] at h
  obtain ⟨name, hlast, _, hguard, hnames⟩ := h
  obtain ⟨rfl, rfl⟩ := Prod.mk.inj (Option.some.inj hnames)
  split_ifs at hguard with hname
  have hlast' : isIdle name = false ∧ name ≠ ".." := by
    simp only [Bool.and_eq_true, Bool.not_eq_true', decide_eq_true_eq] at hname
    exact hname.1
  have hfold := congrArg (fun names => names.foldl Location.follow (Location.startOf path))
    (List.dropLast_append_getLast? name hlast)
  simp only [List.foldl_append, List.foldl_cons, List.foldl_nil,
    Location.follow_of_isName hlast'.1 hlast'.2] at hfold
  exact hfold.symm

/-- A written file is found, and files at other locations are found as before. -/
theorem read?_of_write? {t u : FileTree} {path text : String} (h : t.write? path text = some u) :
    u.read? path = some text ∧ ∀ other found, Location.ofPath other ≠ Location.ofPath path →
      t.read? other = some found → u.read? other = some found := by
  simp only [write?, Option.bind_eq_bind, Option.bind_eq_some_iff, Option.pure_def, guard,
    Prod.exists] at h
  obtain ⟨names, last, hsplit, mid, directory, hways, _, hguard, hput⟩ := h
  obtain rfl := Option.some.inj hput
  obtain ⟨htexts, hdirectories, hway⟩ := foldlM_enterNew_spec hways
  have hlocation := ofPath_of_split? hsplit
  rw [foldl_follow_of_foldlM_enter hway] at hlocation
  have hput : mid.DirectoriesIn (mid.put (last :: directory) text) := fun l hl => hl
  constructor
  · simp only [read?, Option.bind_eq_bind, Option.bind_eq_some_iff, Prod.exists]
    exact ⟨names, last, hsplit, directory, hput.foldlM_enter hway, textAt?_put_self _ _ _⟩
  · intro other found hother hread
    simp only [read?, Option.bind_eq_bind, Option.bind_eq_some_iff, Prod.exists] at hread ⊢
    obtain ⟨names', last', hsplit', directory', hway', htext⟩ := hread
    refine ⟨names', last', hsplit', directory',
      hput.foldlM_enter (hdirectories.foldlM_enter hway'), ?_⟩
    have hlocation' := ofPath_of_split? hsplit'
    rw [foldl_follow_of_foldlM_enter hway'] at hlocation'
    rw [textAt?_put_of_ne _ _ (by rwa [← hlocation, ← hlocation']), textAt?, htexts]
    exact htext

/-- Writes files given by their paths and texts, one after the other. -/
def writeAll? (t : FileTree) (files : List (String × String)) : Option FileTree :=
  files.foldlM (fun t file => t.write? file.1 file.2) t

/-- Files at different locations do not overwrite each other: all of them are found with their
texts. -/
theorem read?_of_writeAll? {files : List (String × String)}
    (hlocations : (files.map fun file => Location.ofPath file.1).Nodup) {t u : FileTree}
    (h : t.writeAll? files = some u) :
    (∀ file ∈ files, u.read? file.1 = some file.2) ∧
      ∀ other found, Location.ofPath other ∉ files.map (fun file => Location.ofPath file.1) →
        t.read? other = some found → u.read? other = some found := by
  induction files generalizing t with
  | nil =>
    obtain rfl := Option.some.inj h
    exact ⟨by simp, fun other found _ hread => hread⟩
  | cons file files ih =>
    obtain ⟨hfile, hfiles⟩ := List.nodup_cons.mp hlocations
    rw [writeAll?, List.foldlM_cons] at h
    obtain ⟨mid, hwrite, hrest⟩ := Option.bind_eq_some_iff.mp h
    obtain ⟨hread, hkeep⟩ := read?_of_write? hwrite
    obtain ⟨hreads, hkeeps⟩ := ih hfiles hrest
    refine ⟨List.forall_mem_cons.mpr ⟨hkeeps _ _ hfile hread, hreads⟩,
      fun other found hother hbefore => ?_⟩
    obtain ⟨hne, hnotin⟩ := not_or.mp (mt List.mem_cons.mpr hother)
    exact hkeeps _ _ hnotin (hkeep _ _ hne hbefore)

end FileTree

end CallPlan

import CallPlan.Proofs.FileTree
import CallPlan.Render.SourceFile
import CallPlan.Signature.ClassName

/-!
# Where source files are

A path below a directory adds its names to those of the directory (`FileTree.namesOf_join`). So
source files lie at different locations below any directory if their packages or their classes
differ (`SourceFile.eq_of_location_eq`), provided that these are named by identifiers, as the names
that are read are (`ClassName.proper_of_parse`).
-/

namespace CallPlan

namespace FileTree

/-! ### Joined paths -/

/-- What can be the name of a file: one part of a path that leads down. -/
structure IsName (name : String) : Prop where
  notMem_slash : '/' ∉ name.toList
  isIdle_eq_false : isIdle name = false
  ne_up : name ≠ ".."

/-- Any character but a slash and a dot makes a name. -/
theorem IsName.of_mem {name : String} (hslash : '/' ∉ name.toList) {c : Char}
    (hc : c ∈ name.toList) (hdot : c ≠ '.') : IsName name := by
  have hother (dots : String) (hdots : ∀ d ∈ dots.toList, d = '.') : name ≠ dots := by
    rintro rfl
    exact hdot (hdots c hc)
  refine ⟨hslash, ?_, hother ".." (by simp)⟩
  rw [isIdle, decide_eq_false (hother "" (by simp)), decide_eq_false (hother "." (by simp))]
  rfl

theorem IsName.ne_empty {name : String} (h : IsName name) : name ≠ "" := by
  rintro rfl
  cases h.isIdle_eq_false

theorem IsName.namesOf_eq {name : String} (h : IsName name) : namesOf name = [name] := by
  rw [namesOf, List.splitOn_eq_singleton h.notMem_slash, List.map_singleton, String.ofList_toList]

theorem foldl_follow {names : List String} (h : ∀ name ∈ names, IsName name) (here : Location) :
    names.foldl Location.follow here = names.reverse ++ here := by
  induction names generalizing here with
  | nil => rfl
  | cons name names ih =>
    obtain ⟨hname, hnames⟩ := List.forall_mem_cons.mp h
    rw [List.foldl_cons, Location.follow_of_isName hname.isIdle_eq_false hname.ne_up, ih hnames,
      List.reverse_cons, List.append_assoc]
    rfl

/-- The names in front of those of a path below. -/
def namesAbove (outer : String) : List String :=
  if outer.isEmpty || outer.endsWith "/" then (namesOf outer).dropLast else namesOf outer

theorem endsWith_slash_iff {path : String} :
    path.endsWith "/" = true ↔ ∃ front, path.toList = front ++ ['/'] := by
  rw [String.endsWith_eq_endsWith_toSlice, String.Slice.endsWith_string_iff]
  simp [List.IsSuffix, eq_comm]

theorem startsWith_slash_iff {path : String} :
    path.startsWith "/" = true ↔ ∃ rest, path.toList = '/' :: rest := by
  rw [String.startsWith_string_iff]
  simp [List.IsPrefix, eq_comm]

/-- A path below another one adds its names. -/
theorem namesOf_join (outer : String) {inner : String} (hinner : inner.startsWith "/" = false) :
    namesOf (Text.Path.join outer inner) = namesAbove outer ++ namesOf inner := by
  rw [Text.Path.join, if_neg (by simp [hinner]), namesAbove]
  split
  · rename_i habove
    rw [Bool.or_eq_true, String.isEmpty_iff, endsWith_slash_iff] at habove
    rcases habove with rfl | ⟨front, hfront⟩
    · simp [namesOf]
    · rw [namesOf, String.toList_append, hfront, namesOf, namesOf, hfront]
      simp [List.splitOn_append_cons_self]
  · rw [namesOf, String.toList_append, String.toList_append, List.append_assoc]
    exact (congrArg (List.map String.ofList) (List.splitOn_append_cons_self _ _)).trans
      (List.map_append ..)

/-- A path below another one starts where that one starts. -/
theorem startOf_join (outer : String) {inner : String} (hinner : inner.startsWith "/" = false) :
    Location.startOf (Text.Path.join outer inner) = Location.startOf outer := by
  have hstart : (Text.Path.join outer inner).startsWith "/" = outer.startsWith "/" := by
    rw [Text.Path.join, if_neg (by simp [hinner])]
    rcases houter : outer.toList with _ | ⟨c, cs⟩
    · obtain rfl : outer = "" := String.toList_injective houter
      have hempty : "".isEmpty || "".endsWith "/" := by
        rw [String.isEmpty_iff.mpr rfl, Bool.true_or]
      rw [if_pos hempty, String.empty_append, hinner]
      simp
    · rw [Bool.eq_iff_iff]
      split <;> simp [houter]
  rw [Location.startOf, hstart, Location.startOf]

/-- The location that paths below lead to if they have no names of their own. -/
def locationAbove (outer : String) : Location :=
  (namesAbove outer).foldl Location.follow (Location.startOf outer)

/-- A joined path leads where its second part leads from where its first part leads. -/
theorem ofPath_join (outer : String) {inner : String} (hinner : inner.startsWith "/" = false) :
    Location.ofPath (Text.Path.join outer inner) =
      (namesOf inner).foldl Location.follow (locationAbove outer) := by
  rw [Location.ofPath, namesOf_join outer hinner, startOf_join outer hinner, List.foldl_append]
  rfl

theorem IsName.startsWith_slash {name : String} (h : IsName name) :
    name.startsWith "/" = false := by
  rw [Bool.eq_false_iff, ne_eq, startsWith_slash_iff]
  rintro ⟨rest, hrest⟩
  exact h.notMem_slash (by simp [hrest])

/-- The names of a path that ends with a slash, or has no character, end with an empty one. -/
theorem getLast?_namesOf {path : String} (h : (path.isEmpty || path.endsWith "/") = true) :
    (namesOf path).getLast? = some "" := by
  rw [Bool.or_eq_true, String.isEmpty_iff, endsWith_slash_iff] at h
  rcases h with rfl | ⟨front, hfront⟩
  · rfl
  · rw [namesOf, hfront]
    simp [List.splitOn_append_cons_self]

/-- All names of a path that ends with a name are above the paths below it. -/
theorem namesAbove_join {outer name : String} (h : IsName name) :
    namesAbove (Text.Path.join outer name) = namesAbove outer ++ [name] := by
  have hnames := namesOf_join outer h.startsWith_slash
  rw [h.namesOf_eq] at hnames
  rw [namesAbove, hnames]
  refine if_neg fun hempty => ?_
  have hlast := getLast?_namesOf hempty
  rw [hnames, List.getLast?_concat] at hlast
  exact h.ne_empty (Option.some.inj hlast)

/-- Names that are joined to a path one after the other stand behind those that the path has. -/
theorem namesAbove_foldl_join {names : List String} (h : ∀ name ∈ names, IsName name)
    (outer : String) :
    namesAbove (names.foldl Text.Path.join outer) = namesAbove outer ++ names := by
  induction names generalizing outer with
  | nil => simp
  | cons name names ih =>
    obtain ⟨hname, hnames⟩ := List.forall_mem_cons.mp h
    rw [List.foldl_cons, ih hnames, namesAbove_join hname, List.append_assoc]
    rfl

end FileTree

/-! ### Paths of source files -/

namespace SourceFile

/-- The directories of a source file, from the outermost one. -/
def directories (f : SourceFile) : List String :=
  if f.package.isEmpty then [] else (f.package.toList.splitOn '.').map String.ofList

/-- All parts of the path are names. -/
structure Proper (f : SourceFile) : Prop where
  directories : ∀ part ∈ f.directories, FileTree.IsName part
  fileName : FileTree.IsName f.fileName

/-- The path of a source file leads through its directories to its file name. -/
theorem namesOf_path {f : SourceFile} (h : f.Proper) :
    FileTree.namesOf f.path = f.directories ++ [f.fileName] := by
  have hpath : f.path = Text.Path.join (f.directories.foldl Text.Path.join "") f.fileName :=
    List.foldl_append
  have hnone : FileTree.namesAbove "" = [] := by simp [FileTree.namesAbove, FileTree.namesOf]
  rw [hpath, FileTree.namesOf_join _ h.fileName.startsWith_slash,
    FileTree.namesAbove_foldl_join h.directories, hnone, List.nil_append, h.fileName.namesOf_eq]

theorem path_startsWith_slash {f : SourceFile} (h : f.Proper) :
    f.path.startsWith "/" = false := by
  rw [Bool.eq_false_iff, ne_eq, FileTree.startsWith_slash_iff]
  rintro ⟨rest, hrest⟩
  -- otherwise an empty name came first
  have hempty : "" ∈ FileTree.namesOf f.path := by
    have hsplit : ('/' :: rest).splitOn '/' = [].splitOn '/' ++ rest.splitOn '/' :=
      List.splitOn_append_cons_self [] rest
    rw [FileTree.namesOf, hrest, hsplit, List.splitOn_nil]
    exact List.mem_cons_self
  rw [namesOf_path h, List.mem_append, List.mem_singleton] at hempty
  rcases hempty with hdirectory | hfile
  · exact (h.directories _ hdirectory).ne_empty rfl
  · exact h.fileName.ne_empty hfile.symm

/-- Where a source file is below a directory. -/
theorem location_eq {f : SourceFile} (h : f.Proper) (output : String) :
    Location.ofPath (Text.Path.join output f.path) =
      f.fileName :: (f.directories.reverse ++ FileTree.locationAbove output) := by
  have hnames : ∀ part ∈ f.directories ++ [f.fileName], FileTree.IsName part :=
    List.forall_mem_append.mpr ⟨h.directories, List.forall_mem_singleton.mpr h.fileName⟩
  rw [FileTree.ofPath_join output (path_startsWith_slash h), namesOf_path h,
    FileTree.foldl_follow hnames, List.reverse_append]
  rfl

/-- Classes with the same file name have the same name. -/
theorem fileName_injective {f g : SourceFile} (h : f.fileName = g.fileName) :
    f.className = g.className := by
  have hcharacters := congrArg String.toList h
  simp only [fileName, String.toList_append] at hcharacters
  exact String.toList_injective (List.append_cancel_right hcharacters)

/-- Source files in the same directories have the same package. -/
theorem package_eq_of_directories_eq {f g : SourceFile} (h : f.directories = g.directories) :
    f.package = g.package := by
  have hsplit (package : String) : (package.toList.splitOn '.').map String.ofList ≠ [] :=
    fun hnil => List.splitOn_ne_nil _ _ (List.map_eq_nil_iff.mp hnil)
  unfold directories at h
  split_ifs at h with hf hg hg
  · rw [String.isEmpty_iff.mp hf, String.isEmpty_iff.mp hg]
  · exact absurd h.symm (hsplit _)
  · exact absurd h (hsplit _)
  · have hsegments := List.map_injective_iff.mpr (fun _ _ => String.ofList_inj.mp) h
    have hcharacters := congrArg (List.intercalate ['.']) hsegments
    rw [List.intercalate_splitOn, List.intercalate_splitOn] at hcharacters
    exact String.toList_injective hcharacters

/-- **Different classes are in different files**: source files below a directory are in the same
place only if they agree in package and class. -/
theorem eq_of_location_eq {f g : SourceFile} (hf : f.Proper) (hg : g.Proper) {output : String}
    (h : Location.ofPath (Text.Path.join output f.path) =
      Location.ofPath (Text.Path.join output g.path)) :
    f.package = g.package ∧ f.className = g.className := by
  rw [location_eq hf, location_eq hg] at h
  obtain ⟨hfile, hdirectories⟩ := List.cons.inj h
  have hsame := List.reverse_injective (List.append_cancel_right hdirectories)
  exact ⟨package_eq_of_directories_eq hsame, fileName_injective hfile⟩

end SourceFile

/-! ### Names that are read -/

theorem Text.notMem_of_isIdentifier {cs : List Char} (h : isIdentifier cs = true) {c : Char}
    (hc : continuesIdentifier c = false) : c ∉ cs := fun hmem => by
  rw [continuesIdentifier_of_mem h hmem] at hc
  cases hc

/-- An identifier can be the name of a file. -/
theorem Text.isName_of_isIdentifier {cs : List Char} (h : isIdentifier cs = true) :
    FileTree.IsName (String.ofList cs) := by
  obtain ⟨c, hc⟩ := List.exists_mem_of_ne_nil cs (by rintro rfl; cases h)
  have hdot : '.' ∉ cs := notMem_of_isIdentifier h (by decide)
  refine .of_mem (c := c) ?_ ?_ (fun hsame => hdot (hsame ▸ hc))
  · rw [String.toList_ofList]
    exact notMem_of_isIdentifier h (by decide)
  · rwa [String.toList_ofList]

namespace ClassName

/-- Package and simple names are made of identifiers. -/
structure Proper (c : ClassName) : Prop where
  package : ∃ segments : List (List Char), (∀ cs ∈ segments, Text.isIdentifier cs = true) ∧
    c.package.toList = ['.'].intercalate segments
  names : ∀ name ∈ c.names, Text.isIdentifier name.toList = true

/-- The package is what the segments spell, and they are identifiers, unless there is one empty
segment. -/
theorem toList_of_packageOfSegments? {segments : List (List Char)} {package : String}
    (h : packageOfSegments? segments = some package) :
    package.toList = ['.'].intercalate segments ∧
      (segments = [[]] ∨ ∀ cs ∈ segments, Text.isIdentifier cs = true) := by
  unfold packageOfSegments? at h
  split_ifs at h with hsegments
  obtain rfl := Option.some.inj h
  refine ⟨?_, hsegments.imp_right List.all_eq_true.mp⟩
  rw [String.toList_intercalate]
  simp [Function.comp_def]

/-- The simple names are what stands between the dollar signs, and they are identifiers. -/
theorem splitOn_of_chainOfText? {cs : List Char} {outermost : String} {members : List String}
    (h : chainOfText? cs = some (outermost, members)) :
    cs.splitOn '$' = (outermost :: members).map String.toList ∧
      ∀ name ∈ outermost :: members, Text.isIdentifier name.toList = true := by
  unfold chainOfText? at h
  split at h
  · cases h
  · rename_i first rest hsplit
    split_ifs at h with hall
    obtain ⟨rfl, rfl⟩ := Prod.mk.inj (Option.some.inj h)
    rw [← List.map_cons (f := String.ofList)]
    refine ⟨by simp [hsplit, Function.comp_def], List.forall_mem_map.mpr fun name hname => ?_⟩
    rw [String.toList_ofList]
    exact List.all_eq_true.mp hall name hname

/-- A name that is read has its package in front of the last dot and its simple names behind it. -/
theorem exists_segments_of_parse {text : String} {c : ClassName} (h : parse text = .ok c) :
    ∃ segments last, (Text.trim text.toList).splitOn '.' = segments ++ [last] ∧
      packageOfSegments? segments = some c.package ∧
      chainOfText? last = some (c.outermost, c.members) := by
  unfold parse at h
  simp only at h
  split_ifs at h with hempty
  split at h
  · cases h
  · rename_i package hpackage
    split at h
    · cases h
    · rename_i outermost members hchain
      obtain rfl := Except.ok.inj h
      obtain ⟨segments, last, hsplit⟩ :=
        (List.eq_nil_or_concat' _).resolve_left (List.splitOn_ne_nil '.' (Text.trim text.toList))
      rw [hsplit, List.dropLast_concat] at hpackage
      rw [hsplit, List.getLast?_concat] at hchain
      exact ⟨segments, last, hsplit, hpackage, hchain⟩

/-- A name that is read is made of identifiers. -/
theorem proper_of_parse {text : String} {c : ClassName} (h : parse text = .ok c) : c.Proper := by
  obtain ⟨segments, last, -, hpackage, hchain⟩ := exists_segments_of_parse h
  obtain ⟨hspelled, hempty | hsegments⟩ := toList_of_packageOfSegments? hpackage
  · subst hempty
    exact ⟨⟨[], by simp, hspelled⟩, (splitOn_of_chainOfText? hchain).2⟩
  · exact ⟨⟨segments, hsegments, hspelled⟩, (splitOn_of_chainOfText? hchain).2⟩

theorem simpleName_mem_names (c : ClassName) : c.simpleName ∈ c.names := by
  unfold simpleName names
  rcases hlast : c.members.getLast? with _ | name
  · exact List.mem_cons_self
  · exact List.mem_cons_of_mem _ (List.mem_of_getLast? hlast)

theorem Proper.notMem_simpleName {c : ClassName} (h : c.Proper) {d : Char}
    (hd : Text.continuesIdentifier d = false) : d ∉ c.simpleName.toList :=
  Text.notMem_of_isIdentifier (h.names _ c.simpleName_mem_names) hd

end ClassName

/-- A source file in the package of a proper class has a proper path. -/
theorem SourceFile.proper_of_proper {f : SourceFile} {c : ClassName} (hc : c.Proper)
    (hpackage : f.package = c.package) (hname : '/' ∉ f.className.toList) : f.Proper := by
  constructor
  · obtain ⟨segments, hsegments, hdots⟩ := hc.package
    intro part hpart
    rw [directories, hpackage] at hpart
    split_ifs at hpart with hempty
    · simp at hpart
    · -- the package is cut where its identifiers were put together
      have hdot : ∀ cs ∈ segments, '.' ∉ cs := fun cs hcs =>
        Text.notMem_of_isIdentifier (hsegments cs hcs) (by decide)
      have hne : segments ≠ [] := by
        rintro rfl
        exact hempty (String.isEmpty_iff.mpr (String.toList_injective hdots))
      rw [hdots, List.splitOn_intercalate '.' hdot hne] at hpart
      obtain ⟨cs, hcs, rfl⟩ := List.mem_map.mp hpart
      exact Text.isName_of_isIdentifier (hsegments cs hcs)
  · have hj : 'j' ∈ f.fileName.toList := by simp [fileName]
    exact .of_mem (by simpa [fileName] using hname) hj (by decide)

end CallPlan

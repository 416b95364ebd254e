import CallPlan.Proofs.Paths
import CallPlan.Proofs.Words

/-!
# Reading the names of classes

The binary name of a class is cut at its dots, and behind the last one at its dollar signs. No
identifier contains either of them, and none contains white space. So a name that is made of
identifiers is read back, and no other one is (`ClassName.parse_binaryName_eq_ok_iff`).

There may be white space around the name, and there is one more text that is read as a name: for
classes in the default package, the name with a dot in front (`ClassName.parse_eq_ok_iff`).
-/

namespace CallPlan

/-! ### Characters of names -/

namespace Text

/-- Sets of characters whose runs do not meet have no character in common. -/
theorem CharSet.hasCode_eq_false_of_apart {s t : CharSet}
    (h : (s.all fun r => t.all fun q => r.2 < q.1 || q.2 < r.1) = true) {n : Nat}
    (hn : s.hasCode n = true) : t.hasCode n = false := by
  rw [Bool.eq_false_iff]
  intro htn
  obtain ⟨r, hr, hrn⟩ := exists_run_of_hasCode hn
  obtain ⟨q, hq, hqn⟩ := exists_run_of_hasCode htn
  have hapart := List.all_eq_true.mp (List.all_eq_true.mp h r hr) q hq
  simp only [Bool.or_eq_true, decide_eq_true_eq] at hapart
  omega

/-- White space stands in no identifier. -/
theorem continuesIdentifier_eq_false_of_isBlank {c : Char} (h : isBlank c = true) :
    continuesIdentifier c = false := by
  have hletter : letters.contains c = false :=
    CharSet.hasCode_eq_false_of_apart (by decide +kernel) h
  have hnumeral : numerals.contains c = false :=
    CharSet.hasCode_eq_false_of_apart (by decide +kernel) h
  have hunderscore : c ≠ '_' := by
    rintro rfl
    exact absurd h (by decide)
  simp [continuesIdentifier, startsIdentifier, hletter, hnumeral, hunderscore]

/-- A character of a name in binary form. -/
def InName (c : Char) : Prop := continuesIdentifier c = true ∨ c = '.' ∨ c = '$'

theorem InName.isBlank_eq_false {c : Char} (h : InName c) : isBlank c = false := by
  rcases h with hc | rfl | rfl
  · rw [Bool.eq_false_iff]
    intro hblank
    rw [continuesIdentifier_eq_false_of_isBlank hblank] at hc
    cases hc
  · decide
  · decide

theorem inName_of_isIdentifier {cs : List Char} (h : isIdentifier cs = true) :
    ∀ c ∈ cs, InName c :=
  fun _ hc => .inl (continuesIdentifier_of_mem h hc)

/-- A text without white space at its start stays as it is there. -/
theorem trimStart_eq_self {cs : List Char} (h : ∀ c ∈ cs.head?, isBlank c = false) :
    trimStart cs = cs := by
  cases cs with
  | nil => rfl
  | cons c cs => exact trimStart_cons_of_not_isBlank (h c rfl) cs

theorem isBlank_eq_false_of_mem_head?_trimStart (cs : List Char) :
    ∀ c ∈ (trimStart cs).head?, isBlank c = false := by
  intro c hc
  rw [trimStart, ← List.find?_not_eq_head?_dropWhile] at hc
  simpa using List.find?_some hc

/-- A text without white space at its ends stays as it is. -/
theorem trim_eq_self {cs : List Char} (hstart : ∀ c ∈ cs.head?, isBlank c = false)
    (hend : ∀ c ∈ cs.getLast?, isBlank c = false) : trim cs = cs := by
  rw [trim, trimEnd, trimStart_eq_self hstart, trimStart_eq_self, List.reverse_reverse]
  rwa [List.head?_reverse]

/-- Nothing is trimmed off a name. -/
theorem trim_eq_self_of_inName {cs : List Char} (h : ∀ c ∈ cs, InName c) : trim cs = cs :=
  trim_eq_self (fun c hc => (h c (List.mem_of_mem_head? hc)).isBlank_eq_false)
    (fun c hc => (h c (List.mem_of_getLast? hc)).isBlank_eq_false)

end Text

namespace ClassName

/-! ### The parts of binary names -/

/-- The simple names with dollar signs between them. -/
def chain (c : ClassName) : List Char := ['$'].intercalate (c.names.map String.toList)

/-- The package, if there is one, stands in front of the simple names with a dot behind it. -/
theorem toList_binaryName (c : ClassName) :
    c.binaryName.toList =
      if c.package = "" then c.chain else c.package.toList ++ '.' :: c.chain := by
  have hchain : ("$".intercalate c.names).toList = c.chain := by
    rw [String.toList_intercalate]
    rfl
  rw [binaryName, written, inDefaultPackage]
  simp only [String.isEmpty_iff]
  split_ifs
  · exact hchain
  · simp [hchain]

variable {c : ClassName}

/-- Between its dots the binary name has the identifiers of the package, and the simple names. -/
theorem toList_binaryName_eq_intercalate {segments : List (List Char)}
    (hsegments : ∀ cs ∈ segments, Text.isIdentifier cs = true)
    (hpackage : c.package.toList = ['.'].intercalate segments) :
    c.binaryName.toList = ['.'].intercalate (segments ++ [c.chain]) := by
  have hempty : c.package = "" ↔ segments = [] := by
    rw [← String.toList_inj, hpackage]
    constructor
    · intro hnil
      by_contra hne
      obtain ⟨⟨d, rest, hcons, -⟩, -⟩ := Text.isPath_intercalate hne fun cs hcs =>
        Text.isWord_of_isIdentifier (hsegments cs hcs)
      rw [hnil] at hcons
      cases hcons
    · rintro rfl
      rfl
  rw [toList_binaryName, intercalate_concat, ← hpackage]
  simp only [hempty, List.append_assoc, List.singleton_append]

namespace Proper

theorem inName_chain (h : c.Proper) : ∀ d ∈ c.chain, Text.InName d :=
  forall_mem_intercalate (.inr (.inr rfl)) (List.forall_mem_map.mpr fun name hname =>
    Text.inName_of_isIdentifier (h.names name hname))

theorem dot_notMem_chain (h : c.Proper) : '.' ∉ c.chain := by
  have hnames : ∀ part ∈ c.names.map String.toList, ∀ d ∈ part, d ≠ '.' := by
    rw [List.forall_mem_map]
    intro name hname d hd hdot
    exact Text.notMem_of_isIdentifier (h.names name hname) (by decide) (hdot ▸ hd)
  exact fun hmem => forall_mem_intercalate (by decide) hnames '.' hmem rfl

theorem inName_binaryName (h : c.Proper) : ∀ d ∈ c.binaryName.toList, Text.InName d := by
  obtain ⟨segments, hsegments, hpackage⟩ := h.package
  rw [toList_binaryName_eq_intercalate hsegments hpackage]
  refine forall_mem_intercalate (.inr (.inl rfl)) (List.forall_mem_append.mpr ⟨fun cs hcs =>
    Text.inName_of_isIdentifier (hsegments cs hcs), ?_⟩)
  exact List.forall_mem_singleton.mpr h.inName_chain

end Proper

/-! ### Reading -/

/-- Identifiers with dots between them are read as a package. -/
theorem packageOfSegments?_eq_some {segments : List (List Char)} {package : String}
    (hsegments : ∀ cs ∈ segments, Text.isIdentifier cs = true)
    (hpackage : package.toList = ['.'].intercalate segments) :
    packageOfSegments? segments = some package := by
  rw [packageOfSegments?, if_pos (.inr (List.all_eq_true.mpr hsegments))]
  refine congrArg some (String.toList_injective ?_)
  rw [String.toList_intercalate, hpackage]
  simp [Function.comp_def]

/-- The simple names are read back. -/
theorem Proper.chainOfText?_chain (h : c.Proper) :
    chainOfText? c.chain = some (c.outermost, c.members) := by
  have hdollar : ∀ name ∈ c.names.map String.toList, '$' ∉ name :=
    List.forall_mem_map.mpr fun name hname =>
      Text.notMem_of_isIdentifier (h.names name hname) (by decide)
  have hsplit : c.chain.splitOn '$' = c.outermost.toList :: c.members.map String.toList :=
    List.splitOn_intercalate '$' hdollar (List.cons_ne_nil _ _)
  have hall : (c.outermost.toList :: c.members.map String.toList).all Text.isIdentifier = true :=
    List.all_eq_true.mpr (List.forall_mem_map (f := String.toList) (l := c.names).mpr h.names)
  rw [chainOfText?, hsplit]
  simp only [hall, if_true]
  simp [Function.comp_def]

theorem Proper.isEmpty_binaryName (h : c.Proper) : c.binaryName.toList.isEmpty = false := by
  have hchain : c.chain ≠ [] := by
    intro hnil
    have hnone : chainOfText? c.chain = none := by
      rw [hnil]
      rfl
    rw [h.chainOfText?_chain] at hnone
    cases hnone
  rw [List.isEmpty_eq_false_iff, toList_binaryName]
  split_ifs
  · exact hchain
  · simp

/-- A class is read from what stands between the dots of a text: its package, and behind the last
dot its simple names. -/
theorem Proper.parse_of_splitOn (h : c.Proper) {text : String} (segments : List (List Char))
    (hempty : (Text.trim text.toList).isEmpty = false)
    (hsplit : (Text.trim text.toList).splitOn '.' = segments ++ [c.chain])
    (hpackage : packageOfSegments? segments = some c.package) : parse text = .ok c := by
  simp only [parse, hempty, hsplit, Bool.false_eq_true, if_false, List.dropLast_concat, hpackage,
    List.getLast?_concat, Option.getD_some, h.chainOfText?_chain]

/-- A name made of identifiers is **read back** from its binary form, with white space around it or
not. -/
theorem Proper.parse_eq_ok (h : c.Proper) {text : String}
    (htext : Text.trim text.toList = c.binaryName.toList) : parse text = .ok c := by
  obtain ⟨segments, hsegments, hpackage⟩ := h.package
  have hdot : ∀ part ∈ segments ++ [c.chain], '.' ∉ part :=
    List.forall_mem_append.mpr ⟨fun cs hcs =>
      Text.notMem_of_isIdentifier (hsegments cs hcs) (by decide),
      List.forall_mem_singleton.mpr h.dot_notMem_chain⟩
  refine h.parse_of_splitOn segments (htext ▸ h.isEmpty_binaryName) ?_
    (packageOfSegments?_eq_some hsegments hpackage)
  rw [htext, toList_binaryName_eq_intercalate hsegments hpackage,
    List.splitOn_intercalate '.' hdot (by simp)]

/-- A dot in front of a name in the default package does no harm. -/
theorem Proper.parse_eq_ok_of_dot (h : c.Proper) (hdefault : c.package = "") {text : String}
    (htext : Text.trim text.toList = '.' :: c.binaryName.toList) : parse text = .ok c := by
  rw [toList_binaryName, if_pos hdefault] at htext
  refine h.parse_of_splitOn [[]] (by rw [htext]; rfl) ?_ ?_
  · rw [htext]
    exact (List.splitOn_append_cons_self [] c.chain).trans (by
      rw [List.splitOn_nil, List.splitOn_eq_singleton h.dot_notMem_chain])
  · rw [hdefault]
    rfl

/-- **What is read as the name of a class**: the binary name of the class, with white space around
it or not, and if the class is in the default package, then also the name with a dot in front. -/
theorem parse_eq_ok_iff {text : String} :
    parse text = .ok c ↔ c.Proper ∧
      (Text.trim text.toList = c.binaryName.toList ∨
        c.package = "" ∧ Text.trim text.toList = '.' :: c.binaryName.toList) := by
  constructor
  · intro h
    obtain ⟨segments, last, hsplit, hpackage, hchain⟩ := exists_segments_of_parse h
    obtain ⟨hspelled, hsegments⟩ := toList_of_packageOfSegments? hpackage
    have hlast : last = c.chain := by
      rw [chain, names, ← (splitOn_of_chainOfText? hchain).1, List.intercalate_splitOn]
    have htext : Text.trim text.toList = ['.'].intercalate (segments ++ [c.chain]) := by
      rw [← hlast, ← hsplit, List.intercalate_splitOn]
    refine ⟨proper_of_parse h, ?_⟩
    rcases hsegments with rfl | hsegments
    · have hdefault : c.package = "" := String.toList_injective hspelled
      refine .inr ⟨hdefault, ?_⟩
      rw [toList_binaryName, if_pos hdefault, htext, intercalate_concat]
      rfl
    · exact .inl (htext.trans (toList_binaryName_eq_intercalate hsegments hspelled).symm)
  · rintro ⟨hproper, htext | ⟨hdefault, htext⟩⟩
    · exact hproper.parse_eq_ok htext
    · exact hproper.parse_eq_ok_of_dot hdefault htext

/-- The names that are read back from their binary forms are those made of identifiers. -/
theorem parse_binaryName_eq_ok_iff : parse c.binaryName = .ok c ↔ c.Proper :=
  ⟨proper_of_parse, fun h => h.parse_eq_ok (Text.trim_eq_self_of_inName h.inName_binaryName)⟩

end ClassName

end CallPlan

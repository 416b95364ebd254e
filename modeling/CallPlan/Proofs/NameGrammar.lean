import CallPlan.Proofs.NameReading
import Mathlib

/-!
# The grammar of class names

A class name in binary form is a chain of identifiers with dollar signs between them, and in front
of it the identifiers of the package, each with a dot behind it (`ClassName.grammar`). These are
languages in the sense of formal grammars, with union, concatenation and iteration; they say nothing
about how a text is cut.

What is read is what the grammar generates, and one kind of text besides: a chain with a dot in
front of it (`ClassName.accepts_iff_mem_grammar`). The grammar does not generate those, since a text
of the grammar starts like an identifier.
-/

namespace CallPlan

open scoped Computability

/-! ### Languages of words -/

namespace Text

/-- One character of a kind. -/
def oneOf (p : Char → Bool) : Language Char := {cs | ∃ c, p c = true ∧ cs = [c]}

/-- **Identifiers**: a letter or an underscore, then letters, numerals and underscores. -/
def identifiers : Language Char := oneOf startsIdentifier * (oneOf continuesIdentifier)∗

/-- One or more words of a language, with a separator between them. -/
def separated (separator : Char) (l : Language Char) : Language Char :=
  l * ({[separator]} * l)∗

theorem mem_kstar_oneOf_iff {p : Char → Bool} {cs : List Char} :
    cs ∈ (oneOf p)∗ ↔ ∀ c ∈ cs, p c = true := by
  rw [Language.mem_kstar]
  constructor
  · rintro ⟨words, rfl, hwords⟩ c hc
    obtain ⟨word, hword, hc⟩ := List.mem_flatten.mp hc
    obtain ⟨d, hd, rfl⟩ := hwords word hword
    rwa [List.mem_singleton.mp hc]
  · intro h
    refine ⟨cs.map fun c => [c], by rw [← List.flatMap_def, List.flatMap_singleton'], ?_⟩
    rw [List.forall_mem_map]
    exact fun c hc => ⟨c, h c hc, rfl⟩

/-- The identifiers of the grammar are those that are tested for. -/
theorem mem_identifiers_iff {cs : List Char} : cs ∈ identifiers ↔ isIdentifier cs = true := by
  rw [identifiers, Language.mem_mul]
  constructor
  · rintro ⟨_, ⟨c, hc, rfl⟩, rest, hrest, rfl⟩
    rw [mem_kstar_oneOf_iff] at hrest
    rw [List.singleton_append, isIdentifier, hc, List.all_eq_true.mpr hrest, Bool.and_true]
  · intro h
    cases cs with
    | nil => cases h
    | cons c rest =>
      rw [isIdentifier, Bool.and_eq_true, List.all_eq_true] at h
      exact ⟨[c], ⟨c, h.1, rfl⟩, rest, mem_kstar_oneOf_iff.mpr h.2, rfl⟩

theorem intercalate_cons_eq_append_flatten (separator : Char) (first : List Char)
    (rest : List (List Char)) :
    [separator].intercalate (first :: rest) = first ++ (rest.map (separator :: ·)).flatten := by
  induction rest generalizing first with
  | nil => simp [List.intercalate]
  | cons second rest ih =>
    rw [List.intercalate_cons_of_ne_nil (List.cons_ne_nil _ _), ih]
    simp

/-- The separated words of a language are one or more of its words with the separator between
them. -/
theorem mem_separated_iff {separator : Char} {l : Language Char} {cs : List Char} :
    cs ∈ separated separator l ↔
      ∃ first rest, (∀ word ∈ first :: rest, word ∈ l) ∧
        cs = [separator].intercalate (first :: rest) := by
  simp only [intercalate_cons_eq_append_flatten]
  rw [separated, Language.mem_mul]
  constructor
  · rintro ⟨first, hfirst, _, hrest, rfl⟩
    obtain ⟨parts, rfl, hparts⟩ := Language.mem_kstar.mp hrest
    have hword : ∀ part ∈ parts, part.tail ∈ l ∧ separator :: part.tail = part := by
      intro part hpart
      obtain ⟨_, rfl, word, hword, rfl⟩ := Language.mem_mul.mp (hparts part hpart)
      exact ⟨hword, rfl⟩
    refine ⟨first, parts.map List.tail, List.forall_mem_cons.mpr ⟨hfirst, ?_⟩, ?_⟩
    · exact List.forall_mem_map.mpr fun part hpart => (hword part hpart).1
    · rw [List.map_map]
      exact congrArg (first ++ List.flatten ·)
        ((List.map_congr_left fun part hpart => (hword part hpart).2).trans (List.map_id' _)).symm
  · rintro ⟨first, rest, hwords, rfl⟩
    obtain ⟨hfirst, hrest⟩ := List.forall_mem_cons.mp hwords
    refine ⟨first, hfirst, _, Language.join_mem_kstar ?_, rfl⟩
    rw [List.forall_mem_map]
    exact fun word hword => ⟨[separator], rfl, word, hrest word hword, rfl⟩

end Text

namespace ClassName

/-! ### Class names -/

/-- The simple names, outermost first. -/
def chains : Language Char := Text.separated '$' Text.identifiers

/-- The **grammar of class names**: simple names alone, or behind the segments of a package. -/
def grammar : Language Char :=
  chains + Text.separated '.' Text.identifiers * {['.']} * chains

/-- Simple names alone, but with a dot in front. -/
def dotted : Language Char := {['.']} * chains

/-- A class with the segments of its package, which are identifiers like its simple names. -/
structure IsMadeOf (c : ClassName) (segments : List (List Char)) : Prop where
  package : c.package = ".".intercalate (segments.map String.ofList)
  segments : ∀ cs ∈ segments, cs ∈ Text.identifiers
  names : ∀ name ∈ c.names, name.toList ∈ Text.identifiers

/-- The segments of a package and the simple names of a class, as a text. -/
def spelled (segments : List (List Char)) (c : ClassName) : List Char :=
  ['.'].intercalate (segments ++ [c.chain])

theorem spelled_nil (c : ClassName) : spelled [] c = c.chain := by
  simp [spelled, List.intercalate]

section

variable {c : ClassName} {segments : List (List Char)} {cs : List Char}

/-- The package is its segments with dots between them. -/
theorem IsMadeOf.toList_package (h : c.IsMadeOf segments) :
    c.package.toList = ['.'].intercalate segments := by
  rw [h.package, String.toList_intercalate]
  simp [Function.comp_def]

theorem IsMadeOf.isIdentifier (h : c.IsMadeOf segments) :
    ∀ cs ∈ segments, Text.isIdentifier cs = true :=
  fun cs hcs => Text.mem_identifiers_iff.mp (h.segments cs hcs)

theorem IsMadeOf.proper (h : c.IsMadeOf segments) : c.Proper where
  package := ⟨segments, h.isIdentifier, h.toList_package⟩
  names := fun name hname => Text.mem_identifiers_iff.mp (h.names name hname)

/-- Package and simple names that are made of identifiers have segments. -/
theorem Proper.exists_isMadeOf (h : c.Proper) : ∃ segments, c.IsMadeOf segments := by
  obtain ⟨segments, hsegments, hpackage⟩ := h.package
  refine ⟨segments, String.toList_injective ?_,
    fun cs hcs => Text.mem_identifiers_iff.mpr (hsegments cs hcs),
    fun name hname => Text.mem_identifiers_iff.mpr (h.names name hname)⟩
  rw [hpackage, String.toList_intercalate]
  simp [Function.comp_def]

/-- The text of the segments and names is the binary name. -/
theorem IsMadeOf.toList_binaryName (h : c.IsMadeOf segments) :
    c.binaryName.toList = spelled segments c :=
  toList_binaryName_eq_intercalate h.isIdentifier h.toList_package

/-- Identifiers make up a class. -/
theorem exists_isMadeOf {first : List Char} {rest : List (List Char)}
    (hsegments : ∀ cs ∈ segments, cs ∈ Text.identifiers)
    (hnames : ∀ cs ∈ first :: rest, cs ∈ Text.identifiers) :
    ∃ c : ClassName, c.IsMadeOf segments ∧ c.chain = ['$'].intercalate (first :: rest) := by
  refine ⟨⟨".".intercalate (segments.map String.ofList), String.ofList first,
    rest.map String.ofList⟩, ⟨rfl, hsegments, ?_⟩, ?_⟩
  · rw [names, ← List.map_cons (f := String.ofList), List.forall_mem_map]
    simpa only [String.toList_ofList] using hnames
  · simp [chain, names, Function.comp_def]

/-- The chains of simple names are the names of classes without a package. -/
theorem mem_chains_iff : cs ∈ chains ↔ ∃ c : ClassName, c.IsMadeOf [] ∧ cs = c.chain := by
  rw [chains, Text.mem_separated_iff]
  constructor
  · rintro ⟨first, rest, hnames, rfl⟩
    obtain ⟨c, hc, hchain⟩ := exists_isMadeOf (List.forall_mem_nil _) hnames
    exact ⟨c, hc, hchain.symm⟩
  · rintro ⟨c, hc, rfl⟩
    exact ⟨c.outermost.toList, c.members.map String.toList, List.forall_mem_map.mpr hc.names, rfl⟩

/-- The grammar generates the texts of segments and names. -/
theorem mem_grammar_iff :
    cs ∈ grammar ↔ ∃ (c : ClassName) (segments : List (List Char)),
      c.IsMadeOf segments ∧ cs = spelled segments c := by
  rw [grammar, Language.mem_add, mem_chains_iff]
  constructor
  · rintro (⟨c, hc, rfl⟩ | h)
    · exact ⟨c, [], hc, (spelled_nil c).symm⟩
    · obtain ⟨_, ⟨_, hpackage, _, rfl, rfl⟩, _, hchain, rfl⟩ := h
      obtain ⟨segment, segments, hsegments, rfl⟩ := Text.mem_separated_iff.mp hpackage
      obtain ⟨first, rest, hnames, rfl⟩ := Text.mem_separated_iff.mp hchain
      obtain ⟨c, hc, hchain⟩ := exists_isMadeOf hsegments hnames
      refine ⟨c, _, hc, ?_⟩
      rw [spelled, intercalate_concat, if_neg (List.cons_ne_nil _ _), hchain]
  · rintro ⟨c, segments, hc, rfl⟩
    cases segments with
    | nil => exact .inl ⟨c, hc, spelled_nil c⟩
    | cons segment segments =>
      refine .inr ⟨_, ⟨_, Text.mem_separated_iff.mpr ⟨segment, segments, hc.segments, rfl⟩, ['.'],
        rfl, rfl⟩, c.chain, ?_, ?_⟩
      · exact Text.mem_separated_iff.mpr ⟨_, _, List.forall_mem_map.mpr hc.names, rfl⟩
      · rw [spelled, intercalate_concat, if_neg (List.cons_ne_nil _ _)]

theorem mem_dotted_iff :
    cs ∈ dotted ↔ ∃ c : ClassName, c.IsMadeOf [] ∧ cs = '.' :: spelled [] c := by
  rw [dotted, Language.mem_mul]
  constructor
  · rintro ⟨_, rfl, _, hchain, rfl⟩
    obtain ⟨c, hc, rfl⟩ := mem_chains_iff.mp hchain
    exact ⟨c, hc, by rw [spelled_nil]; rfl⟩
  · rintro ⟨c, hc, rfl⟩
    exact ⟨['.'], rfl, c.chain, mem_chains_iff.mpr ⟨c, hc, rfl⟩, by rw [spelled_nil]; rfl⟩

/-- No text of the grammar starts with a dot. -/
theorem IsMadeOf.spelled_ne_cons_dot (h : c.IsMadeOf segments) :
    spelled segments c ≠ '.' :: cs := by
  intro hdot
  cases segments with
  | nil =>
    rw [spelled_nil] at hdot
    exact h.proper.dot_notMem_chain (hdot ▸ List.mem_cons_self)
  | cons segment segments =>
    have hsegment := h.isIdentifier segment List.mem_cons_self
    obtain ⟨d, ds, rfl⟩ := List.exists_cons_of_ne_nil (Text.isWord_of_isIdentifier hsegment).ne_nil
    rw [spelled, List.cons_append, List.intercalate_cons_of_ne_nil (by simp)] at hdot
    obtain ⟨rfl, -⟩ := List.cons.inj hdot
    exact Text.notMem_of_isIdentifier hsegment (by decide) List.mem_cons_self

/-- Nothing in the grammar starts with a dot. -/
theorem notMem_grammar_of_mem_dotted (h : cs ∈ dotted) : cs ∉ grammar := by
  obtain ⟨c, -, rfl⟩ := mem_dotted_iff.mp h
  rw [mem_grammar_iff]
  rintro ⟨d, segments, hd, hsame⟩
  exact hd.spelled_ne_cons_dot hsame.symm

end

/-! ### What is accepted -/

/-- What is read, by the segments and names that the text is made of. -/
theorem parse_eq_ok_iff_spelled {text : String} {c : ClassName} :
    parse text = .ok c ↔ ∃ segments, c.IsMadeOf segments ∧
      (Text.trim text.toList = spelled segments c ∨
        segments = [] ∧ Text.trim text.toList = '.' :: spelled [] c) := by
  rw [parse_eq_ok_iff]
  constructor
  · rintro ⟨hproper, htext | ⟨hdefault, htext⟩⟩
    · obtain ⟨segments, hc⟩ := hproper.exists_isMadeOf
      exact ⟨segments, hc, .inl (htext.trans hc.toList_binaryName)⟩
    · have hnames : ∀ name ∈ c.names, name.toList ∈ Text.identifiers := fun name hname =>
        Text.mem_identifiers_iff.mpr (hproper.names name hname)
      have hc : c.IsMadeOf [] := ⟨hdefault, by simp, hnames⟩
      exact ⟨[], hc, .inr ⟨rfl, by rw [htext, hc.toList_binaryName]⟩⟩
  · rintro ⟨segments, hc, htext | ⟨rfl, htext⟩⟩
    · exact ⟨hc.proper, .inl (htext.trans hc.toList_binaryName.symm)⟩
    · exact ⟨hc.proper, .inr ⟨hc.package, by rw [htext, hc.toList_binaryName]⟩⟩

/-- **The names that are accepted.** A text, without the white space around it, is read as a class
exactly if the grammar generates it or it is a chain with a dot in front. So it is read as the
grammar has it exactly if it is no chain with a dot in front. The class that is read has the
segments for its package, and the identifiers for its names, that the text is made of. -/
theorem accepts_iff_mem_grammar (text : String) :
    ((∃ c, parse text = .ok c) ↔
      Text.trim text.toList ∈ grammar ∨ Text.trim text.toList ∈ dotted) ∧
    (((∃ c, parse text = .ok c) ↔ Text.trim text.toList ∈ grammar) ↔
      Text.trim text.toList ∉ dotted) ∧
    ∀ c, parse text = .ok c ↔ ∃ segments, c.IsMadeOf segments ∧
      (Text.trim text.toList = spelled segments c ∨
        segments = [] ∧ Text.trim text.toList = '.' :: spelled [] c) := by
  have haccept : (∃ c, parse text = .ok c) ↔
      Text.trim text.toList ∈ grammar ∨ Text.trim text.toList ∈ dotted := by
    simp only [parse_eq_ok_iff_spelled, mem_grammar_iff, mem_dotted_iff]
    constructor
    · rintro ⟨c, segments, hc, htext | ⟨rfl, htext⟩⟩
      · exact .inl ⟨c, segments, hc, htext⟩
      · exact .inr ⟨c, hc, htext⟩
    · rintro (⟨c, segments, hc, htext⟩ | ⟨c, hc, htext⟩)
      · exact ⟨c, segments, hc, .inl htext⟩
      · exact ⟨c, [], hc, .inr ⟨rfl, htext⟩⟩
  refine ⟨haccept, ?_, fun c => parse_eq_ok_iff_spelled⟩
  rw [haccept, or_iff_left_iff_imp]
  exact ⟨fun h hdotted => notMem_grammar_of_mem_dotted hdotted (h hdotted),
    fun h hdotted => absurd hdotted h⟩

/-- A name with a dot in front is read, and is none of the grammar. -/
theorem accepts_dot_notMem_grammar :
    (∃ c, parse ".Name" = .ok c) ∧ Text.trim ".Name".toList ∉ grammar := by
  have hname : (topLevel "" "Name").IsMadeOf [] :=
    ⟨rfl, by simp, List.forall_mem_singleton.mpr (Text.mem_identifiers_iff.mpr (by decide))⟩
  have htext : Text.trim ".Name".toList = '.' :: spelled [] (topLevel "" "Name") := by rfl
  refine ⟨⟨topLevel "" "Name", parse_eq_ok_iff_spelled.mpr ⟨[], hname, .inr ⟨rfl, htext⟩⟩⟩, ?_⟩
  exact notMem_grammar_of_mem_dotted (mem_dotted_iff.mpr ⟨_, hname, htext⟩)

end ClassName

end CallPlan

import CallPlan.Proofs.NameReading
import CallPlan.Proofs.TypeNames

/-!
# Reading types

The text of a type is a word with bracket pairs behind it. A keyword is taken for the type that it
names, whatever classes there are, and every other word is read as the name of a class
(`TypeExpr.parse_eq_ok_iff`). So the types that are read back from their binary names are those over
classes that are made of identifiers and not called by a keyword alone, except for arrays of nothing
(`parse_binaryName_iff_and_injOn`).

Reading makes no types but these, with one exception: the dot that may stand in front of a word
hides that the word is a keyword (`TypeExpr.parse_binaryName_iff_of_parse`).
-/

namespace CallPlan

/-! ### Words and brackets -/

namespace Primitive

theorem ofKeyword?_eq_some_iff {word : String} {p : Primitive} :
    ofKeyword? word = some p ↔ word = p.keyword := by
  constructor
  · intro h
    exact (by simpa using List.find?_some h : p.keyword = word).symm
  · rintro rfl
    cases p <;> rfl

theorem ofKeyword?_eq_none_iff {word : String} :
    ofKeyword? word = none ↔ ∀ p : Primitive, word ≠ p.keyword := by
  simp only [Option.eq_none_iff_forall_ne_some, ne_eq, ofKeyword?_eq_some_iff]

end Primitive

namespace TypeExpr

theorem mem_keywords_iff {word : String} :
    word ∈ keywords ↔ word = "void" ∨ ∃ p : Primitive, word = p.keyword := by
  simp [keywords, Primitive.mem_all, eq_comm]

/-- The word that a text has in front of its bracket pairs, without white space around it. -/
def stem (text : String) : String :=
  String.ofList (takeBrackets (Text.trimStart text.toList).reverse).2.reverse

/-- The number of bracket pairs at the end of a text. -/
def bracketPairs (text : String) : Nat :=
  (takeBrackets (Text.trimStart text.toList).reverse).1

/-- A type is read from its stem and the number of bracket pairs behind it. -/
theorem parse_eq (text : String) : parse text =
    if stem text = "void" then
      if bracketPairs text = 0 then .ok .void else .error ⟨text, .arrayOfVoid⟩
    else match Primitive.ofKeyword? (stem text) with
      | some p => .ok (ofLeaf (.primitive p) (bracketPairs text))
      | none => (ClassName.parse (stem text)).map fun c =>
        ofLeaf (.named c) (bracketPairs text) := by
  rw [parse]
  dsimp only [stem, bracketPairs]
  -- or else the keywords are compared with the text character by character
  generalize Primitive.ofKeyword? _ = found
  rfl

/-- The **word for a type** that is no array. -/
inductive IsWordFor : String → TypeExpr → Prop
  | void : IsWordFor "void" .void
  | primitive (p : Primitive) : IsWordFor p.keyword (.primitive p)
  | named {word : String} {c : ClassName} (notKeyword : word ∉ keywords)
      (parse : ClassName.parse word = .ok c) : IsWordFor word (.named c)

/-- A text is read as the type whose leaf its stem is the word for, with a dimension for every
bracket pair. There are no arrays of nothing. -/
theorem parse_eq_ok_iff {text : String} {t : TypeExpr} :
    parse text = .ok t ↔
      IsWordFor (stem text) t.leaf ∧ t.dimensions = bracketPairs text ∧
        (t.leaf = .void → t.dimensions = 0) := by
  rw [parse_eq]
  constructor
  · intro h
    split_ifs at h with hvoid hpairs
    · obtain rfl := Except.ok.inj h
      exact ⟨hvoid ▸ .void, hpairs.symm, fun _ => rfl⟩
    · split at h
      · rename_i p hp
        obtain rfl := Except.ok.inj h
        rw [leaf_ofLeaf rfl, dimensions_ofLeaf rfl, Primitive.ofKeyword?_eq_some_iff.mp hp]
        exact ⟨.primitive p, rfl, by simp⟩
      · rename_i hnone
        cases hc : ClassName.parse (stem text) with
        | error fault =>
          rw [hc] at h
          cases h
        | ok c =>
          rw [hc] at h
          obtain rfl := Except.ok.inj h
          rw [leaf_ofLeaf rfl, dimensions_ofLeaf rfl]
          refine ⟨.named (fun hword => ?_) hc, rfl, by simp⟩
          rcases mem_keywords_iff.mp hword with hword | ⟨p, hword⟩
          · exact hvoid hword
          · exact Primitive.ofKeyword?_eq_none_iff.mp hnone p hword
  · rintro ⟨hword, hpairs, hnothing⟩
    have ht := ofLeaf_leaf_dimensions t
    rw [← hpairs]
    generalize stem text = word at hword ⊢
    generalize t.leaf = leaf at hword hnothing ht
    cases hword with
    | void =>
      rw [hnothing rfl] at ht ⊢
      exact congrArg Except.ok ht
    | primitive p =>
      have hvoid : p.keyword ≠ "void" := by cases p <;> decide
      rw [if_neg hvoid, Primitive.ofKeyword?_eq_some_iff.mpr rfl]
      exact congrArg Except.ok ht
    | named hkeyword hparse =>
      rw [mem_keywords_iff, not_or, not_exists] at hkeyword
      rw [if_neg hkeyword.1, Primitive.ofKeyword?_eq_none_iff.mpr hkeyword.2, hparse]
      exact congrArg Except.ok ht

/-! ### Texts of types -/

theorem isIdentifier_of_mem_keywords {word : String} (h : word ∈ keywords) :
    Text.isIdentifier word.toList = true := by
  have hall : (keywords.all fun word => Text.isIdentifier word.toList) = true := by decide
  exact List.all_eq_true.mp hall word h

theorem continuesIdentifier_of_mem_keywords {word : String} (h : word ∈ keywords) :
    ∀ c ∈ word.toList, Text.continuesIdentifier c = true :=
  fun _ hc => Text.continuesIdentifier_of_mem (isIdentifier_of_mem_keywords h) hc

theorem leaf_ne_array (t component : TypeExpr) : t.leaf ≠ .array component := by
  intro hleaf
  have harray := t.isArray_leaf
  rw [hleaf] at harray
  cases harray

/-- The leaves of types over classes that are made of identifiers have names of such characters. -/
theorem Knows.inName_binaryName_leaf {t : TypeExpr} (h : t.Knows ClassName.Proper) :
    ∀ c ∈ t.leaf.binaryName.toList, Text.InName c := by
  have hkeyword {word : String} (hword : word ∈ keywords) : ∀ c ∈ word.toList, Text.InName c :=
    fun c hc => .inl (continuesIdentifier_of_mem_keywords hword c hc)
  cases hleaf : t.leaf with
  | void => exact hkeyword List.mem_cons_self
  | primitive p => exact hkeyword (mem_keywords_iff.mpr (.inr ⟨p, rfl⟩))
  | named c => exact (h c hleaf).inName_binaryName
  | array component => exact absurd hleaf (t.leaf_ne_array component)

/-- No white space stands in the binary form of a type. -/
theorem Knows.isBlank_eq_false {t : TypeExpr} (h : t.Knows ClassName.Proper) :
    ∀ c ∈ t.binaryName.toList, Text.isBlank c = false := by
  induction t with
  | array component ih =>
    have hopen : Text.isBlank '[' = false := by decide
    have hclose : Text.isBlank ']' = false := by decide
    rw [binaryName, String.toList_append, List.forall_mem_append]
    exact ⟨ih h, by simp [hopen, hclose]⟩
  | void | primitive p | named c =>
    exact fun d hd => (h.inName_binaryName_leaf d hd).isBlank_eq_false

/-- No bracket pair ends a text that ends in a character of names. -/
theorem takeBrackets_of_inName {cs : List Char} (h : ∀ c ∈ cs.head?, Text.InName c) :
    takeBrackets cs = (0, cs) := by
  cases cs with
  | nil => rfl
  | cons c cs =>
    have hc := h c rfl
    have hbracket : c ≠ ']' := by
      rintro rfl
      rcases hc with hc | hc | hc <;> exact absurd hc (by decide)
    simp [takeBrackets, hbracket, hc.isBlank_eq_false]

/-- The bracket pairs of a binary name are those of its dimensions. -/
theorem takeBrackets_binaryName {t : TypeExpr} (h : t.Knows ClassName.Proper) :
    takeBrackets t.binaryName.toList.reverse =
      (t.dimensions, t.leaf.binaryName.toList.reverse) := by
  induction t with
  | array component ih =>
    simp [binaryName, takeBrackets, ih h, dimensions, leaf]
  | void | primitive p | named c =>
    refine takeBrackets_of_inName fun d hd => ?_
    exact h.inName_binaryName_leaf d (List.mem_reverse.mp (List.mem_of_mem_head? hd))

theorem takeBrackets_trimStart_binaryName {t : TypeExpr} (h : t.Knows ClassName.Proper) :
    takeBrackets (Text.trimStart t.binaryName.toList).reverse =
      (t.dimensions, t.leaf.binaryName.toList.reverse) := by
  rw [Text.trimStart_eq_self fun c hc => h.isBlank_eq_false c (List.mem_of_mem_head? hc),
    takeBrackets_binaryName h]

/-- The stem of a type's binary form is that of its leaf. -/
theorem stem_binaryName {t : TypeExpr} (h : t.Knows ClassName.Proper) :
    stem t.binaryName = t.leaf.binaryName := by
  rw [stem, takeBrackets_trimStart_binaryName h, List.reverse_reverse, String.ofList_toList]

/-- There are as many bracket pairs in the binary form as the type has dimensions. -/
theorem bracketPairs_binaryName {t : TypeExpr} (h : t.Knows ClassName.Proper) :
    bracketPairs t.binaryName = t.dimensions := by
  rw [bracketPairs, takeBrackets_trimStart_binaryName h]

end TypeExpr

/-! ### What is read back -/

/-- Whatever is read back from its text is told apart by the text. -/
theorem injOn_of_read_back {α : Type} {write : α → String}
    {read : String → Except MalformedName α} {s : Set α} (h : ∀ a ∈ s, read (write a) = .ok a) :
    Set.InjOn write s := by
  intro a ha b hb hsame
  have hread := h a ha
  rw [hsame, h b hb] at hread
  exact (Except.ok.inj hread).symm

namespace ClassName

theorem binaryName_topLevel (word : String) : (topLevel "" word).binaryName = word := by
  simp [binaryName, written, inDefaultPackage, topLevel, names]

/-- Names with dots or dollar signs are no keywords. -/
theorem binaryName_mem_keywords_iff {c : ClassName} :
    c.binaryName ∈ TypeExpr.keywords ↔ ∃ word ∈ TypeExpr.keywords, c = .topLevel "" word := by
  constructor
  · intro h
    have hunmarked {d : Char} (hd : Text.continuesIdentifier d = false) :
        d ∉ c.binaryName.toList := fun hmem => by
      rw [TypeExpr.continuesIdentifier_of_mem_keywords h d hmem] at hd
      cases hd
    have hdefault : c.package = "" := by
      by_contra hpackage
      refine hunmarked (d := '.') (by decide) ?_
      rw [toList_binaryName, if_neg hpackage]
      simp
    have hmembers : c.members = [] := by
      by_contra hmembers
      refine hunmarked (d := '$') (by decide) ?_
      rw [toList_binaryName, if_pos hdefault, chain, names, List.map_cons,
        List.intercalate_cons_of_ne_nil (by simpa using hmembers)]
      simp
    have hc : c = .topLevel "" c.outermost := by
      cases c
      simp_all [topLevel]
    exact ⟨c.outermost, binaryName_topLevel c.outermost ▸ hc ▸ h, hc⟩
  · rintro ⟨word, hmem, rfl⟩
    rwa [binaryName_topLevel]

end ClassName

namespace TypeExpr

/-- A type whose name can be **read back**: its class is made of identifiers and not called by a
keyword alone, and it is no array of nothing. -/
structure IsReadable (t : TypeExpr) : Prop where
  proper : t.Knows ClassName.Proper
  notKeyword : ∀ word ∈ keywords, t.leaf ≠ .named (.topLevel "" word)
  notOfNothing : t.leaf = .void → t.dimensions = 0

variable {text : String} {t : TypeExpr}

/-- A word is a keyword for what is no class, or the name of a class and no keyword. -/
theorem IsWordFor.mem_keywords_or {word : String} {leaf : TypeExpr} (h : IsWordFor word leaf) :
    word ∈ keywords ∧ (∀ c, leaf ≠ .named c) ∨
      word ∉ keywords ∧ ∃ c, leaf = .named c ∧ ClassName.parse word = .ok c := by
  cases h with
  | void => exact .inl ⟨List.mem_cons_self, nofun⟩
  | primitive p => exact .inl ⟨mem_keywords_iff.mpr (.inr ⟨p, rfl⟩), nofun⟩
  | named notKeyword parse => exact .inr ⟨notKeyword, _, rfl, parse⟩

/-- Types that are read are over classes made of identifiers. -/
theorem knows_proper_of_parse (h : parse text = .ok t) : t.Knows ClassName.Proper := by
  intro c hc
  rcases (parse_eq_ok_iff.mp h).1.mem_keywords_or with ⟨-, hnone⟩ | ⟨-, d, hd, hparse⟩
  · exact absurd hc (hnone c)
  · obtain rfl := named.inj (hc.symm.trans hd)
    exact ClassName.proper_of_parse hparse

/-- The types that are **read back** from their binary names are the readable ones. -/
theorem parse_binaryName_eq_ok_iff : parse t.binaryName = .ok t ↔ t.IsReadable := by
  constructor
  · intro h
    have hproper := knows_proper_of_parse h
    obtain ⟨hword, -, hnothing⟩ := parse_eq_ok_iff.mp h
    rw [stem_binaryName hproper] at hword
    refine ⟨hproper, fun word hmem hleaf => ?_, hnothing⟩
    rw [hleaf] at hword
    rcases hword.mem_keywords_or with ⟨-, hnone⟩ | ⟨hkeyword, -⟩
    · exact hnone _ rfl
    · exact hkeyword (ClassName.binaryName_mem_keywords_iff.mpr ⟨word, hmem, rfl⟩)
  · intro h
    rw [parse_eq_ok_iff, stem_binaryName h.proper, bracketPairs_binaryName h.proper]
    refine ⟨?_, rfl, h.notOfNothing⟩
    cases hleaf : t.leaf with
    | void => exact .void
    | primitive p => exact .primitive p
    | named c =>
      refine .named (fun hmem => ?_)
        (ClassName.parse_binaryName_eq_ok_iff.mpr (h.proper c hleaf))
      obtain ⟨word, hword, rfl⟩ := ClassName.binaryName_mem_keywords_iff.mp hmem
      exact h.notKeyword word hword hleaf
    | array component => exact absurd hleaf (t.leaf_ne_array component)

end TypeExpr

/-- **Names are read back.** A class is read from its binary name exactly if its package is a list
of identifiers with dots between them, perhaps an empty one, and its simple names are identifiers.
A type is read from its binary name exactly if it is a readable one: the class that it is made of,
if there is one, is of this kind and not called by a keyword alone, and it is no array of nothing.
So the binary name tells such classes apart, and such types. -/
theorem parse_binaryName_iff_and_injOn :
    (∀ c : ClassName, ClassName.parse c.binaryName = .ok c ↔ c.Proper) ∧
    (∀ t : TypeExpr, TypeExpr.parse t.binaryName = .ok t ↔ t.IsReadable) ∧
    Set.InjOn ClassName.binaryName {c | c.Proper} ∧
    Set.InjOn TypeExpr.binaryName {t | t.IsReadable} := by
  refine ⟨fun c => ClassName.parse_binaryName_eq_ok_iff,
    fun t => TypeExpr.parse_binaryName_eq_ok_iff, ?_, ?_⟩
  · exact injOn_of_read_back fun c hc => ClassName.parse_binaryName_eq_ok_iff.mpr hc
  · exact injOn_of_read_back fun t ht => TypeExpr.parse_binaryName_eq_ok_iff.mpr ht

example : TypeExpr.parse "java.util.Map$Entry[][]" =
    .ok (.array (.array (.named ⟨"java.util", "Map", ["Entry"]⟩))) := by rfl

namespace TypeExpr

variable {text : String} {t : TypeExpr}

/-! ### Texts that are read -/

/-- The brackets of a text stand at its end, and with white space behind them. -/
theorem takeBrackets_spec (cs : List Char) :
    (takeBrackets cs).2 <:+ cs ∧ ∀ c ∈ (takeBrackets cs).2.head?, Text.isBlank c = false := by
  fun_induction takeBrackets cs with
  | case1 rest n base hrest ih =>
    rw [hrest] at ih
    exact ⟨ih.1.trans (List.suffix_append [']', '['] rest), ih.2⟩
  | case2 c rest hbracket hblank ih =>
    exact ⟨ih.1.trans (List.suffix_cons c rest), ih.2⟩
  | case3 c rest hbracket hblank =>
    exact ⟨List.suffix_rfl, by simpa using hblank⟩
  | case4 => simp

/-- The stem of a text has no white space around it. -/
theorem trim_stem (text : String) : Text.trim (stem text).toList = (stem text).toList := by
  obtain ⟨hsuffix, hhead⟩ := takeBrackets_spec (Text.trimStart text.toList).reverse
  rw [stem, String.toList_ofList]
  refine Text.trim_eq_self ?_ ?_
  · have hprefix := hsuffix.reverse
    rw [List.reverse_reverse] at hprefix
    obtain ⟨behind, htext⟩ := hprefix
    intro c hc
    refine Text.isBlank_eq_false_of_mem_head?_trimStart text.toList c ?_
    rw [← htext, List.head?_append, Option.mem_def.mp hc]
    rfl
  · rwa [List.getLast?_reverse]

/-- **What is read is read back**, as long as no dot hides a keyword: the type that is read from a
text is read again from the binary name of the type exactly if the stem of the text is not a keyword
with a dot in front. -/
theorem parse_binaryName_iff_of_parse (h : parse text = .ok t) :
    parse t.binaryName = .ok t ↔ ∀ word ∈ keywords, stem text ≠ "." ++ word := by
  have hword := (parse_eq_ok_iff.mp h).1.mem_keywords_or
  rw [parse_binaryName_eq_ok_iff]
  constructor
  · rintro ⟨-, hkeyword, -⟩ word hmem hstem
    rcases hword with ⟨hmem', -⟩ | ⟨-, c, hleaf, hc⟩
    · have hdot := continuesIdentifier_of_mem_keywords hmem' '.' (by simp [hstem])
      exact absurd hdot (by decide)
    · have hproper : (ClassName.topLevel "" word).Proper :=
        ⟨⟨[], by simp, rfl⟩, by simpa using isIdentifier_of_mem_keywords hmem⟩
      have hdot : Text.trim (stem text).toList =
          '.' :: (ClassName.topLevel "" word).binaryName.toList := by
        rw [trim_stem, hstem, ClassName.binaryName_topLevel]
        simp
      rw [hproper.parse_eq_ok_of_dot rfl hdot] at hc
      exact hkeyword word hmem (Except.ok.inj hc ▸ hleaf)
  · intro hstem
    refine ⟨knows_proper_of_parse h, fun word hmem hleaf => ?_, (parse_eq_ok_iff.mp h).2.2⟩
    rcases hword with ⟨-, hnone⟩ | ⟨hkeyword, c, hc, hparse⟩
    · exact hnone _ hleaf
    · obtain rfl := named.inj (hleaf.symm.trans hc)
      obtain ⟨-, hbinary⟩ := ClassName.parse_eq_ok_iff.mp hparse
      rw [trim_stem, ClassName.binaryName_topLevel] at hbinary
      rcases hbinary with hbinary | ⟨-, hbinary⟩
      · exact hkeyword (String.toList_injective hbinary ▸ hmem)
      · exact hstem word hmem (String.toList_injective (by simpa using hbinary))

/-- Arrays of a class without a package, with a dot in front of it that hides nothing. -/
theorem parse_binaryName_iff_of_parse_entry :
    parse " .Entry [] []" = .ok (array (array (named (.topLevel "" "Entry")))) ∧
      (parse (array (array (named (.topLevel "" "Entry")))).binaryName =
          .ok (array (array (named (.topLevel "" "Entry")))) ↔
        ∀ word ∈ keywords, stem " .Entry [] []" ≠ "." ++ word) := by
  have hparse : parse " .Entry [] []" = .ok (array (array (named (.topLevel "" "Entry")))) := by
    rfl
  exact ⟨hparse, parse_binaryName_iff_of_parse hparse⟩

/-- A dot makes a class of a primitive type, and the class is not read again. -/
theorem parse_binaryName_ne_of_dot :
    ∃ t u : TypeExpr, parse ".int" = .ok t ∧ parse t.binaryName = .ok u ∧ u ≠ t := by
  refine ⟨.named (.topLevel "" "int"), .primitive .int, ?_, ?_, nofun⟩
  · rfl
  · rfl

end TypeExpr

end CallPlan

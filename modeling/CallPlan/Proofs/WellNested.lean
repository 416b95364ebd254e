import CallPlan.Proofs.LiteralReading
import CallPlan.Proofs.SourceReader

/-!
# Well nested texts

A text that is well nested in itself leaves a reader of source text where it was (`Source.Reads`).
Such texts can be joined and put in brackets, so the texts of all expressions are among them
(`Source.composable_reads`). A well nested text between braces, with code in front of it, is found
as a group (`Source.groups?_append`).
-/

namespace CallPlan.Source

open Text (IsPlain IsQuote brackets structural)

/-! ### Well nested texts -/

/-- A text is **well nested** if it leaves a reader of code as it was, but for what the text is read
as. Braces are left as they were only in a deep text, which stands between braces. -/
def Reads (deep : Bool) (text code : List Char) : Prop :=
  ∀ r : Reader, r.place = .code → (deep = true → r.IsDeep) → r.run text = some (r.put text code)

namespace Reads

variable {deep : Bool} {text code more moreCode : List Char}

theorem nil : Reads deep [] [] := fun r _ _ => by simp

/-- Well nested texts joined are well nested. -/
theorem append (h : Reads deep text code) (h' : Reads deep more moreCode) :
    Reads deep (text ++ more) (code ++ moreCode) := by
  intro r hcode hdeep
  rw [Reader.run_append, h r hcode hdeep, Option.bind_some,
    h' _ (by simpa using hcode) (by simpa using hdeep), Reader.put_put]

/-- Between braces a well nested text is kept as it is. -/
theorem deepen (h : Reads deep text code) : Reads true text text := by
  intro r hcode hdeep
  rw [h r hcode fun _ => hdeep rfl, Reader.put_of_isDeep (hdeep rfl)]

/-- A well nested text can be put in brackets. -/
theorem enclosed {bracket : Char × Char} (hmem : bracket ∈ brackets)
    (hbrace : bracket.2 = '}' → deep = true) (h : Reads deep text code) :
    Reads deep (bracket.1 :: text ++ [bracket.2]) (bracket.1 :: code ++ [bracket.2]) := by
  intro r hcode hdeep
  have hsame : '}' ∈ bracket.2 :: r.pending ↔ r.IsDeep := by
    rw [List.mem_cons]
    exact or_iff_right_of_imp fun h => hdeep (hbrace h.symm)
  have hopened : r.run [bracket.1] =
      some ((r.put [bracket.1] [bracket.1]).withPending (bracket.2 :: r.pending)) := by
    simp [Reader.next_of_code hcode, Reader.nextCode_openBracket hmem hsame]
  have hread := h ((r.put [bracket.1] [bracket.1]).withPending (bracket.2 :: r.pending))
    (by simpa using hcode) (by simpa [hsame] using hdeep)
  rw [Reader.put_withPending (by simpa using hsame), Reader.put_put] at hread
  have hclosed := Reader.nextCode_closeBracket hmem
    (r := r.put ([bracket.1] ++ text) ([bracket.1] ++ code)) (by simpa using hsame)
  rw [Reader.put_put, Reader.pending_put] at hclosed
  change r.run ([bracket.1] ++ text ++ [bracket.2]) = _
  rw [Reader.run_append, Reader.run_append, hopened, Option.bind_some, hread, Option.bind_some,
    Reader.run_cons, Reader.next_of_code (by simpa using hcode), hclosed]
  rfl

end Reads

/-! ### Balanced texts -/

/-- The brackets of a text that can do without braces. -/
def flatBrackets : List (Char × Char) := [('(', ')'), ('[', ']')]

/-- The brackets to be closed behind a character, if there are others to be closed in front of it.
There may be neither braces nor quotes and slashes. -/
def nextPending (pending : List Char) (c : Char) : Option (List Char) :=
  match flatBrackets.lookup c with
  | some closer => some (closer :: pending)
  | none =>
    if c ∉ guides then some pending
    else if pending.head? = some c then some pending.tail
    else none

/-- A text is **balanced** if its brackets are, and it has neither braces nor quotes and slashes. -/
def IsBalanced (text : List Char) : Prop := text.foldlM nextPending [] = some []

instance (text : List Char) : Decidable (IsBalanced text) := inferInstanceAs (Decidable (_ = _))

theorem nextPending_of_notMem {c : Char} (h : c ∉ guides) (pending : List Char) :
    nextPending pending c = some pending := by
  have hlookup : flatBrackets.lookup c = none := by
    simp only [guides, List.mem_cons, List.not_mem_nil, or_false, not_or] at h
    simp [flatBrackets, List.lookup, beq_false_of_ne, *]
  rw [nextPending, hlookup]
  exact if_pos h

/-- Text without brackets, quotes and slashes leaves the pending brackets as they are. -/
theorem foldlM_nextPending_of_notMem {text : List Char} (h : ∀ c ∈ text, c ∉ guides)
    (pending : List Char) : text.foldlM nextPending pending = some pending := by
  induction text with
  | nil => rfl
  | cons c text ih =>
    rw [List.forall_mem_cons] at h
    rw [List.foldlM_cons, nextPending_of_notMem h.1]
    exact ih h.2

namespace IsBalanced

theorem append {text more : List Char} (h : IsBalanced text) (hmore : IsBalanced more) :
    IsBalanced (text ++ more) := by
  rw [IsBalanced, List.foldlM_append, h]
  exact hmore

theorem of_notMem {text : List Char} (h : ∀ c ∈ text, c ∉ guides) : IsBalanced text :=
  foldlM_nextPending_of_notMem h []

/-- A name does not change whether a text around it is balanced. -/
theorem insert {front word back : List Char} (h : IsBalanced (front ++ back))
    (hword : ∀ c ∈ word, c ∉ guides) : IsBalanced (front ++ word ++ back) := by
  rw [IsBalanced, List.foldlM_append] at h
  simpa [IsBalanced, foldlM_nextPending_of_notMem hword] using h

end IsBalanced

/-- What a character can do to the brackets to be closed. -/
theorem nextPending_cases {pending after : List Char} {c : Char}
    (h : nextPending pending c = some after) :
    (∃ bracket ∈ flatBrackets, c = bracket.1 ∧ after = bracket.2 :: pending) ∨
      c ∉ guides ∧ after = pending ∨ pending = c :: after := by
  unfold nextPending at h
  split at h
  · rename_i closer hlookup
    obtain ⟨front, back, hsplit, -⟩ := List.lookup_eq_some_iff.mp hlookup
    refine .inl ⟨(c, closer), ?_, rfl, (Option.some.inj h).symm⟩
    simp [hsplit]
  · split_ifs at h with hguide hhead
    · obtain ⟨rest, rfl⟩ := List.head?_eq_some_iff.mp hhead
      exact .inr (.inr (congrArg (c :: ·) (Option.some.inj h)))
    · exact .inr (.inl ⟨hguide, (Option.some.inj h).symm⟩)

/-- A reader keeps account of the same brackets. -/
theorem next_withPending {pending after : List Char} {c : Char} {r : Reader}
    (hcode : r.place = .code) (hflat : pending ⊆ flatBrackets.map Prod.snd)
    (h : nextPending pending c = some after) :
    after ⊆ flatBrackets.map Prod.snd ∧ (r.withPending (pending ++ r.pending)).next c =
      some ((r.put [c] [c]).withPending (after ++ r.pending)) := by
  have hsame {p : List Char} (hp : p ⊆ flatBrackets.map Prod.snd) :
      '}' ∈ p ++ r.pending ↔ r.IsDeep := by
    rw [List.mem_append]
    exact or_iff_right fun hbrace => absurd (hp hbrace) (by decide)
  have hbrackets : flatBrackets ⊆ brackets := by decide
  rw [Reader.next_of_code (by simpa using hcode)]
  rcases nextPending_cases h with ⟨bracket, hmem, rfl, rfl⟩ | ⟨hguide, rfl⟩ | rfl
  · have hafter : bracket.2 :: pending ⊆ flatBrackets.map Prod.snd :=
      List.cons_subset.mpr ⟨List.mem_map_of_mem hmem, hflat⟩
    have hopened := (r.withPending (pending ++ r.pending)).nextCode_openBracket (hbrackets hmem)
      ((hsame hafter).trans (hsame hflat).symm)
    rw [Reader.put_withPending (hsame hflat)] at hopened
    exact ⟨hafter, hopened⟩
  · refine ⟨hflat, ?_⟩
    rw [Reader.nextCode_of_notMem hguide, Reader.put_withPending (hsame hflat)]
  · obtain ⟨hclose, hafter⟩ := List.cons_subset.mp hflat
    obtain ⟨bracket, hmem, rfl⟩ := List.mem_map.mp hclose
    have hclosed := (r.withPending (after ++ r.pending)).nextCode_closeBracket (hbrackets hmem)
      ((hsame hflat).trans (hsame hafter).symm)
    rw [Reader.put_withPending (hsame hafter)] at hclosed
    exact ⟨hafter, hclosed⟩

/-- A balanced text is well nested. -/
theorem Reads.of_isBalanced {deep : Bool} {text : List Char} (h : IsBalanced text) :
    Reads deep text text := by
  -- over the text: the brackets still to be closed stand in front of those of the reader
  have hrun (text pending after : List Char) (r : Reader) (hcode : r.place = .code)
      (hflat : pending ⊆ flatBrackets.map Prod.snd)
      (h : text.foldlM nextPending pending = some after) :
      (r.withPending (pending ++ r.pending)).run text =
        some ((r.put text text).withPending (after ++ r.pending)) := by
    induction text generalizing pending r with
    | nil =>
      obtain rfl := Option.some.inj h
      simp
    | cons c text ih =>
      rw [List.foldlM_cons] at h
      obtain ⟨middle, hmiddle, hrest⟩ := Option.bind_eq_some_iff.mp h
      obtain ⟨hflat, hnext⟩ := next_withPending hcode hflat hmiddle
      have hread := ih middle (r.put [c] [c]) (by simpa using hcode) hflat hrest
      rw [Reader.put_put, Reader.pending_put] at hread
      rw [Reader.run_cons, hnext, Option.bind_some, hread]
      rfl
  intro r hcode _
  have hread : r.run text = some ((r.put text text).withPending r.pending) :=
    hrun text [] [] r hcode (List.nil_subset _) h
  have hsame : (r.put text text).withPending r.pending = r.put text text := by
    rw [← Reader.withPending_pending (r.put text text), Reader.pending_put]
    rfl
  rw [hread, hsame]

/-! ### Literals -/

/-- A text between quotes: it leaves a reader inside of the literal. -/
def Quotes (quote : Char) (text : List Char) : Prop :=
  ∀ r : Reader, r.place = .literal quote false → r.run text = some (r.put text text)

namespace Quotes

variable {quote : Char} {text more : List Char}

theorem nil : Quotes quote [] := fun r _ => by simp

theorem append (h : Quotes quote text) (h' : Quotes quote more) : Quotes quote (text ++ more) := by
  intro r hplace
  rw [Reader.run_append, h r hplace, Option.bind_some, h' _ (by simpa using hplace),
    Reader.put_put]

/-- A character that is not written as an escape. -/
theorem singleton {c : Char} (hline : Text.OneLine [c]) (hquote : c ≠ quote) (hescape : c ≠ '\\') :
    Quotes quote [c] := by
  intro r hplace
  obtain ⟨hfeed, hreturn⟩ := hline
  rw [List.mem_singleton] at hfeed hreturn
  have hsame := (r.put [c] [c]).goTo_of_place (Reader.place_put.trans hplace)
  simp [Reader.next, hplace, Ne.symm hfeed, Ne.symm hreturn, hquote, beq_false_of_ne hescape, hsame]

/-- An escape of two characters. -/
theorem escape {c : Char} (hline : Text.OneLine [c]) (hquote : quote ≠ '\\') :
    Quotes quote ['\\', c] := by
  intro r hplace
  obtain ⟨hfeed, hreturn⟩ := hline
  rw [List.mem_singleton] at hfeed hreturn
  have hsame := (r.put ['\\', c] ['\\', c]).goTo_of_place (Reader.place_put.trans hplace)
  simp [Reader.next, hplace, Ne.symm hfeed, Ne.symm hreturn, Ne.symm hquote, Reader.put_put, hsame]

/-- Text without structure can stand between quotes. -/
theorem of_isPlain (hquote : IsQuote quote) (h : IsPlain text) : Quotes quote text := by
  have hmem : quote ∈ structural := by rcases hquote with rfl | rfl <;> decide
  induction text with
  | nil => exact nil
  | cons c text ih =>
    obtain ⟨hc, htext⟩ := List.forall_mem_cons.mp h
    have hne {d : Char} (hd : d ∈ structural) : c ≠ d := fun hsame => hc (hsame ▸ hd)
    have hline : Text.OneLine [c] := by
      simp [Text.OneLine, (hne (d := '\n') (by decide)).symm, (hne (d := '\r') (by decide)).symm]
    exact (singleton hline (hne hmem) (hne (by decide))).append (ih htext)

theorem isPlain_hexDigits4 : ∀ n < 0xA0, IsPlain (Text.hexDigits4 n) := by
  decide +kernel

/-- The escapes of characters leave a reader inside of the literal. -/
theorem of_escapeInChar (hquote : IsQuote quote) {c : Char} (hc : c = quote → c = '\'') :
    Quotes quote (Text.escapeInChar c) := by
  have hne := hquote.ne_backslash
  unfold Text.escapeInChar
  split_ifs with hbackslash hfeed hreturn htab hsingle hcontrol
  · exact escape (by decide) hne
  · exact escape (by decide) hne
  · exact escape (by decide) hne
  · exact escape (by decide) hne
  · exact escape (by decide) hne
  · have hdigits := isPlain_hexDigits4 _ (Text.lt_of_isControl hcontrol)
    exact (escape (by decide) hne).append (of_isPlain hquote hdigits)
  · refine singleton ?_ (fun h => hsingle (hc h)) hbackslash
    simp [Text.OneLine, Ne.symm hfeed, Ne.symm hreturn]

/-- Escaped text can stand between quotes. -/
theorem of_escapeText (s : String) : Quotes '"' (Text.escapeText s).toList := by
  rw [Text.escapeText, String.toList_ofList]
  induction s.toList with
  | nil => exact nil
  | cons c cs ih =>
    rw [List.flatMap_cons]
    refine append ?_ ih
    unfold Text.escapeInString
    split_ifs with hquote
    · exact escape (by decide) (by decide)
    · exact singleton (by decide) (by decide) (by decide)
    · exact of_escapeInChar (.inl rfl) fun h => absurd h hquote

end Quotes

/-- A literal is well nested, whatever brackets are in it. -/
theorem Reads.of_quotes {deep : Bool} {quote : Char} {text : List Char} (hquote : IsQuote quote)
    (h : Quotes quote text) : Reads deep (quote :: text ++ [quote]) (quote :: text ++ [quote]) := by
  intro r hcode _
  have hopened : r.run [quote] = some ((r.put [quote] [quote]).goTo (.literal quote false)) := by
    rcases hquote with rfl | rfl <;> simp [Reader.next_of_code hcode, Reader.nextCode]
  have hread : ((r.put [quote] [quote]).goTo (.literal quote false)).run text =
      some ((r.put ([quote] ++ text) ([quote] ++ text)).goTo (.literal quote false)) := by
    rw [h _ rfl, Reader.put_goTo, Reader.put_put]
  have hclosed (r : Reader) : (r.goTo (.literal quote false)).run [quote] =
      some ((r.put [quote] [quote]).goTo .code) := by
    rcases hquote with rfl | rfl <;> simp [Reader.next]
  change r.run ([quote] ++ text ++ [quote]) = _
  rw [Reader.run_append, Reader.run_append, hopened, Option.bind_some, hread, Option.bind_some,
    hclosed, Reader.put_put]
  exact congrArg some (Reader.goTo_of_place (by simpa using hcode))

theorem notMem_guides_of_isPlain {text : List Char} (h : IsPlain text) :
    ∀ c ∈ text, c ∉ guides :=
  fun c hc hguide => h c hc ((by decide : guides ⊆ structural) hguide)

/-- Text without structure is balanced. -/
theorem IsBalanced.of_isPlain {text : List Char} (h : IsPlain text) : IsBalanced text :=
  .of_notMem (notMem_guides_of_isPlain h)

/-- Well nested texts can be joined and put in brackets. -/
theorem composable_reads : Text.Composable fun text => Reads true text text where
  plain isPlain := .of_isBalanced (.of_isPlain isPlain)
  append front back := front.append back
  enclosed _ _ mem inside := inside.enclosed mem fun _ => rfl
  string s := .of_quotes (.inl rfl) (.of_escapeText s)
  character _ := .of_quotes (.inr rfl) (.of_escapeInChar (.inr rfl) id)

/-! ### Comments -/

/-- A comment between marks is a blank to the code around it. -/
theorem Reads.of_comment {deep : Bool} {text : List Char} (h : '/' ∉ text) :
    Reads deep (['/', '*'] ++ text ++ ['*', '/']) [' '] := by
  -- all that is kept of the inside is whether it ends with a star
  have hinside (text : List Char) (h : '/' ∉ text) (r : Reader) (star : Bool) :
      ∃ star', (r.goTo (.comment star)).run text =
        some ((r.put text []).goTo (.comment star')) := by
    induction text generalizing r star with
    | nil => exact ⟨star, by simp⟩
    | cons c text ih =>
      obtain ⟨hc, htext⟩ := List.ne_and_not_mem_of_not_mem_cons h
      obtain ⟨star', hrun⟩ := ih htext (r.put [c] []) (c == '*')
      have hnext : (r.goTo (.comment star)).next c =
          some ((r.put [c] []).goTo (.comment (c == '*'))) := by
        simp [Reader.next, hc.symm]
      rw [Reader.put_put] at hrun
      exact ⟨star', by rw [Reader.run_cons, hnext, Option.bind_some, hrun]; rfl⟩
  intro r hcode _
  have hopened : r.run ['/', '*'] = some ((r.put ['/', '*'] []).goTo (.comment false)) := by
    rw [Reader.run_cons, Reader.next_slash hcode, Option.bind_some]
    simp [Reader.next]
  obtain ⟨star, hread⟩ := hinside text h (r.put ['/', '*'] []) false
  have hclosed (r : Reader) : (r.goTo (.comment star)).run ['*', '/'] =
      some ((r.put ['*', '/'] [' ']).goTo .code) := by
    simp [Reader.next, Reader.put_put]
  rw [Reader.run_append, Reader.run_append, hopened, Option.bind_some, hread, Option.bind_some,
    hclosed, Reader.put_put, Reader.put_put]
  exact congrArg some (Reader.goTo_of_place (by simpa using hcode))

/-- A comment that ends with its line is nothing but the line end. -/
theorem Reads.of_lineComment {deep : Bool} {text newline : List Char} (h : Text.OneLine text)
    (hnewline : newline = ['\n'] ∨ newline = ['\r', '\n']) :
    Reads deep (['/', '/'] ++ text ++ newline) newline := by
  have hinside (text : List Char) (h : Text.OneLine text) (r : Reader) :
      (r.goTo .line).run text = some ((r.put text []).goTo .line) := by
    induction text generalizing r with
    | nil => simp
    | cons c text ih =>
      obtain ⟨hfeed, htext⟩ := List.ne_and_not_mem_of_not_mem_cons h.1
      obtain ⟨hreturn, htext'⟩ := List.ne_and_not_mem_of_not_mem_cons h.2
      have hnext : (r.goTo .line).next c = some ((r.put [c] []).goTo .line) := by
        simp [Reader.next, hfeed.symm, hreturn.symm]
      rw [Reader.run_cons, hnext, Option.bind_some, ih ⟨htext, htext'⟩, Reader.put_put]
      rfl
  intro r hcode _
  have hopened : r.run ['/', '/'] = some ((r.put ['/', '/'] []).goTo .line) := by
    rw [Reader.run_cons, Reader.next_slash hcode, Option.bind_some]
    simp [Reader.next]
  have hended (r : Reader) :
      (r.goTo .line).run newline = some ((r.put newline newline).goTo .code) := by
    rcases hnewline with rfl | rfl
    · simp [Reader.next]
    · -- the carriage return ends the comment, and the line feed is code
      have hreturn : (r.goTo .line).next '\r' = some ((r.put ['\r'] ['\r']).goTo .code) := by
        simp [Reader.next]
      have hfeed := Reader.nextCode_of_notMem (r := (r.put ['\r'] ['\r']).goTo .code)
        (by decide : '\n' ∉ guides)
      rw [Reader.run_cons, hreturn, Option.bind_some, Reader.run_cons, Reader.next_of_code rfl,
        hfeed, Reader.put_goTo, Reader.put_put]
      rfl
  rw [Reader.run_append, Reader.run_append, hopened, Option.bind_some, hinside text h,
    Option.bind_some, hended, Reader.put_put, Reader.put_put]
  exact congrArg some (Reader.goTo_of_place (by simpa using hcode))

/-! ### Groups -/

/-- A text that ends in a group: between braces it is well nested, and elsewhere it is read as
groups if no other code is in front of it. -/
structure ReadsGroups (text : List Char) (groups : List Group) : Prop where
  nested : Reads true text text
  found (r : Reader) (hcode : r.place = .code) (hdeep : ¬ r.IsDeep) (hfront : r.front = [])
    (hinside : r.inside = []) : r.run text = some { r with groups := r.groups ++ groups }

namespace ReadsGroups

variable {text more : List Char} {groups moreGroups : List Group}

theorem nil : ReadsGroups [] [] where
  nested := .nil
  found r _ _ _ _ := by simp

/-- Joined texts are read as the groups of the first and those of the second. -/
theorem append (h : ReadsGroups text groups) (h' : ReadsGroups more moreGroups) :
    ReadsGroups (text ++ more) (groups ++ moreGroups) where
  nested := h.nested.append h'.nested
  found r hcode hdeep hfront hinside := by
    have hmore := h'.found { r with groups := r.groups ++ groups } hcode hdeep hfront hinside
    rw [Reader.run_append, h.found r hcode hdeep hfront hinside, Option.bind_some]
    rw [hmore, List.append_assoc]

/-- A group. -/
theorem group {front code inside : List Char} (hfront : Reads false front code)
    (hinside : Reads true inside inside) :
    ReadsGroups (front ++ ('{' :: inside ++ ['}'])) [⟨code, inside⟩] where
  nested := by
    have hbraces : ('{', '}') ∈ brackets := by decide
    exact hfront.deepen.append (hinside.enclosed hbraces fun _ => rfl)
  found r hcode hdeep hnone hnone' := by
    obtain ⟨_, pending, groups, _, _⟩ := r
    obtain rfl : _ = Place.code := hcode
    obtain rfl : _ = [] := hnone
    obtain rfl : _ = [] := hnone'
    have hread : (Reader.mk .code pending groups [] []).run front =
        some (Reader.mk .code pending groups code []) := by
      rw [hfront _ rfl (by simp), Reader.put, if_neg hdeep]
      rfl
    have hopened : (Reader.mk .code pending groups code []).run ['{'] =
        some (Reader.mk .code ('}' :: pending) groups code []) := by
      rw [Reader.run_cons, (Reader.mk .code pending groups code []).next_openBrace rfl hdeep]
      rfl
    have hkept : (Reader.mk .code ('}' :: pending) groups code []).run inside =
        some (Reader.mk .code ('}' :: pending) groups code inside) := by
      have hopen : (Reader.mk .code ('}' :: pending) groups code []).IsDeep := List.mem_cons_self
      rw [hinside _ rfl fun _ => hopen, Reader.put, if_pos hopen]
      rfl
    -- no brace is open any more, so the group is complete
    have hclosed := (Reader.mk .code pending groups code inside).next_closeBrace rfl hdeep
    change Reader.run _ (front ++ (['{'] ++ inside ++ ['}'])) = _
    rw [Reader.run_append, hread, Option.bind_some, Reader.run_append, Reader.run_append, hopened,
      Option.bind_some, hkept, Option.bind_some, Reader.run_cons]
    exact congrArg (Option.bind · _) hclosed

end ReadsGroups

/-- What is found in a text that ends in a group and in well nested code. -/
theorem groups?_append {text rest code : List Char} {groups : List Group}
    (h : ReadsGroups text groups) (hrest : Reads false rest code) :
    groups? (text ++ rest) = some (groups, code) := by
  have hshallow : ¬ ({} : Reader).IsDeep := by decide
  have hread : ({} : Reader).run (text ++ rest) = some { groups := groups, front := code } := by
    rw [Reader.run_append, h.found {} rfl hshallow rfl rfl, Option.bind_some,
      hrest _ rfl (by simp)]
    rfl
  rw [groups?, hread]
  rfl

/-- Brackets in comments and literals do not matter. -/
example : groups? "if /* \x7b */ \x7bf(\"\x7d\");\x7d else".toList =
    some ([⟨"if   ".toList, "f(\"\x7d\");".toList⟩], " else".toList) := by
  decide

/-- Other brackets have to be closed by their own kind. -/
example : groups? "\x7b f(\x7d) ;".toList = none := by
  decide

end CallPlan.Source

import CallPlan.Text.Identifier
import Mathlib

/-!
# Words in source text

Source text is words, dots between them, and marks. A text that ends in characters of one kind, with
one of another kind in front of them, can be cut in front of them in one way only
(`eq_of_append_eq`): that is how a text is read from its end.
-/

namespace CallPlan

/-! ### Cutting texts -/

section

variable {α : Type} {p q r t : List α}

theorem eq_of_append_eq_of_prefix {P : α → Prop} {front : List α} (hp : ∀ c ∈ front ++ q, P c)
    (hr : ∀ c ∈ (r ++ front).getLast?, ¬ P c) : front = [] := by
  rcases List.eq_nil_or_concat' front with rfl | ⟨init, last, rfl⟩
  · rfl
  · refine absurd (hp last (by simp)) (hr last ?_)
    rw [← List.append_assoc, List.getLast?_concat]
    exact Option.mem_some_self last

/-- A text has one end of characters of one kind that has a character of another kind, or nothing,
in front of it. -/
theorem eq_of_append_eq (P : α → Prop) (hp : ∀ c ∈ p, P c) (hq : ∀ c ∈ q, P c)
    (hr : ∀ c ∈ r.getLast?, ¬ P c) (ht : ∀ c ∈ t.getLast?, ¬ P c) (h : r ++ p = t ++ q) :
    r = t ∧ p = q := by
  rcases List.append_eq_append_iff.mp h with ⟨front, rfl, rfl⟩ | ⟨front, rfl, rfl⟩
  · obtain rfl := eq_of_append_eq_of_prefix hp ht
    exact ⟨(List.append_nil r).symm, rfl⟩
  · obtain rfl := eq_of_append_eq_of_prefix hq hr
    exact ⟨List.append_nil t, rfl⟩

/-- A text is cut in one way at the first occurrence of an element. -/
theorem eq_of_append_cons_eq {a : α} (hp : a ∉ p) (hq : a ∉ q) (h : p ++ a :: r = q ++ a :: t) :
    p = q ∧ r = t := by
  have hfirst {front rest rest' : List α} (hfront : a ∉ front)
      (h : a :: rest = front ++ a :: rest') : front = [] := by
    cases front with
    | nil => rfl
    | cons b front => exact absurd (by simp [(List.cons.inj h).1]) hfront
  rcases List.append_eq_append_iff.mp h with ⟨front, rfl, hrest⟩ | ⟨front, rfl, hrest⟩
  · obtain rfl := hfirst (fun hmem => hq (List.mem_append_right _ hmem)) hrest
    exact ⟨(List.append_nil p).symm, (List.cons.inj hrest).2⟩
  · obtain rfl := hfirst (fun hmem => hp (List.mem_append_right _ hmem)) hrest
    exact ⟨List.append_nil q, (List.cons.inj hrest).2.symm⟩

/-- The last of several parts stands behind a separator unless it is the only one. -/
theorem intercalate_concat (sep : List α) (parts : List (List α)) (last : List α) :
    sep.intercalate (parts ++ [last]) =
      if parts = [] then last else sep.intercalate parts ++ sep ++ last := by
  induction parts with
  | nil => simp [List.intercalate]
  | cons part parts ih =>
    rw [if_neg (List.cons_ne_nil _ _), List.cons_append,
      List.intercalate_cons_of_ne_nil (by simp), ih]
    split_ifs with hparts
    · simp [hparts, List.intercalate]
    · rw [List.intercalate_cons_of_ne_nil hparts]
      simp only [List.append_assoc]

/-- What holds of the separator and throughout the parts holds throughout the whole. -/
theorem forall_mem_intercalate {P : α → Prop} {sep : α} {parts : List (List α)} (hsep : P sep)
    (h : ∀ part ∈ parts, ∀ a ∈ part, P a) : ∀ a ∈ [sep].intercalate parts, P a := by
  induction parts using List.reverseRecOn with
  | nil => simp
  | append_singleton parts last ih =>
    obtain ⟨hparts, hlast⟩ := List.forall_mem_append.mp h
    rw [intercalate_concat]
    split_ifs
    · exact hlast last List.mem_cons_self
    · simp only [List.forall_mem_append, List.forall_mem_singleton]
      exact ⟨⟨ih hparts, hsep⟩, hlast last List.mem_cons_self⟩

end

namespace Text

/-! ### Words and paths -/

/-- The characters of source text that are no part of words. -/
def marks : List Char := [' ', '.', ',', ';', '=', '(', ')', '[', ']', '{', '}', '\'', '"']

/-- A text of one or more characters without a mark. -/
structure IsWord (cs : List Char) : Prop where
  ne_nil : cs ≠ []
  unmarked : ∀ c ∈ cs, c ∉ marks

/-- Identifiers are words. -/
theorem isWord_of_isIdentifier {cs : List Char} (h : isIdentifier cs = true) : IsWord cs := by
  have hmarks : (marks.all fun c => !continuesIdentifier c) = true := by decide
  constructor
  · rintro rfl
    cases h
  · intro c hc hmark
    have hnot := List.all_eq_true.mp hmarks c hmark
    rw [continuesIdentifier_of_mem h hc] at hnot
    cases hnot

/-- A character of a word, or a dot. -/
def InPath (c : Char) : Prop := c = '.' ∨ c ∉ marks

theorem not_inPath {c : Char} (hmark : c ∈ marks) (hdot : c ≠ '.') : ¬ InPath c := by
  rintro (h | h)
  · exact hdot h
  · exact h hmark

/-- Words with dots between them, as far as the first character tells. -/
structure IsPath (cs : List Char) : Prop where
  head_notMem : ∃ c rest, cs = c :: rest ∧ c ∉ marks
  inPath : ∀ c ∈ cs, InPath c

theorem IsWord.inPath {cs : List Char} (h : IsWord cs) : ∀ c ∈ cs, InPath c :=
  fun c hc => .inr (h.unmarked c hc)

theorem IsWord.isPath {cs : List Char} (h : IsWord cs) : IsPath cs := by
  obtain ⟨c, rest, rfl⟩ := List.exists_cons_of_ne_nil h.ne_nil
  exact ⟨⟨c, rest, rfl, h.unmarked c List.mem_cons_self⟩, h.inPath⟩

/-- A word behind a dot continues a path. -/
theorem IsPath.append_word {path word : List Char} (hpath : IsPath path) (hword : IsWord word) :
    IsPath (path ++ '.' :: word) := by
  obtain ⟨c, rest, hcons, hc⟩ := hpath.head_notMem
  refine ⟨⟨c, rest ++ '.' :: word, by rw [hcons, List.cons_append], hc⟩, ?_⟩
  rw [List.forall_mem_append, List.forall_mem_cons]
  exact ⟨hpath.inPath, .inl rfl, hword.inPath⟩

/-- Words with dots between them are a path. -/
theorem isPath_intercalate {words : List (List Char)} (hne : words ≠ [])
    (h : ∀ word ∈ words, IsWord word) : IsPath (['.'].intercalate words) := by
  induction words using List.reverseRecOn with
  | nil => exact absurd rfl hne
  | append_singleton words word ih =>
    obtain ⟨hwords, hword⟩ := List.forall_mem_append.mp h
    rw [intercalate_concat]
    split_ifs with hnil
    · exact (hword word List.mem_cons_self).isPath
    · rw [List.append_assoc]
      exact (ih hnil hwords).append_word (hword word List.mem_cons_self)

theorem IsPath.ne_cons_dot {path rest : List Char} (h : IsPath path) : path ≠ '.' :: rest := by
  obtain ⟨⟨c, _, rfl, hc⟩, -⟩ := h
  intro hsame
  rw [(List.cons.inj hsame).1] at hc
  exact hc (by decide)

/-- The last word of a path tells the others. -/
theorem eq_of_append_dot_eq {front front' word word' : List Char} (hword : IsWord word)
    (hword' : IsWord word') (h : front ++ '.' :: word = front' ++ '.' :: word') :
    front = front' ∧ word = word' := by
  have hdot : '.' ∈ marks := by decide
  rw [List.append_cons, List.append_cons front'] at h
  obtain ⟨hfront, rfl⟩ := eq_of_append_eq (· ∉ marks) hword.unmarked hword'.unmarked
    (by simp [hdot]) (by simp [hdot]) h
  exact ⟨List.append_cancel_right hfront, rfl⟩

end Text

end CallPlan

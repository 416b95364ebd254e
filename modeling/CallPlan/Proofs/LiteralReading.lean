import CallPlan.Plan.Literal
import CallPlan.Proofs.Lexemes

/-!
# Literals read as what they were written for

The texts of character and string literals are read back as the character and the string
(`Text.readString?`, `Text.readChar?`). Every character is written as text that spells it between
the quotes, whatever stands beside it (`Text.spells_escapeInString`, `Text.spells_escapeInChar`): no
backslash is left over that could turn what follows into an escape, and no quote is left bare. So
the text of a literal is read as a whole and not before its end (`Literal.text_readsAs`).
-/

namespace CallPlan

namespace Text

/-! ### Control characters -/

/-- Four digits are the escape of the code unit that they are the value of. -/
theorem run_hexDigits4 : ∀ n < 0xA0,
    (EscapeState.digits 4 0).run (hexDigits4 n) = some ([n.toUInt16], .even) := by
  decide +kernel

/-- A Unicode escape is read as the code unit that it gives in hexadecimal digits. -/
theorem run_unicodeEscape {n : Nat} (h : n < 0xA0) :
    EscapeState.even.run (['\\', 'u'] ++ hexDigits4 n) = some ([n.toUInt16], .even) := by
  have hmarker : EscapeState.even.run ['\\', 'u'] = some ([], .digits 4 0) := rfl
  exact EscapeState.run_append_eq_some_iff.mpr ⟨_, _, _, hmarker, run_hexDigits4 n h, rfl⟩

theorem lt_of_isControl {c : Char} (h : isControl c = true) : c.toNat < 0xA0 := by
  simp only [isControl, Bool.or_eq_true, Bool.and_eq_true, decide_eq_true_eq] at h
  omega

/-! ### Escaped characters -/

theorem IsQuote.isControl_eq_false {quote : Char} (h : IsQuote quote) :
    isControl quote = false := by
  rcases h with rfl | rfl <;> rfl

namespace Spells

variable {quote : Char}

/-- The Unicode escape of a control character, unless that ends the line. -/
theorem control (hquote : IsQuote quote) {c : Char} (hc : isControl c = true) (hfeed : c ≠ '\n')
    (hreturn : c ≠ '\r') : Spells quote (['\\', 'u'] ++ hexDigits4 c.toNat) (codeUnits c) := by
  have hlt := lt_of_isControl hc
  have hunits : codeUnits c = [c.toNat.toUInt16] := codeUnits_of_lt (by omega)
  refine ⟨codeUnits c, hunits ▸ run_unicodeEscape hlt,
    ScanState.scan_codeUnits hquote.toNat_lt ?_ hfeed hreturn ?_⟩
  · rintro rfl
    simp [hquote.isControl_eq_false] at hc
  · rintro rfl
    cases hc

/-- A character that is not the quote is spelled by its escape, and so is a single quote that is. -/
theorem escapeInChar (hquote : IsQuote quote) {c : Char} (hc : c = quote → c = '\'') :
    Spells quote (escapeInChar c) (codeUnits c) := by
  unfold Text.escapeInChar
  split_ifs with hbackslash hfeed hreturn htab hsingle hcontrol
  · subst hbackslash
    exact letter hquote (by decide)
  · subst hfeed
    exact letter hquote (by decide)
  · subst hreturn
    exact letter hquote (by decide)
  · subst htab
    exact letter hquote (by decide)
  · subst hsingle
    exact letter hquote (by decide)
  · exact control hquote hcontrol hfeed hreturn
  · exact plain hquote (fun h => hsingle (hc h)) hfeed hreturn hbackslash

end Spells

/-- A character is spelled between single quotes. -/
theorem spells_escapeInChar (c : Char) : Spells '\'' (escapeInChar c) (codeUnits c) :=
  .escapeInChar (.inr rfl) id

/-- A character is spelled between double quotes. -/
theorem spells_escapeInString (c : Char) : Spells '"' (escapeInString c) (codeUnits c) := by
  unfold escapeInString
  split_ifs with hquote hsingle
  · subst hquote
    exact .letter (.inl rfl) (by decide)
  · subst hsingle
    exact .plain (.inl rfl) (by decide) (by decide) (by decide) (by decide)
  · exact .escapeInChar (.inl rfl) fun h => absurd h hquote

/-- A text is spelled between double quotes. -/
theorem spells_escapeText (s : String) : Spells '"' (escapeText s).toList (utf16 s) := by
  rw [escapeText, String.toList_ofList, utf16]
  induction s.toList with
  | nil => exact .nil
  | cons c cs ih =>
    rw [List.flatMap_cons, List.flatMap_cons]
    exact (spells_escapeInString c).append ih

/-! ### Lines -/

/-- The text stands on one line. -/
def OneLine (text : List Char) : Prop := '\n' ∉ text ∧ '\r' ∉ text

instance (text : List Char) : Decidable (OneLine text) :=
  inferInstanceAs (Decidable (_ ∧ _))

theorem OneLine.append {text more : List Char} (h : OneLine text) (hmore : OneLine more) :
    OneLine (text ++ more) :=
  ⟨List.not_mem_append h.1 hmore.1, List.not_mem_append h.2 hmore.2⟩

theorem IsQuote.oneLine {quote : Char} (h : IsQuote quote) : OneLine [quote] := by
  rcases h with rfl | rfl <;> decide

theorem oneLine_hexDigits4 : ∀ n < 0xA0, OneLine (hexDigits4 n) := by
  decide +kernel

theorem oneLine_escapeInChar (c : Char) : OneLine (escapeInChar c) := by
  unfold escapeInChar
  split_ifs with hbackslash hfeed hreturn htab hsingle hcontrol
  · decide
  · decide
  · decide
  · decide
  · decide
  · have hmarker : OneLine ['\\', 'u'] := by decide
    exact hmarker.append (oneLine_hexDigits4 _ (lt_of_isControl hcontrol))
  · simp [OneLine, Ne.symm hfeed, Ne.symm hreturn]

theorem oneLine_escapeInString (c : Char) : OneLine (escapeInString c) := by
  unfold escapeInString
  split_ifs
  · decide
  · decide
  · exact oneLine_escapeInChar c

/-- An escaped text stands on one line. -/
theorem oneLine_escapeText (s : String) : OneLine (escapeText s).toList := by
  rw [escapeText, String.toList_ofList]
  induction s.toList with
  | nil => exact ⟨List.not_mem_nil, List.not_mem_nil⟩
  | cons c cs ih =>
    rw [List.flatMap_cons]
    exact (oneLine_escapeInString c).append ih

end Text

/-! ### Literals -/

open Text

/-- All of the text is read as one literal with the value. The text stands on one line, and no
shorter beginning of it is a literal. -/
structure Text.ReadsAs {α : Type} (read? : String → Option (α × List UInt16)) (text : String)
    (value : α) : Prop where
  whole : read? text = some (value, [])
  oneLine : OneLine text.toList
  unclosed : ∀ front back, text.toList = front ++ back → back ≠ [] →
    read? (String.ofList front) = none

/-- Between its quotes, text that spells a value is read as that value by whatever reads literals
with these quotes. -/
theorem Text.Spells.readsAs {α : Type} {quote : Char} (hquote : IsQuote quote) {text : List Char}
    {value : List UInt16} (h : Spells quote text value) (hline : OneLine text)
    {token? : List UInt16 → Option (α × List UInt16)} {a : α}
    (htaken : ∀ units, quoted? quote units = some (value, []) → token? units = some (a, []))
    (hleft : ∀ units, quoted? quote units = none → token? units = none)
    {literal : String} (hliteral : literal.toList = quote :: text ++ [quote]) :
    ReadsAs (fun source => unescape source.toList >>= token?) literal a where
  whole := by
    obtain ⟨units, hunits, hquoted⟩ := h.unescape_eq_some hquote
    rw [hliteral, hunits]
    exact htaken units hquoted
  oneLine := by
    rw [hliteral]
    exact (hquote.oneLine.append hline).append hquote.oneLine
  unclosed := by
    intro front back happend hback
    rw [hliteral] at happend
    have hquoted :=
      h.eq_none_of_append hquote happend.symm hback
    rw [String.toList_ofList]
    cases hunits : unescape front with
    | none => rfl
    | some units =>
      rw [hunits] at hquoted
      exact hleft units hquoted

namespace Literal

/-- A string literal is the escaped text between quotes. -/
theorem toList_text_string (scope : Scope) (s : String) :
    ((string s).text scope).toList = '"' :: (escapeText s).toList ++ ['"'] := by
  simp [text]

theorem toList_text_char (scope : Scope) (c : Char) :
    ((char c).text scope).toList = '\'' :: escapeInChar c ++ ['\''] := by
  simp [text]

/-- **Literals are read as what they were written for.** A string is written as one string literal
that has it as value, and a character of the basic plane as one character literal. Strings can be
told from what is written for them. -/
theorem text_readsAs (scope : Scope) :
    (∀ s, ReadsAs readString? ((string s).text scope) (utf16 s)) ∧
      (∀ c : Char, c.toNat ≤ 0xFFFF → ReadsAs readChar? ((char c).text scope) (codeUnit c)) ∧
        Function.Injective escapeText := by
  refine ⟨fun s => ?_, fun c hc => ?_, fun s t hescaped => ?_⟩
  · exact (spells_escapeText s).readsAs (.inl rfl) (oneLine_escapeText s)
      (fun _ => stringToken?_eq_some) (fun _ => stringToken?_eq_none) (toList_text_string scope s)
  · have hspells := spells_escapeInChar c
    rw [codeUnits_of_lt (Nat.lt_succ_of_le hc)] at hspells
    exact hspells.readsAs (.inr rfl) (oneLine_escapeInChar c)
      (fun _ => charToken?_eq_some) (fun _ => charToken?_eq_none) (toList_text_char scope c)
  · -- one text cannot spell two strings
    have hspells := spells_escapeText s
    rw [hescaped] at hspells
    exact utf16_injective (hspells.unique (.inl rfl) (spells_escapeText t))

/-- A backslash in front of `u`, a quote and a control character in front of a character with two
code units. -/
theorem text_readsAs_backslash :
    ReadsAs readString? "\"\\\\u\\\"\\u001b𝄞\"" [0x5C, 0x75, 0x22, 0x1B, 0xD834, 0xDD1E] ∧
      '\''.toNat ≤ 0xFFFF ∧ ReadsAs readChar? "'\\''" 0x27 := by
  have hread := text_readsAs .outside
  have hstring : (string "\\u\"\x1b𝄞").text .outside = "\"\\\\u\\\"\\u001b𝄞\"" := by
    decide
  have hunits : utf16 "\\u\"\x1b𝄞" = [0x5C, 0x75, 0x22, 0x1B, 0xD834, 0xDD1E] := by decide
  exact ⟨hstring ▸ hunits ▸ hread.1 _, by decide, hread.2.1 '\'' (by decide)⟩

end Literal

end CallPlan

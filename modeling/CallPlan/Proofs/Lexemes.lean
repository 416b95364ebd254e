import CallPlan.Text.Hexadecimal
import Mathlib

/-!
# How source literals are read

Source text is read in two steps. First the Unicode escapes are replaced, which yields code units of
UTF-16 (`Text.unescape`): a backslash behind an even number of backslashes begins an escape if a `u`
follows it. Then character and string literals are told by their quotes, and the escape sequences
between them are replaced by what they stand for (`Text.charToken?`, `Text.stringToken?`).

Reading a literal stops at the quote that closes it. So where the whole of a text is one literal, no
shorter beginning of the text is a literal (`Text.Spells.eq_none_of_append`).
-/

namespace CallPlan.Text

/-! ### Code units -/

/-- The code unit of a character of the basic plane. -/
def codeUnit (c : Char) : UInt16 := c.toNat.toUInt16

/-- The code units of a character: one in the basic plane, and a pair of surrogates beyond. -/
def codeUnits (c : Char) : List UInt16 :=
  if c.toNat < 0x10000 then [codeUnit c]
  else
    [(0xD800 + (c.toNat - 0x10000) / 0x400).toUInt16,
      (0xDC00 + (c.toNat - 0x10000) % 0x400).toUInt16]

/-- The code units of a text. -/
def utf16 (s : String) : List UInt16 := s.toList.flatMap codeUnits

theorem codeUnits_of_lt {c : Char} (h : c.toNat < 0x10000) : codeUnits c = [codeUnit c] := if_pos h

theorem codeUnits_ne_nil (c : Char) : codeUnits c ≠ [] := by
  unfold codeUnits
  split_ifs <;> exact List.cons_ne_nil _ _

theorem toNat_codeUnit {c : Char} (h : c.toNat < 0x10000) : (codeUnit c).toNat = c.toNat :=
  UInt16.toNat_ofNat_of_lt' h

/-- Characters of the basic plane have different code units. -/
theorem codeUnit_injective {c d : Char} (hc : c.toNat < 0x10000) (hd : d.toNat < 0x10000)
    (h : codeUnit c = codeUnit d) : c = d := by
  have hnumbers := congrArg UInt16.toNat h
  rw [toNat_codeUnit hc, toNat_codeUnit hd] at hnumbers
  exact Char.toNat_inj.mp hnumbers

/-- Characters are no surrogates. -/
theorem toNat_lt_or_lt (c : Char) : c.toNat < 0xD800 ∨ 0xDFFF < c.toNat ∧ c.toNat < 0x110000 :=
  c.valid

/-- The first code unit of a character beyond the basic plane, as a number. -/
theorem toNat_high {c : Char} (h : ¬ c.toNat < 0x10000) :
    (0xD800 + (c.toNat - 0x10000) / 0x400).toUInt16.toNat = 0xD800 + (c.toNat - 0x10000) / 0x400 :=
  UInt16.toNat_ofNat_of_lt' (by have := toNat_lt_or_lt c; simp only [UInt16.size]; omega)

theorem toNat_low (c : Char) :
    (0xDC00 + (c.toNat - 0x10000) % 0x400).toUInt16.toNat = 0xDC00 + (c.toNat - 0x10000) % 0x400 :=
  UInt16.toNat_ofNat_of_lt' (by simp only [UInt16.size]; omega)

/-- Code units below the surrogates are those of characters below them. -/
theorem eq_of_codeUnit_mem_codeUnits {c d : Char} (hd : d.toNat < 0xD800)
    (h : codeUnit d ∈ codeUnits c) : c = d := by
  by_cases hc : c.toNat < 0x10000
  · rw [codeUnits_of_lt hc, List.mem_singleton] at h
    exact (codeUnit_injective (by omega) hc h).symm
  · rw [codeUnits, if_neg hc] at h
    have hunit := toNat_codeUnit (c := d) (by omega)
    rcases List.mem_pair.mp h with h | h
    · rw [h, toNat_high hc] at hunit
      omega
    · rw [h, toNat_low] at hunit
      omega

/-- Code units tell the first character and what follows it. -/
theorem eq_of_codeUnits_append_eq {c d : Char} {r s : List UInt16}
    (h : codeUnits c ++ r = codeUnits d ++ s) : c = d ∧ r = s := by
  have hvalidc := toNat_lt_or_lt c
  have hvalidd := toNat_lt_or_lt d
  by_cases hc : c.toNat < 0x10000 <;> by_cases hd : d.toNat < 0x10000
  · rw [codeUnits_of_lt hc, codeUnits_of_lt hd] at h
    obtain ⟨hunit, hrest⟩ := List.cons.inj h
    exact ⟨codeUnit_injective hc hd hunit, hrest⟩
  · -- one character of the basic plane would be a surrogate
    rw [codeUnits_of_lt hc, codeUnits, if_neg hd] at h
    have hunit := congrArg UInt16.toNat (List.cons.inj h).1
    rw [toNat_codeUnit hc, toNat_high hd] at hunit
    omega
  · rw [codeUnits_of_lt hd, codeUnits, if_neg hc] at h
    have hunit := congrArg UInt16.toNat (List.cons.inj h).1
    rw [toNat_codeUnit hd, toNat_high hc] at hunit
    omega
  · rw [codeUnits, codeUnits, if_neg hc, if_neg hd] at h
    obtain ⟨hhigh, hrest⟩ := List.cons.inj h
    obtain ⟨hlow, hrest⟩ := List.cons.inj hrest
    have hhigh := congrArg UInt16.toNat hhigh
    have hlow := congrArg UInt16.toNat hlow
    rw [toNat_high hc, toNat_high hd] at hhigh
    rw [toNat_low, toNat_low] at hlow
    exact ⟨Char.toNat_inj.mp (by omega), hrest⟩

/-- Texts with the same code units are the same. -/
theorem utf16_injective : Function.Injective utf16 := by
  have hcharacters (cs ds : List Char) (h : cs.flatMap codeUnits = ds.flatMap codeUnits) :
      cs = ds := by
    induction cs generalizing ds with
    | nil =>
      cases ds with
      | nil => rfl
      | cons d ds =>
        rw [List.flatMap_cons] at h
        exact absurd (List.append_eq_nil_iff.mp h.symm).1 (codeUnits_ne_nil d)
    | cons c cs ih =>
      cases ds with
      | nil =>
        rw [List.flatMap_cons] at h
        exact absurd (List.append_eq_nil_iff.mp h).1 (codeUnits_ne_nil c)
      | cons d ds =>
        rw [List.flatMap_cons, List.flatMap_cons] at h
        obtain ⟨rfl, hrest⟩ := eq_of_codeUnits_append_eq h
        rw [ih ds hrest]
  exact fun s t h => String.toList_injective (hcharacters s.toList t.toList h)

/-! ### Unicode escapes -/

/-- How far a reader of Unicode escapes has come. -/
inductive EscapeState where
  /-- Behind an even number of backslashes. -/
  | even
  /-- Behind an odd number of them: the last one may begin an escape, and waits for it. -/
  | odd
  /-- Behind a backslash and `u`, with the number of missing digits and the value of the others. -/
  | digits (missing value : Nat)
deriving DecidableEq, Repr

namespace EscapeState

/-- Reads one character: the code units that are known then, and how far the reader has come. There
may be more than one `u`. -/
def next : EscapeState → Char → Option (List UInt16 × EscapeState)
  | even, c => if c = '\\' then some ([], odd) else some (codeUnits c, even)
  | odd, c =>
    if c = 'u' then some ([], digits 4 0) else some (codeUnit '\\' :: codeUnits c, even)
  | digits missing value, c =>
    if c = 'u' ∧ missing = 4 then some ([], digits 4 0)
    else match hexValue? c with
      | none => none
      | some digit =>
        if missing ≤ 1 then some ([(16 * value + digit).toUInt16], even)
        else some ([], digits (missing - 1) (16 * value + digit))

/-- Reads several characters. -/
def run (s : EscapeState) : List Char → Option (List UInt16 × EscapeState)
  | [] => some ([], s)
  | c :: rest => do
    let (units, s) ← s.next c
    let (more, s) ← run s rest
    return (units ++ more, s)

/-- The code units that are still missing at the end of the text. -/
def finish : EscapeState → Option (List UInt16)
  | even => some []
  | odd => some [codeUnit '\\']
  | digits .. => none

theorem run_cons_eq_some_iff {s t : EscapeState} {c : Char} {rest : List Char}
    {units : List UInt16} :
    s.run (c :: rest) = some (units, t) ↔
      ∃ first middle more, s.next c = some (first, middle) ∧ middle.run rest = some (more, t) ∧
        units = first ++ more := by
  simp [run, Option.bind_eq_some_iff, @eq_comm _ units]

/-- Reading goes on where it has come to. -/
theorem run_append_eq_some_iff {s t : EscapeState} {text rest : List Char} {units : List UInt16} :
    s.run (text ++ rest) = some (units, t) ↔
      ∃ front middle back, s.run text = some (front, middle) ∧ middle.run rest = some (back, t) ∧
        units = front ++ back := by
  induction text generalizing s units with
  | nil => simp [run, eq_comm]
  | cons c text ih =>
    rw [List.cons_append, run_cons_eq_some_iff]
    constructor
    · rintro ⟨first, middle, more, hfirst, hmore, rfl⟩
      obtain ⟨front, middle', back, hfront, hback, rfl⟩ := ih.mp hmore
      refine ⟨first ++ front, middle', back, ?_, hback, (List.append_assoc ..).symm⟩
      exact run_cons_eq_some_iff.mpr ⟨first, middle, front, hfirst, hfront, rfl⟩
    · rintro ⟨front, middle, back, hfront, hback, rfl⟩
      obtain ⟨first, middle', more, hfirst, hmore, rfl⟩ := run_cons_eq_some_iff.mp hfront
      refine ⟨first, middle', more ++ back, hfirst, ?_, List.append_assoc ..⟩
      exact ih.mpr ⟨more, middle, back, hmore, hback, rfl⟩

/-- What ends behind an even number of backslashes has yielded something. -/
theorem ne_nil_of_next_eq_even {s : EscapeState} {c : Char} {units : List UInt16}
    (h : s.next c = some (units, even)) : units ≠ [] := by
  cases s with
  | even =>
    rw [next] at h
    split_ifs at h <;> cases h
    exact codeUnits_ne_nil c
  | odd =>
    rw [next] at h
    split_ifs at h <;> cases h
    exact List.cons_ne_nil _ _
  | digits missing value =>
    rw [next] at h
    split at h
    · cases h
    · split at h
      · cases h
      · split_ifs at h <;> cases h
        exact List.cons_ne_nil _ _

/-- If nothing is read of a text, and nothing is missing behind it, then the text is empty. -/
theorem eq_nil_of_run_eq_nil {s : EscapeState} {text : List Char}
    (h : s.run text = some ([], even)) : text = [] ∧ s = even := by
  induction text generalizing s with
  | nil => exact ⟨rfl, (Prod.ext_iff.mp (Option.some.inj h)).2⟩
  | cons c text ih =>
    obtain ⟨first, middle, more, hfirst, hmore, hnil⟩ := run_cons_eq_some_iff.mp h
    obtain ⟨rfl, rfl⟩ := List.append_eq_nil_iff.mp hnil.symm
    obtain ⟨-, rfl⟩ := ih hmore
    exact absurd rfl (ne_nil_of_next_eq_even hfirst)

end EscapeState

/-- The code units of source text, with all Unicode escapes replaced. -/
def unescape (text : List Char) : Option (List UInt16) := do
  let (units, last) ← EscapeState.even.run text
  let more ← last.finish
  return units ++ more

/-- What is left at the end of the text comes behind what was read. -/
theorem unescape_eq_some_iff {text : List Char} {units : List UInt16} :
    unescape text = some units ↔
      ∃ front last more, EscapeState.even.run text = some (front, last) ∧
        last.finish = some more ∧ units = front ++ more := by
  simp [unescape, Option.bind_eq_some_iff, @eq_comm _ units]

/-! ### Literals -/

/-- The letters behind a backslash and the characters that they stand for. -/
def letterEscapes : List (Char × Char) :=
  [('b', '\x08'), ('s', ' '), ('t', '\t'), ('n', '\n'), ('f', '\x0c'), ('r', '\r'), ('"', '"'),
    ('\'', '\''), ('\\', '\\')]

/-- The code unit that a letter behind a backslash stands for. -/
def letterEscape? (u : UInt16) : Option UInt16 :=
  (letterEscapes.map fun entry => (codeUnit entry.1, codeUnit entry.2)).lookup u

/-- The letters of the table stand for what it says, and all of it is in the basic plane. -/
theorem letterEscape?_of_mem : ∀ entry ∈ letterEscapes,
    letterEscape? (codeUnit entry.1) = some (codeUnit entry.2) ∧ entry.1.toNat < 0x10000 ∧
      entry.2.toNat < 0x10000 ∧ entry.1 ≠ 'u' := by
  decide

/-- The value of an octal digit. -/
def octalDigit? (u : UInt16) : Option Nat :=
  if codeUnit '0' ≤ u ∧ u ≤ codeUnit '7' then some (u.toNat - '0'.toNat) else none

/-- How far a reader of what stands between quotes has come. -/
inductive ScanState where
  /-- Behind a whole character. -/
  | plain
  /-- Behind the backslash of an escape sequence. -/
  | escape
  /-- Behind an octal digit, with the number of digits that may follow and the value so far. -/
  | octal (room value : Nat)
deriving DecidableEq, Repr

namespace ScanState

/-- Reads a code unit that does not belong to what stands in front of it: what it adds to the value,
and how far the reader has come, if this is not the closing quote. No literal goes on in the next
line. -/
def nextPlain (quote u : UInt16) : Option (List UInt16 × Option ScanState) :=
  if u = quote then some ([], none)
  else if u = codeUnit '\n' ∨ u = codeUnit '\r' then none
  else if u = codeUnit '\\' then some ([], some escape)
  else some ([u], some plain)

/-- Reads a code unit. Octal escapes take as many digits as they can, up to three and up to the
value 255. -/
def next (quote : UInt16) : ScanState → UInt16 → Option (List UInt16 × Option ScanState)
  | plain, u => nextPlain quote u
  | escape, u =>
    match letterEscape? u with
    | some value => some ([value], some plain)
    | none => (octalDigit? u).map fun digit =>
        ([], some (octal (if digit ≤ 3 then 2 else 1) digit))
  | octal room value, u =>
    match if room = 0 then none else octalDigit? u with
    | some digit => some ([], some (octal (room - 1) (8 * value + digit)))
    | none => (nextPlain quote u).map fun (more, s) => (value.toUInt16 :: more, s)

/-- Reads up to the closing quote: the value, and what follows the quote. -/
def scan (quote : UInt16) (s : ScanState) : List UInt16 → Option (List UInt16 × List UInt16)
  | [] => none
  | u :: rest =>
    match s.next quote u with
    | none => none
    | some (value, none) => some (value, rest)
    | some (value, some s) => (scan quote s rest).map fun (more, rest) => (value ++ more, rest)

/-- Only the quote closes. -/
theorem eq_of_nextPlain_eq_none {quote u : UInt16} {value : List UInt16}
    (h : nextPlain quote u = some (value, none)) : u = quote := by
  unfold nextPlain at h
  split_ifs at h <;> cases h
  assumption

/-- Only the quote closes a literal. -/
theorem eq_of_next_eq_none {quote u : UInt16} {s : ScanState} {value : List UInt16}
    (h : s.next quote u = some (value, none)) : u = quote := by
  cases s with
  | plain => exact eq_of_nextPlain_eq_none h
  | escape =>
    rw [next] at h
    split at h
    · cases h
    · obtain ⟨digit, -, hdigit⟩ := Option.map_eq_some_iff.mp h
      cases hdigit
  | octal room value =>
    rw [next] at h
    split at h
    · cases h
    · obtain ⟨⟨more, s⟩, hplain, hmore⟩ := Option.map_eq_some_iff.mp h
      cases hmore
      exact eq_of_nextPlain_eq_none hplain

theorem scan_cons_eq_some_iff {quote u : UInt16} {s : ScanState} {rest value after : List UInt16} :
    s.scan quote (u :: rest) = some (value, after) ↔
      (s.next quote u = some (value, none) ∧ after = rest) ∨
        ∃ first middle more, s.next quote u = some (first, some middle) ∧
          middle.scan quote rest = some (more, after) ∧ value = first ++ more := by
  rw [scan]
  rcases s.next quote u with _ | ⟨first, _ | middle⟩ <;>
    simp [Option.map_eq_some_iff, @eq_comm _ value, @eq_comm _ after]

/-- What follows a literal does not matter. -/
theorem scan_append {quote : UInt16} {s : ScanState} {units value after : List UInt16}
    (h : s.scan quote units = some (value, after)) (more : List UInt16) :
    s.scan quote (units ++ more) = some (value, after ++ more) := by
  induction units generalizing s value with
  | nil => cases h
  | cons u units ih =>
    rw [List.cons_append, scan_cons_eq_some_iff]
    obtain ⟨hnext, rfl⟩ | ⟨first, middle, rest, hnext, hrest, rfl⟩ := scan_cons_eq_some_iff.mp h
    · exact .inl ⟨hnext, rfl⟩
    · exact .inr ⟨first, middle, rest, hnext, ih hrest, rfl⟩

/-- The last code unit does not matter if it is not the quote. -/
theorem exists_scan_of_scan_append {quote u : UInt16} (hu : u ≠ quote) {s : ScanState}
    {units value after : List UInt16} (h : s.scan quote (units ++ [u]) = some (value, after)) :
    ∃ rest, s.scan quote units = some (value, rest) := by
  induction units generalizing s value with
  | nil =>
    obtain ⟨hnext, -⟩ | ⟨first, middle, rest, -, hrest, -⟩ := scan_cons_eq_some_iff.mp h
    · exact absurd (eq_of_next_eq_none hnext) hu
    · cases hrest
  | cons v units ih =>
    obtain ⟨hnext, -⟩ | ⟨first, middle, rest, hnext, hrest, rfl⟩ := scan_cons_eq_some_iff.mp h
    · exact ⟨units, scan_cons_eq_some_iff.mpr (.inl ⟨hnext, rfl⟩)⟩
    · obtain ⟨after', hafter⟩ := ih hrest
      exact ⟨after', scan_cons_eq_some_iff.mpr (.inr ⟨first, middle, rest, hnext, hafter, rfl⟩)⟩

/-- What neither closes the literal, nor ends the line, nor begins an escape sequence is taken as it
is. -/
theorem scan_codeUnits {quote c : Char} (hlt : quote.toNat < 0xD800) (hc : c ≠ quote)
    (hfeed : c ≠ '\n') (hreturn : c ≠ '\r') (hbackslash : c ≠ '\\') (rest : List UInt16) :
    plain.scan (codeUnit quote) (codeUnits c ++ rest) =
      (plain.scan (codeUnit quote) rest).map fun read => (codeUnits c ++ read.1, read.2) := by
  have hne {d : Char} (hd : d.toNat < 0xD800) (hcd : c ≠ d) : ∀ u ∈ codeUnits c, u ≠ codeUnit d :=
    fun u hu hsame => hcd (eq_of_codeUnit_mem_codeUnits hd (hsame ▸ hu))
  have hnext : ∀ u ∈ codeUnits c, nextPlain (codeUnit quote) u = some ([u], some plain) := by
    intro u hu
    rw [nextPlain, if_neg (hne hlt hc u hu), if_neg (not_or.mpr
      ⟨hne (by decide) hfeed u hu, hne (by decide) hreturn u hu⟩),
      if_neg (hne (by decide) hbackslash u hu)]
  generalize codeUnits c = units at hnext
  induction units with
  | nil => simp
  | cons u units ih =>
    obtain ⟨hu, hunits⟩ := List.forall_mem_cons.mp hnext
    rw [List.cons_append, scan, next, hu]
    simp [ih hunits, Function.comp_def]

end ScanState

/-- What stands between quotes at the beginning of source text, and what follows. -/
def quoted? (quote : Char) : List UInt16 → Option (List UInt16 × List UInt16)
  | [] => none
  | u :: rest =>
    if u = codeUnit quote then ScanState.plain.scan (codeUnit quote) rest else none

/-- The value of a string literal at the beginning of source text, and what follows. Three quotes
begin a text block instead. -/
def stringToken? (units : List UInt16) : Option (List UInt16 × List UInt16) :=
  if units.take 3 = List.replicate 3 (codeUnit '"') then none else quoted? '"' units

/-- The value of a character literal at the beginning of source text, and what follows. Between the
quotes stands one code unit. -/
def charToken? (units : List UInt16) : Option (UInt16 × List UInt16) :=
  match quoted? '\'' units with
  | some ([u], rest) => some (u, rest)
  | _ => none

/-- Reads source text that begins with a string literal. -/
def readString? (text : String) : Option (List UInt16 × List UInt16) :=
  unescape text.toList >>= stringToken?

/-- Reads source text that begins with a character literal. -/
def readChar? (text : String) : Option (UInt16 × List UInt16) :=
  unescape text.toList >>= charToken?

/-- A backslash that is written as a Unicode escape begins an escape sequence, and `u` behind an
escaped backslash does not begin a Unicode escape. -/
example : readString? "\"\\u005cn\\\\u0041\" +" =
    some ([0x0A, 0x5C, 0x75, 0x30, 0x30, 0x34, 0x31], [0x20, 0x2B]) := by
  decide

/-- What follows the literal does not change its value. -/
theorem quoted?_append {quote : Char} {units value after : List UInt16}
    (h : quoted? quote units = some (value, after)) (more : List UInt16) :
    quoted? quote (units ++ more) = some (value, after ++ more) := by
  cases units with
  | nil => cases h
  | cons u units =>
    rw [quoted?] at h
    rw [List.cons_append, quoted?]
    split_ifs at h ⊢
    exact ScanState.scan_append h more

/-- No other code unit than the quote closes the literal. -/
theorem exists_quoted?_of_append {quote : Char} {u : UInt16} (hu : u ≠ codeUnit quote)
    {units value after : List UInt16} (h : quoted? quote (units ++ [u]) = some (value, after)) :
    ∃ rest, quoted? quote units = some (value, rest) := by
  cases units with
  | nil =>
    rw [List.nil_append, quoted?, if_neg hu] at h
    cases h
  | cons v units =>
    rw [List.cons_append, quoted?] at h
    rw [quoted?]
    split_ifs at h ⊢
    exact ScanState.exists_scan_of_scan_append hu h

/-- A literal that is all of the text is no text block: of three quotes the second would close
it. -/
theorem stringToken?_eq_some {units value : List UInt16}
    (h : quoted? '"' units = some (value, [])) : stringToken? units = some (value, []) := by
  refine (if_neg fun hblock => ?_).trans h
  rw [← List.take_append_drop 3 units, hblock] at h
  cases h

theorem stringToken?_eq_none {units : List UInt16} (h : quoted? '"' units = none) :
    stringToken? units = none := by
  rw [stringToken?, h, ite_self]

theorem charToken?_eq_some {units : List UInt16} {u : UInt16}
    (h : quoted? '\'' units = some ([u], [])) : charToken? units = some (u, []) := by
  rw [charToken?, h]

theorem charToken?_eq_none {units : List UInt16} (h : quoted? '\'' units = none) :
    charToken? units = none := by
  rw [charToken?, h]

/-! ### Text between quotes -/

/-- The quotes that string and character literals stand between. -/
def IsQuote (quote : Char) : Prop := quote = '"' ∨ quote = '\''

namespace IsQuote

variable {quote : Char}

theorem toNat_lt (h : IsQuote quote) : quote.toNat < 0xD800 := by
  rcases h with rfl | rfl <;> decide

theorem ne_backslash (h : IsQuote quote) : quote ≠ '\\' := by
  rcases h with rfl | rfl <;> decide

theorem codeUnit_backslash_ne (h : IsQuote quote) : codeUnit '\\' ≠ codeUnit quote := by
  rcases h with rfl | rfl <;> decide

end IsQuote

/-- Between the quotes the text **spells** the value: every Unicode escape and every escape sequence
that begins in the text ends in it, and no quote in it closes the literal. -/
def Spells (quote : Char) (text : List Char) (value : List UInt16) : Prop :=
  ∃ units, EscapeState.even.run text = some (units, .even) ∧
    ∀ rest, ScanState.plain.scan (codeUnit quote) (units ++ rest) =
      (ScanState.plain.scan (codeUnit quote) rest).map fun read => (value ++ read.1, read.2)

namespace Spells

variable {quote : Char}

theorem nil : Spells quote [] [] := ⟨[], rfl, fun rest => by simp⟩

theorem append {text more : List Char} {value moreValue : List UInt16} (h : Spells quote text value)
    (hmore : Spells quote more moreValue) : Spells quote (text ++ more) (value ++ moreValue) := by
  obtain ⟨front, hfront, hscan⟩ := h
  obtain ⟨back, hback, hscanMore⟩ := hmore
  refine ⟨front ++ back, ?_, fun rest => ?_⟩
  · exact EscapeState.run_append_eq_some_iff.mpr ⟨front, _, back, hfront, hback, rfl⟩
  · rw [List.append_assoc, hscan, hscanMore, Option.map_map]
    simp [Function.comp_def]

/-- Characters that end neither the literal nor the line, nor begin an escape sequence, stand for
themselves. -/
theorem plain (hquote : IsQuote quote) {c : Char} (hc : c ≠ quote) (hfeed : c ≠ '\n')
    (hreturn : c ≠ '\r') (hbackslash : c ≠ '\\') : Spells quote [c] (codeUnits c) := by
  refine ⟨codeUnits c, ?_, ScanState.scan_codeUnits hquote.toNat_lt hc hfeed hreturn hbackslash⟩
  simp [EscapeState.run, EscapeState.next, hbackslash]

/-- A backslash and a letter stand for what the letter says. -/
theorem letter (hquote : IsQuote quote) {c d : Char}
    (h : (c, d) ∈ letterEscapes) : Spells quote ['\\', c] (codeUnits d) := by
  obtain ⟨hvalue, hc, hd, hu⟩ := letterEscape?_of_mem _ h
  refine ⟨[codeUnit '\\', codeUnit c], ?_, fun rest => ?_⟩
  · simp [EscapeState.run, EscapeState.next, hu, codeUnits_of_lt hc]
  · have hbackslash : ScanState.nextPlain (codeUnit quote) (codeUnit '\\') =
        some ([], some .escape) := by
      rw [ScanState.nextPlain, if_neg hquote.codeUnit_backslash_ne]
      rfl
    rw [List.cons_append, ScanState.scan, ScanState.next, hbackslash, codeUnits_of_lt hd]
    simp [ScanState.scan, ScanState.next, hvalue, Function.comp_def]

/-- Between its quotes, spelled text is a literal and nothing else. -/
theorem exists_run (hquote : IsQuote quote) {text : List Char}
    {value : List UInt16} (h : Spells quote text value) :
    ∃ units, EscapeState.even.run (quote :: text ++ [quote]) = some (units, .even) ∧
      quoted? quote units = some (value, []) := by
  obtain ⟨units, hunits, hscan⟩ := h
  have hnext : EscapeState.even.run [quote] = some ([codeUnit quote], .even) := by
    have hunits := codeUnits_of_lt (hquote.toNat_lt.trans (by decide))
    simp [EscapeState.run, EscapeState.next, hquote.ne_backslash, hunits]
  refine ⟨[codeUnit quote] ++ (units ++ [codeUnit quote]), ?_, ?_⟩
  · change EscapeState.even.run ([quote] ++ (text ++ [quote])) = _
    refine EscapeState.run_append_eq_some_iff.mpr ⟨_, _, _, hnext, ?_, rfl⟩
    exact EscapeState.run_append_eq_some_iff.mpr ⟨_, _, _, hunits, hnext, rfl⟩
  · rw [List.singleton_append, quoted?, if_pos rfl, hscan]
    simp [ScanState.scan, ScanState.next, ScanState.nextPlain]

theorem unescape_eq_some (hquote : IsQuote quote) {text : List Char}
    {value : List UInt16} (h : Spells quote text value) :
    ∃ units, unescape (quote :: text ++ [quote]) = some units ∧
      quoted? quote units = some (value, []) := by
  obtain ⟨units, hunits, hquoted⟩ := h.exists_run hquote
  refine ⟨units, unescape_eq_some_iff.mpr ⟨units, .even, [], hunits, rfl, ?_⟩, hquoted⟩
  exact (List.append_nil units).symm

theorem unique (hquote : IsQuote quote) {text : List Char}
    {value value' : List UInt16} (h : Spells quote text value) (h' : Spells quote text value') :
    value = value' := by
  obtain ⟨units, hunits, hquoted⟩ := h.unescape_eq_some hquote
  obtain ⟨units', hunits', hquoted'⟩ := h'.unescape_eq_some hquote
  obtain rfl := Option.some.inj (hunits.symm.trans hunits')
  exact (Prod.mk.inj (Option.some.inj (hquoted.symm.trans hquoted'))).1

/-- No beginning of a literal is a literal, except for all of it: no quote closes it early. -/
theorem eq_none_of_append (hquote : IsQuote quote) {text : List Char}
    {value : List UInt16} (h : Spells quote text value) {front back : List Char}
    (happend : front ++ back = quote :: text ++ [quote]) (hback : back ≠ []) :
    unescape front >>= quoted? quote = none := by
  rw [Option.bind_eq_bind, Option.bind_eq_none_iff]
  intro units hunits
  by_contra hsome
  obtain ⟨⟨found, after⟩, hfound⟩ := Option.ne_none_iff_exists'.mp hsome
  obtain ⟨all, hall, hwhole⟩ := h.exists_run hquote
  rw [← happend] at hall
  obtain ⟨read, middle, later, hread, hlater, rfl⟩ := EscapeState.run_append_eq_some_iff.mp hall
  obtain ⟨read', middle', more, hread', hmore, rfl⟩ := unescape_eq_some_iff.mp hunits
  obtain ⟨rfl, rfl⟩ := Prod.mk.inj (Option.some.inj (hread.symm.trans hread'))
  -- a backslash at the end would not close the literal, so what is in front of it does
  obtain ⟨rest, hrest⟩ : ∃ rest, quoted? quote read = some (found, rest) := by
    cases middle with
    | even =>
      obtain rfl := Option.some.inj hmore
      exact ⟨after, by rwa [List.append_nil] at hfound⟩
    | odd =>
      obtain rfl := Option.some.inj hmore
      exact exists_quoted?_of_append hquote.codeUnit_backslash_ne hfound
    | digits missing value => cases hmore
  -- then the rest of the text follows the literal, and this is the end of the text
  have hnil := (Prod.mk.inj (Option.some.inj ((quoted?_append hrest later).symm.trans hwhole))).2
  obtain ⟨-, rfl⟩ := List.append_eq_nil_iff.mp hnil
  exact hback (EscapeState.eq_nil_of_run_eq_nil hlater).1

end Spells

end CallPlan.Text

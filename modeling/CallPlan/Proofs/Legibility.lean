import CallPlan.Proofs.Plans
import CallPlan.Proofs.Readings
import CallPlan.Proofs.TypeNames

/-!
# Reading source text

Plans with different readings have different texts, if the scope tells all classes
(`Reading.Legible.told`). Texts are read from their end, where the last argument of a call stands,
then the one in front of it, and at last the name of the method and what it is called on. A part is
found there because something stands in front of it that is no part of a name: a gap between the
parts of a call, or the end of what a method is called on.
-/

namespace CallPlan

/-! ### Literals of plans -/

namespace Literal

/-- The literals that are seeds of some type, apart from `null`. -/
def constants : List Literal :=
  Primitive.all.flatMap Primitive.seeds ++ [.string "", .string "hallo"]

theorem text_of_mem_constants {l : Literal} (h : l ∈ constants) (s : Scope) :
    l.text s = l.text Scope.outside := by
  have hnull : (constants.all fun l => !l.isNull) = true := by decide
  cases l with
  | null type _ => exact absurd (List.all_eq_true.mp hnull _ h) (by simp [isNull])
  | boolean | byte | short | char | int | long | float | double | string => rfl

end Literal

/-! ### Cutting texts at gaps -/

namespace Text

/-- What stands in front of expressions, apart from the start of the text. -/
def gaps : List Char := [' ', '(', '{']

/-- A text behind which an expression may start. -/
inductive IsOpen : List Char → Prop
  | start : IsOpen []
  | bracket (front : List Char) {c : Char} (isBracket : c = '(' ∨ c = '{') : IsOpen (front ++ [c])
  | comma (front : List Char) : IsOpen (front ++ [',', ' '])
  | equals (front : List Char) : IsOpen (front ++ ['=', ' '])

/-- An expression starts behind a gap, or at the start of the text. -/
theorem IsOpen.getLast?_mem_gaps {cs : List Char} (h : IsOpen cs) :
    ∀ c ∈ cs.getLast?, c ∈ gaps := by
  cases h with
  | start => simp
  | bracket front isBracket => rcases isBracket with rfl | rfl <;> simp [gaps]
  | comma front => simp [gaps]
  | equals front => simp [gaps]

/-- No expression starts behind the word `new`. -/
theorem IsOpen.ne_append_new {cs : List Char} (h : IsOpen cs) (front : List Char) :
    cs ≠ front ++ ['n', 'e', 'w', ' '] := by
  intro hsame
  have hreverse := congrArg List.reverse hsame
  cases h with
  | start => simp at hreverse
  | bracket front isBracket => rcases isBracket with rfl | rfl <;> simp at hreverse
  | comma front => simp at hreverse
  | equals front => simp at hreverse

/-- A gap in front of a text does not change its end behind the last gap. -/
theorem rtakeWhile_append {cs : List Char} (h : IsOpen cs) (word : List Char) :
    (cs ++ word).rtakeWhile (· ∉ gaps) = word.rtakeWhile (· ∉ gaps) := by
  have hfront : cs.reverse.takeWhile (· ∉ gaps) = [] := by
    cases h with
    | start => rfl
    | bracket front isBracket => rcases isBracket with rfl | rfl <;> simp [gaps]
    | comma front => simp [gaps]
    | equals front => simp [gaps]
  rw [List.rtakeWhile, List.rtakeWhile, List.reverse_append, List.takeWhile_append, hfront]
  split_ifs with hall
  · rw [List.append_nil, (List.takeWhile_prefix _).eq_of_length hall]
  · rfl

theorem notMem_gaps {c : Char} (h : InPath c ∨ c = '[' ∨ c = ']') : c ∉ gaps := by
  rcases h with (rfl | h) | rfl | rfl
  · decide
  · exact fun hgap => h ((by decide : gaps ⊆ marks) hgap)
  · decide
  · decide

theorem not_inPath_of_mem_gaps {c : Char} (h : c ∈ gaps) : ¬ InPath c :=
  fun hpath => notMem_gaps (.inl hpath) h

end Text

/-! ### Readings of plans -/

/-- The arguments or components, as they are written. -/
def Reading.joined (s : Scope) (xs : List Reading) : List Char :=
  [',', ' '].intercalate (xs.map fun x => (x.text s).toList)

namespace Reading

/-- The value is one that methods can be called on. -/
def IsInstance : Reading → Prop
  | literal (.string _) | construct .. | static .. | member .. => True
  | _ => False

/-- The readings of plans, for known classes. -/
inductive Legible (known : ClassName → Prop) : Reading → Prop
  | constant {l : Literal} (mem : l ∈ Literal.constants) : Legible known (.literal l)
  | null {t : TypeExpr} {h : t.isReference = true} (type : t.Knows known) :
      Legible known (.literal (.null t h))
  | construct {c : ClassName} {xs : List Reading} (owner : known c)
      (parts : ∀ x ∈ xs, Legible known x) : Legible known (.construct c xs)
  | static {c : ClassName} {method : String} {xs : List Reading} (owner : known c)
      (isWord : Text.IsWord method.toList) (parts : ∀ x ∈ xs, Legible known x) :
      Legible known (.static c method xs)
  | member {receiver : Reading} {method : String} {xs : List Reading}
      (instance_ : Legible known receiver) (isInstance : receiver.IsInstance)
      (isWord : Text.IsWord method.toList) (parts : ∀ x ∈ xs, Legible known x) :
      Legible known (.member receiver method xs)
  | array {component : TypeExpr} {xs : List Reading} (type : component.Knows known)
      (parts : ∀ x ∈ xs, Legible known x) : Legible known (.array component xs)

section

variable {s : Scope} {known : ClassName → Prop} {x y : Reading} {r r' : List Char}

/-! ### Literals -/

/-- The text of a literal behind its last gap. -/
def ending (s : Scope) (l : Literal) : List Char :=
  (l.text s).toList.rtakeWhile (· ∉ Text.gaps)

/-- How a constant ends does not depend on the scope. -/
theorem ending_of_mem_constants {l : Literal} (h : l ∈ Literal.constants) (s : Scope) :
    ending s l = ending Scope.outside l := by
  rw [ending, Literal.text_of_mem_constants h, ending]

/-- Constants are told apart by how they end. -/
theorem nodup_endings : (Literal.constants.map (ending Scope.outside)).Nodup := by
  decide +kernel

theorem toList_text_null (s : Scope) (t : TypeExpr) (h : t.isReference = true) :
    ((Literal.null t h).text s).toList =
      ['('] ++ ((t.nameIn s).toList ++ [')', 'n', 'u', 'l', 'l']) := by
  simp [Literal.text]

/-- Behind the last gap of its text, `null` has the name of its type in front of the word. -/
theorem ending_null (hs : s.Tells known) {t : TypeExpr} (ht : t.Knows known)
    (h : t.isReference = true) :
    ending s (.null t h) = (t.nameIn s).toList ++ [')', 'n', 'u', 'l', 'l'] := by
  have hopen : Text.IsOpen ['('] := .bracket [] (.inl rfl)
  rw [ending, toList_text_null, Text.rtakeWhile_append hopen, List.rtakeWhile_eq_self_iff,
    List.forall_mem_append]
  refine ⟨fun c hc => ?_, by simp [Text.gaps]⟩
  exact decide_eq_true (Text.notMem_gaps (hs.inPath_or_bracket_nameIn ht c hc))

/-- A literal of a plan is told by the end of its text. -/
theorem eq_of_ending_eq (hs : s.Tells known) {l m : Literal}
    (hl : (Reading.literal l).Legible known) (hm : (Reading.literal m).Legible known)
    (h : ending s l = ending s m) : l = m := by
  have hlast : (Literal.constants.all fun l =>
      (ending Scope.outside l).getLast? ≠ some 'l') = true := by decide +kernel
  have hnull {l : Literal} (hl : l ∈ Literal.constants) (name : List Char) :
      ending s l ≠ name ++ [')', 'n', 'u', 'l', 'l'] := by
    intro hsame
    refine of_decide_eq_true (List.all_eq_true.mp hlast l hl) ?_
    rw [← ending_of_mem_constants hl s, hsame]
    simp
  cases hl with
  | constant hl =>
    cases hm with
    | constant hm =>
      rw [ending_of_mem_constants hl, ending_of_mem_constants hm] at h
      exact List.inj_on_of_nodup_map nodup_endings hl hm h
    | null hu => exact absurd (h.trans (ending_null hs hu _)) (hnull hl _)
  | null ht =>
    cases hm with
    | constant hm => exact absurd (h.symm.trans (ending_null hs ht _)) (hnull hm _)
    | null hu =>
      rw [ending_null hs ht, ending_null hs hu] at h
      obtain rfl := hs.eq_of_nameIn_eq ht hu (String.toList_injective (List.append_cancel_right h))
      rfl

/-! ### The last character -/

/-- The text of a call is what is called and the arguments in parentheses. -/
def front (s : Scope) : Reading → List Char
  | construct _ _ => ['n', 'e', 'w', ' ']
  | member receiver _ _ => (receiver.text s).toList
  | _ => []

/-- The name behind the front. -/
def path (s : Scope) : Reading → List Char
  | construct c _ => (c.nameIn s).toList
  | static c method _ => (c.nameIn s).toList ++ '.' :: method.toList
  | member _ method _ => '.' :: method.toList
  | _ => []

def arguments : Reading → List Reading
  | construct _ xs | static _ _ xs | member _ _ xs => xs
  | _ => []

def IsCall : Reading → Prop
  | construct .. | static .. | member .. => True
  | _ => False

theorem toList_text_of_isCall (hx : x.Legible known) (hcall : x.IsCall) :
    (x.text s).toList = x.front s ++ x.path s ++ '(' :: joined s x.arguments ++ [')'] := by
  have hlist (xs : List Reading) :
      (applied (texts s xs)).toList = '(' :: joined s xs ++ [')'] := by
    rw [applied, texts_eq_map, joined]
    simp [String.toList_intercalate, Function.comp_def]
  cases hx with
  | constant | null | array => exact hcall.elim
  | construct | static =>
    rw [text, String.toList_append, hlist]
    simp [front, path, arguments]
  | @member receiver method xs _ isInstance =>
    have hplain : receiver.asReceiver (receiver.text s) = receiver.text s := by
      cases receiver with
      | literal l => cases l <;> first | rfl | exact isInstance.elim
      | _ => rfl
    rw [text, String.toList_append, hlist, hplain]
    simp [front, path, arguments]

theorem toList_text_array (component : TypeExpr) (xs : List Reading) :
    ((array component xs).text s).toList =
      ['n', 'e', 'w', ' '] ++ (component.nameIn s).toList ++ ['[', ']', '\x7b'] ++ joined s xs ++
        ['\x7d'] := by
  rw [text, texts_eq_map, joined]
  simp [String.toList_intercalate, Function.comp_def]

/-- The bracket at the end of the text. -/
def lastBracket : Reading → Option Char
  | construct .. | static .. | member .. => some ')'
  | array .. => some '\x7d'
  | _ => none

/-- A text of a plan does not end in a gap, and it ends in a closing bracket if it is not that of a
literal. -/
theorem exists_getLast?_text (hx : x.Legible known) (s : Scope) :
    ∃ c, (x.text s).toList.getLast? = some c ∧ c ∉ Text.gaps ∧
      x.lastBracket = if c = ')' ∨ c = '\x7d' then some c else none := by
  have hconstants : (Literal.constants.all fun l =>
      match (l.text Scope.outside).toList.getLast? with
      | some c => c ∉ Text.gaps ∧ ¬ (c = ')' ∨ c = '\x7d')
      | none => false) = true := by decide +kernel
  cases hx with
  | @constant l mem =>
    have hl := List.all_eq_true.mp hconstants l mem
    rw [← Literal.text_of_mem_constants mem s] at hl
    split at hl
    · rename_i c hc
      obtain ⟨hgap, hbracket⟩ := of_decide_eq_true hl
      exact ⟨c, by rw [text, hc], hgap, by rw [if_neg hbracket]; rfl⟩
    · cases hl
  | null type =>
    refine ⟨'l', ?_, by decide, rfl⟩
    rw [text, toList_text_null]
    simp [List.getLast?_cons]
  | array => exact ⟨'\x7d', by rw [toList_text_array, List.getLast?_concat], by decide, rfl⟩
  | construct owner parts =>
    refine ⟨')', ?_, by decide, rfl⟩
    rw [toList_text_of_isCall (.construct owner parts) trivial, List.getLast?_concat]
  | static owner isWord parts =>
    refine ⟨')', ?_, by decide, rfl⟩
    rw [toList_text_of_isCall (.static owner isWord parts) trivial, List.getLast?_concat]
  | member receiver isInstance isWord parts =>
    refine ⟨')', ?_, by decide, rfl⟩
    rw [toList_text_of_isCall (.member receiver isInstance isWord parts) trivial,
      List.getLast?_concat]

/-- Texts that end alike end in the same bracket, if in any. -/
theorem lastBracket_eq (hx : x.Legible known) (hy : y.Legible known)
    (h : r ++ (x.text s).toList = r' ++ (y.text s).toList) : x.lastBracket = y.lastBracket := by
  obtain ⟨c, hc, -, hbracket⟩ := exists_getLast?_text hx s
  obtain ⟨d, hd, -, hbracket'⟩ := exists_getLast?_text hy s
  have hlast := congrArg List.getLast? h
  rw [List.getLast?_append, List.getLast?_append, hc, hd] at hlast
  obtain rfl : c = d := by simpa using hlast
  rw [hbracket, hbracket']

/-- A text that a method can be called on does not end in a name. -/
theorem not_inPath_of_isInstance (hx : x.Legible known) (h : x.IsInstance) :
    ∀ c ∈ (x.text s).toList.getLast?, ¬ Text.InPath c := by
  cases x with
  | literal l =>
    cases l with
    | string t =>
      have hlast : ((Literal.string t).text s).toList.getLast? = some '"' := by
        simp [Literal.text, List.getLast?_cons]
      rw [text, hlast]
      rintro c ⟨⟩
      exact Text.not_inPath (by decide) (by decide)
    | _ => exact h.elim
  | name | inner | array => exact h.elim
  | construct | static | member =>
    rw [toList_text_of_isCall hx trivial, List.getLast?_concat]
    rintro c ⟨⟩
    exact Text.not_inPath (by decide) (by decide)

/-! ### Cutting a call -/

/-- What stands in front of the name in a call does not end in a name. -/
theorem not_inPath_front (hx : x.Legible known) (hr : Text.IsOpen r) :
    ∀ c ∈ (r ++ x.front s).getLast?, ¬ Text.InPath c := by
  have hopen : ∀ c ∈ (r ++ []).getLast?, ¬ Text.InPath c := by
    rw [List.append_nil]
    exact fun c hc => Text.not_inPath_of_mem_gaps (hr.getLast?_mem_gaps c hc)
  cases hx with
  | constant | null | static | array => exact hopen
  | construct =>
    have hlast : (r ++ ['n', 'e', 'w', ' ']).getLast? = some ' ' := by simp [List.getLast?_append]
    rw [front, hlast]
    rintro c ⟨⟩
    exact Text.not_inPath_of_mem_gaps (by decide)
  | @member receiver _ _ hreceiver isInstance =>
    obtain ⟨c, hc, -⟩ := exists_getLast?_text hreceiver s
    have hlast : (r ++ (receiver.text s).toList).getLast? = (receiver.text s).toList.getLast? := by
      rw [List.getLast?_append, hc, Option.some_or]
    rw [front, hlast]
    exact not_inPath_of_isInstance hreceiver isInstance

/-- A path holds no marks but dots. -/
theorem inPath_path (hs : s.Tells known) (hx : x.Legible known) :
    ∀ c ∈ x.path s, Text.InPath c := by
  cases hx with
  | constant | null | array => exact List.forall_mem_nil _
  | construct owner => exact (hs.isPath _ owner).inPath
  | static owner isWord => exact ((hs.isPath _ owner).append_word isWord).inPath
  | member receiver isInstance isWord => exact List.forall_mem_cons.mpr ⟨.inl rfl, isWord.inPath⟩

/-- The reading is **told** by its text, wherever that stands. -/
def Told (s : Scope) (known : ClassName → Prop) (x : Reading) : Prop :=
  ∀ y r r', y.Legible known → Text.IsOpen r → Text.IsOpen r' →
    r ++ (x.text s).toList = r' ++ (y.text s).toList → x = y ∧ r = r'

/-- A text that ends in an opening bracket. -/
def Opens (cs : List Char) : Prop := ∃ front c, (c = '(' ∨ c = '{') ∧ cs = front ++ [c]

theorem Opens.ne_append {front cs : List Char} {c : Char} (h : Opens cs) (hc : c ≠ '(' ∧ c ≠ '{')
    : cs ≠ front ++ [c] := by
  obtain ⟨front', d, hd, rfl⟩ := h
  intro hsame
  obtain ⟨-, hlast⟩ := List.append_inj' hsame rfl
  obtain rfl : d = c := by simpa using hlast
  tauto

/-- What stands in front of the last of several texts. -/
def beforeLast (s : Scope) (xs : List Reading) : List Char :=
  if xs = [] then [] else joined s xs ++ [',', ' ']

@[simp]
theorem joined_nil (s : Scope) : joined s [] = [] := rfl

theorem joined_concat (s : Scope) (xs : List Reading) (x : Reading) :
    joined s (xs ++ [x]) = beforeLast s xs ++ (x.text s).toList := by
  rw [joined, List.map_append, List.map_singleton, intercalate_concat, beforeLast]
  simp only [List.map_eq_nil_iff]
  split_ifs <;> simp [joined]

/-- Every argument starts where an expression may start. -/
theorem Opens.isOpen (h : Opens r) (xs : List Reading) : Text.IsOpen (r ++ beforeLast s xs) := by
  rw [beforeLast]
  split_ifs
  · obtain ⟨front, c, hc, rfl⟩ := h
    rw [List.append_nil]
    exact .bracket front hc
  · rw [← List.append_assoc]
    exact .comma _

/-- An opening bracket is not the end of a text. -/
theorem Opens.ne_append_joined (h : Opens r) {ys : List Reading}
    (hy : ∀ y ∈ ys, y.Legible known) (hne : ys ≠ []) (front : List Char) :
    r ≠ front ++ joined s ys := by
  obtain ⟨ys, y, rfl⟩ := (List.eq_nil_or_concat' ys).resolve_left hne
  obtain ⟨c, hc, hgap, -⟩ := exists_getLast?_text (hy y (by simp)) s
  obtain ⟨init, d, hd, rfl⟩ := h
  intro hsame
  have hlast := congrArg List.getLast? hsame
  rw [joined_concat, List.getLast?_concat, ← List.append_assoc, List.getLast?_append, hc] at hlast
  obtain rfl : d = c := by simpa using hlast
  rcases hd with rfl | rfl <;> exact hgap (by decide)

theorem joined_eq_of_beforeLast_eq {xs ys : List Reading} (hr : Opens r) (hr' : Opens r')
    (h : r ++ beforeLast s xs = r' ++ beforeLast s ys) :
    r ++ joined s xs = r' ++ joined s ys := by
  have hcomma (front : List Char) (zs : List Reading) :
      front ++ (joined s zs ++ [',', ' ']) = front ++ joined s zs ++ [','] ++ [' '] := by simp
  rw [beforeLast, beforeLast] at h
  split_ifs at h with hx hy hy
  · rwa [hx, hy]
  · rw [hcomma, List.append_nil] at h
    exact absurd h (hr.ne_append (by decide))
  · rw [hcomma, List.append_nil] at h
    exact absurd h.symm (hr'.ne_append (by decide))
  · rw [hcomma, hcomma] at h
    exact List.append_cancel_right (List.append_cancel_right h)

/-- Arguments are told by their texts if each of them is. -/
theorem eq_of_joined_eq {xs ys : List Reading} (hx : ∀ x ∈ xs, x.Legible known ∧ x.Told s known)
    (hy : ∀ y ∈ ys, y.Legible known) (hr : Opens r) (hr' : Opens r')
    (h : r ++ joined s xs = r' ++ joined s ys) : xs = ys ∧ r = r' := by
  induction xs using List.reverseRecOn generalizing ys with
  | nil =>
    rcases eq_or_ne ys [] with rfl | hne
    · exact ⟨rfl, List.append_cancel_right h⟩
    · rw [joined_nil, List.append_nil] at h
      exact absurd h (hr.ne_append_joined hy hne r')
  | append_singleton xs x ih =>
    rcases List.eq_nil_or_concat' ys with rfl | ⟨ys, y, rfl⟩
    · rw [joined_nil, List.append_nil] at h
      exact absurd h.symm (hr'.ne_append_joined (fun z hz => (hx z hz).1) (by simp) r)
    · obtain ⟨hxs, hlast⟩ := List.forall_mem_append.mp hx
      obtain ⟨hys, hylast⟩ := List.forall_mem_append.mp hy
      rw [joined_concat, joined_concat, ← List.append_assoc, ← List.append_assoc] at h
      obtain ⟨rfl, hfront⟩ := (hlast x List.mem_cons_self).2 y _ _ (hylast y List.mem_cons_self)
        (hr.isOpen xs) (hr'.isOpen ys) h
      obtain ⟨rfl, rfl⟩ := ih hxs hys (joined_eq_of_beforeLast_eq hr hr' hfront)
      exact ⟨rfl, rfl⟩

/-! ### Telling readings -/

theorem Legible.arguments (hx : x.Legible known) : ∀ z ∈ x.arguments, z.Legible known := by
  cases hx with
  | constant | null | array => exact List.forall_mem_nil _
  | construct _ parts | static _ _ parts | member _ _ _ parts => exact parts

theorem isCall_of_lastBracket (h : x.lastBracket = some ')') : x.IsCall := by
  cases x with
  | construct | static | member => trivial
  | literal | name | inner | array => cases h

/-- What has the text of a call is a call, with the same arguments and the same name in the same
place. -/
theorem parts_eq_of_isCall (hs : s.Tells known) (hx : x.Legible known) (hy : y.Legible known)
    (hxcall : x.IsCall) (htold : ∀ z ∈ x.arguments, z.Told s known) (hr : Text.IsOpen r)
    (hr' : Text.IsOpen r') (h : r ++ (x.text s).toList = r' ++ (y.text s).toList) :
    y.IsCall ∧ x.arguments = y.arguments ∧ r ++ x.front s = r' ++ y.front s ∧
      x.path s = y.path s := by
  have hycall : y.IsCall := by
    refine isCall_of_lastBracket ((lastBracket_eq hx hy h).symm.trans ?_)
    cases x with
    | construct | static | member => rfl
    | literal | name | inner | array => exact hxcall.elim
  have hgroup (front : List Char) (z : Reading) :
      front ++ (z.front s ++ z.path s ++ '(' :: joined s z.arguments ++ [')']) =
        front ++ z.front s ++ z.path s ++ ['('] ++ joined s z.arguments ++ [')'] := by simp
  rw [toList_text_of_isCall hx hxcall, toList_text_of_isCall hy hycall, hgroup, hgroup] at h
  obtain ⟨harguments, hcalled⟩ := eq_of_joined_eq (fun z hz => ⟨hx.arguments z hz, htold z hz⟩)
    hy.arguments ⟨_, '(', .inl rfl, rfl⟩ ⟨_, '(', .inl rfl, rfl⟩ (List.append_cancel_right h)
  exact ⟨hycall, harguments, eq_of_append_eq Text.InPath (inPath_path hs hx) (inPath_path hs hy)
    (not_inPath_front hx hr) (not_inPath_front hy hr') (List.append_cancel_right hcalled)⟩

/-- A literal is told by its text. -/
theorem told_literal (hs : s.Tells known) {l : Literal} (hl : (literal l).Legible known) :
    (literal l).Told s known := by
  intro y r r' hy hr hr' h
  have hbracket := lastBracket_eq hl hy h
  cases y with
  | literal m =>
    have hending := congrArg (List.rtakeWhile (· ∉ Text.gaps)) h
    rw [Text.rtakeWhile_append hr, Text.rtakeWhile_append hr'] at hending
    obtain rfl := eq_of_ending_eq hs hl hy hending
    exact ⟨rfl, List.append_cancel_right h⟩
  | name | inner => cases hy
  | construct | static | member | array => cases hbracket

/-- An array is told by its text if its components are told by theirs. -/
theorem told_array (hs : s.Tells known) {component : TypeExpr} {xs : List Reading}
    (htype : component.Knows known) (hparts : ∀ x ∈ xs, x.Legible known)
    (htold : ∀ x ∈ xs, x.Told s known) : (array component xs).Told s known := by
  intro y r r' hy hr hr' h
  have hbracket := lastBracket_eq (.array htype hparts) hy h
  cases hy with
  | constant | null | construct | static | member => cases hbracket
  | @array other ys htype' hparts' =>
    have hgroup (front : List Char) (t : TypeExpr) (zs : List Reading) :
        front ++ ((array t zs).text s).toList =
          front ++ ['n', 'e', 'w', ' '] ++ (t.nameIn s).toList ++ ['[', ']'] ++ ['\x7b'] ++
            joined s zs ++ ['\x7d'] := by
      simp [toList_text_array]
    rw [hgroup, hgroup] at h
    obtain ⟨rfl, hnew⟩ := eq_of_joined_eq (fun x hx => ⟨hparts x hx, htold x hx⟩) hparts'
      ⟨_, '\x7b', .inr rfl, rfl⟩ ⟨_, '\x7b', .inr rfl, rfl⟩ (List.append_cancel_right h)
    have hnames := List.append_cancel_right (List.append_cancel_right hnew)
    have hspace (t : TypeExpr) (ht : t.Knows known) : ∀ c ∈ (t.nameIn s).toList, c ∉ Text.gaps :=
      fun c hc => Text.notMem_gaps (hs.inPath_or_bracket_nameIn ht c hc)
    have hlast (front : List Char) :
        ∀ c ∈ (front ++ ['n', 'e', 'w', ' ']).getLast?, ¬ c ∉ Text.gaps := by
      simp [List.getLast?_append, Text.gaps]
    obtain ⟨hfront, hname⟩ := eq_of_append_eq (· ∉ Text.gaps) (hspace _ htype) (hspace _ htype')
      (hlast r) (hlast r') hnames
    obtain rfl := hs.eq_of_nameIn_eq htype htype' (String.toList_injective hname)
    exact ⟨rfl, List.append_cancel_right hfront⟩

/-- The call of a constructor is told by its text if its arguments are told by theirs. -/
theorem told_construct (hs : s.Tells known) {c : ClassName} {xs : List Reading} (owner : known c)
    (parts : ∀ x ∈ xs, x.Legible known) (htold : ∀ x ∈ xs, x.Told s known) :
    (construct c xs).Told s known := by
  intro y r r' hy hr hr' h
  obtain ⟨hycall, harguments, hfront, hpath⟩ :=
    parts_eq_of_isCall hs (.construct owner parts) hy trivial htold hr hr' h
  cases hy with
  | constant | null | array => exact hycall.elim
  | construct owner' =>
    obtain rfl := hs.injective _ _ owner owner' (String.toList_injective hpath)
    obtain rfl : xs = _ := harguments
    exact ⟨rfl, List.append_cancel_right hfront⟩
  | static => exact absurd ((List.append_nil r').symm.trans hfront.symm) (hr'.ne_append_new r)
  | member => exact absurd hpath (hs.isPath c owner).ne_cons_dot

/-- The call of a static method is told by its text if its arguments are told by theirs. -/
theorem told_static (hs : s.Tells known) {c : ClassName} {method : String} {xs : List Reading}
    (owner : known c) (isWord : Text.IsWord method.toList) (parts : ∀ x ∈ xs, x.Legible known)
    (htold : ∀ x ∈ xs, x.Told s known) : (static c method xs).Told s known := by
  intro y r r' hy hr hr' h
  obtain ⟨hycall, harguments, hfront, hpath⟩ :=
    parts_eq_of_isCall hs (.static owner isWord parts) hy trivial htold hr hr' h
  cases hy with
  | constant | null | array => exact hycall.elim
  | construct => exact absurd ((List.append_nil r).symm.trans hfront) (hr.ne_append_new r')
  | static owner' isWord' =>
    obtain ⟨hclass, hmethod⟩ := Text.eq_of_append_dot_eq isWord isWord' hpath
    obtain rfl := hs.injective _ _ owner owner' (String.toList_injective hclass)
    obtain rfl := String.toList_injective hmethod
    obtain rfl : xs = _ := harguments
    exact ⟨rfl, List.append_cancel_right hfront⟩
  | member => exact absurd hpath ((hs.isPath c owner).append_word isWord).ne_cons_dot

/-- The call of a method on an instance is told by its text if the instance and the arguments are
told by theirs. -/
theorem told_member (hs : s.Tells known) {receiver : Reading} {method : String} {xs : List Reading}
    (hreceiver : receiver.Legible known) (isInstance : receiver.IsInstance)
    (isWord : Text.IsWord method.toList) (parts : ∀ x ∈ xs, x.Legible known)
    (hreceivertold : receiver.Told s known) (htold : ∀ x ∈ xs, x.Told s known) :
    (member receiver method xs).Told s known := by
  intro y r r' hy hr hr' h
  obtain ⟨hycall, harguments, hfront, hpath⟩ :=
    parts_eq_of_isCall hs (.member hreceiver isInstance isWord parts) hy trivial htold hr hr' h
  cases hy with
  | constant | null | array => exact hycall.elim
  | construct owner' => exact absurd hpath.symm (hs.isPath _ owner').ne_cons_dot
  | static owner' isWord' =>
    exact absurd hpath.symm ((hs.isPath _ owner').append_word isWord').ne_cons_dot
  | @member other _ _ hother =>
    obtain rfl := String.toList_injective (List.cons.inj hpath).2
    obtain rfl : xs = _ := harguments
    obtain ⟨rfl, rfl⟩ := hreceivertold other r r' hother hr hr' hfront
    exact ⟨rfl, rfl⟩

/-- Readings of plans are **told by their texts**, if the scope tells the classes in them. -/
theorem Legible.told (hs : s.Tells known) (hx : x.Legible known) : x.Told s known := by
  induction hx with
  | constant mem => exact told_literal hs (.constant mem)
  | null type => exact told_literal hs (.null type)
  | construct owner parts ih => exact told_construct hs owner parts ih
  | static owner isWord parts ih => exact told_static hs owner isWord parts ih
  | member hreceiver isInstance isWord parts ihreceiver ih =>
    exact told_member hs hreceiver isInstance isWord parts ihreceiver ih
  | array type parts ih => exact told_array hs type parts ih

/-- Different readings of plans have different texts. -/
theorem eq_of_text_eq (hs : s.Tells known) (hx : x.Legible known) (hy : y.Legible known)
    (h : x.text s = y.text s) : x = y :=
  (hx.told hs y [] [] hy .start .start (congrArg String.toList h)).1

end

end Reading

end CallPlan

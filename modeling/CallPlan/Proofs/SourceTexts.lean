import CallPlan.Proofs.Paths
import CallPlan.Proofs.Words
import CallPlan.Render.TestClass

/-!
# What source text is put together from

The text of an expression is put together from names, words without structure, literals and text in
brackets. So a property of texts that these have, and that is kept when texts are joined or put in
brackets (`Text.Composable`), is a property of all texts of expressions and statements, provided the
names in them have it (`Expression.composed_text`, `Statement.composed_text`).
-/

namespace CallPlan

/-! ### Composable properties -/

namespace Text

/-- The characters that give source text its structure: brackets, quotes, slashes of both kinds, and
those that end a line. -/
def structural : List Char :=
  ['(', ')', '[', ']', '{', '}', '"', '\'', '/', '\\', '\n', '\r']

/-- A **plain** text has no structure of its own. -/
def IsPlain (cs : List Char) : Prop := ∀ c ∈ cs, c ∉ structural

instance (cs : List Char) : Decidable (IsPlain cs) :=
  decidable_of_iff (cs.all (· ∉ structural) = true) (by simp [IsPlain])

/-- The opening brackets, each with the one that closes it. -/
def brackets : List (Char × Char) := [('(', ')'), ('[', ']'), ('{', '}')]

/-- A property is **joinable** if plain texts have it, and it is kept when texts are joined. -/
structure Joinable (Q : List Char → Prop) : Prop where
  plain {cs : List Char} (isPlain : IsPlain cs) : Q cs
  append {cs ds : List Char} (front : Q cs) (back : Q ds) : Q (cs ++ ds)

/-- A property is **composable** if plain texts and literals have it, and it is kept when texts are
joined or put in brackets. -/
structure Composable (Q : List Char → Prop) : Prop extends Joinable Q where
  enclosed (bracket : Char × Char) {cs : List Char} (mem : bracket ∈ brackets) (inside : Q cs) :
    Q (bracket.1 :: cs ++ [bracket.2])
  string (s : String) : Q ('"' :: (escapeText s).toList ++ ['"'])
  character (c : Char) : Q ('\'' :: escapeInChar c ++ ['\''])

/-- Plain texts joined are plain. -/
theorem IsPlain.append {cs ds : List Char} (h : IsPlain cs) (h' : IsPlain ds) :
    IsPlain (cs ++ ds) :=
  List.forall_mem_append.mpr ⟨h, h'⟩

/-- To be plain is a joinable property itself. -/
theorem joinable_isPlain : Joinable IsPlain where
  plain := id
  append := IsPlain.append

/-- Letters and digits have no structure. -/
theorem notMem_structural_of_isAlphanum {c : Char} (h : c.isAlphanum = true) : c ∉ structural := by
  have hall : (structural.all fun c => !c.isAlphanum) = true := by decide
  intro hmem
  have hnot := List.all_eq_true.mp hall c hmem
  rw [h] at hnot
  cases hnot

/-- Identifiers have no structure. -/
theorem isPlain_of_isIdentifier {cs : List Char} (h : isIdentifier cs = true) : IsPlain cs := by
  have hall : (structural.all fun c => !continuesIdentifier c) = true := by decide
  intro c hc hmem
  have hnot := List.all_eq_true.mp hall c hmem
  rw [continuesIdentifier_of_mem h hc] at hnot
  cases hnot

/-! ### Numbers -/

theorem isPlain_toDigits (n : Nat) : IsPlain (Nat.toDigits 10 n) := by
  intro c hc
  have hdigit := Nat.isDigit_of_mem_toDigits (by decide) (by decide) hc
  exact notMem_structural_of_isAlphanum (by rw [Char.isAlphanum, hdigit, Bool.or_true])

theorem isPlain_natText (n : Nat) : IsPlain (toString n).toList := by
  rw [Nat.toString_eq_repr, Nat.toList_repr]
  exact isPlain_toDigits n

/-- Integers are written without structure, the sign of negative ones included. -/
theorem isPlain_intText (n : Int) : IsPlain (toString n).toList := by
  rw [Int.toString_eq_repr, Int.repr_eq_if]
  split_ifs
  · rw [Nat.toList_repr]
    exact isPlain_toDigits _
  · rw [String.toList_append, Nat.toList_repr]
    exact IsPlain.append (by decide) (isPlain_toDigits _)

end Text

open Text (IsPlain Joinable Composable)

/-- Digits written out around a point have no structure. -/
theorem Decimal.Layout.isPlain_plain {digits : List Char} (h : IsPlain digits) (exponent : Int) :
    IsPlain (plain digits exponent) := by
  have hpadded (places : Nat) : IsPlain (digits.leftpad places '0') := by
    rw [List.leftpad]
    refine IsPlain.append (fun c hc => ?_) h
    rw [List.eq_of_mem_replicate hc]
    decide
  unfold plain
  split_ifs
  · refine (h.append fun c hc => ?_).append (by decide)
    rw [List.eq_of_mem_replicate hc]
    decide
  · extract_lets places padded
    have hfront : IsPlain (padded.take (padded.length - places)) :=
      fun c hc => hpadded _ c (List.mem_of_mem_take hc)
    exact (hfront.append (by decide)).append
      fun c hc => hpadded _ c (List.mem_of_mem_drop hc)

/-- Plain digits with an exponent have no structure if the mark in front of the exponent has
none. -/
theorem Decimal.Layout.isPlain_scientific {mark : Char} (hmark : IsPlain [mark])
    {digits : List Char} (h : IsPlain digits) (power : Int) :
    IsPlain (scientific mark digits power) := by
  unfold scientific
  refine (IsPlain.append ?_ hmark).append (Text.isPlain_intText power)
  split
  · rename_i d e rest
    rw [IsPlain, List.forall_mem_cons, List.forall_mem_cons]
    exact ⟨h d List.mem_cons_self, by decide, fun c hc => h c (List.mem_cons_of_mem _ hc)⟩
  · exact h

/-- Floating point numbers are written without structure, those without digits included. -/
theorem Decimal.Layout.isPlain_text (x : Bool × Magnitude) :
    IsPlain (Layout.value.text x).toList := by
  have hscaled (d : Scaled) : IsPlain (Layout.value.scaled d) := by
    unfold scaled
    extract_lets digits power
    split_ifs
    · exact isPlain_plain (Text.isPlain_toDigits _) _
    · exact isPlain_scientific (by decide) (Text.isPlain_toDigits _) _
  obtain ⟨negative, magnitude⟩ := x
  have hunsigned (unsigned : String) (h : IsPlain unsigned.toList) :
      IsPlain (if negative then "-" ++ unsigned else unsigned).toList := by
    split_ifs
    · rw [String.toList_append]
      exact IsPlain.append (by decide) h
    · exact h
  cases magnitude with
  | notANumber => exact (by decide : IsPlain "NaN".toList)
  | infinite => exact hunsigned "inf" (by decide)
  | zero => exact hunsigned "0.0" (by decide)
  | positive d => exact hunsigned _ (by rw [String.toList_ofList]; exact hscaled _)

/-! ### Names in source text -/

/-- The package of a class and its simple names. -/
def ClassName.words (c : ClassName) : List String := c.package :: c.names

/-- The names that the name of a type is made of. -/
def TypeExpr.words : TypeExpr → List String
  | .named c => c.words
  | .array component => component.words
  | _ => []

/-- The names that the call of an operation is made of. -/
def Operation.words (op : Operation) : List String :=
  op.owner.words ++
    match op.kind with
    | .constructor => []
    | .method name .. => [name]

namespace Expression

mutual

/-- The names in the text of an expression. -/
def words : Expression → List String
  | literal (.null type _) => type.words
  | literal _ => []
  | var v => [v.name]
  | call op implicit arguments => op.words ++ implicitWords implicit ++ allWords arguments
  | array component components => component.words ++ allWords components

/-- The names in the text of an implicit argument. -/
def implicitWords : Option Expression → List String
  | none => []
  | some e => e.words

/-- The names in the texts of several expressions. -/
def allWords : List Expression → List String
  | [] => []
  | e :: es => e.words ++ allWords es

end

end Expression

/-- The names in the text of a statement. -/
def Statement.words : Statement → List String
  | .bind v value => v.type.words ++ v.name :: value.words
  | .run value => value.words

/-- The names in the texts of a block, and in that of its operation. -/
def Block.words (b : Block) : List String :=
  b.operation.words ++ b.statements.flatMap Statement.words

namespace TestClass

/-- The names in the text of a test class. -/
def words (t : TestClass) : List String :=
  t.tested.words ++ t.blocks.flatMap Block.words

theorem package_mem_words (t : TestClass) : t.tested.package ∈ t.words :=
  List.mem_append_left _ List.mem_cons_self

theorem simpleName_mem_words (t : TestClass) : t.tested.simpleName ∈ t.words :=
  List.mem_append_left _ (List.mem_cons_of_mem _ t.tested.simpleName_mem_names)

theorem words_subset {t : TestClass} {b : Block} (hb : b ∈ t.blocks) : b.words ⊆ t.words :=
  fun _ hw => List.mem_append_right _ (List.mem_flatMap.mpr ⟨b, hb, hw⟩)

end TestClass

/-! ### Names that are put together -/

section

variable {Q : List Char → Prop} (hQ : Joinable Q) (s : Scope)

include hQ

/-- Texts with a separator between them have every joinable property that they and the separator
have. -/
theorem Text.Joinable.intercalate {separator : List Char} (hseparator : Q separator)
    {parts : List (List Char)} (h : ∀ part ∈ parts, Q part) : Q (separator.intercalate parts) := by
  induction parts using List.reverseRecOn with
  | nil => exact hQ.plain (by simp [IsPlain])
  | append_singleton parts last ih =>
    obtain ⟨hparts, hlast⟩ := List.forall_mem_append.mp h
    rw [intercalate_concat]
    split_ifs
    · exact hlast last List.mem_cons_self
    · exact hQ.append (hQ.append (ih hparts) hseparator) (hlast last List.mem_cons_self)

/-- The simple names of a class between plain separators have every joinable property of its
words. -/
theorem ClassName.joined_chain {c : ClassName} {separator : String}
    (hseparator : IsPlain separator.toList) (h : ∀ w ∈ c.words, Q w.toList) :
    Q (separator.intercalate c.names).toList := by
  rw [String.toList_intercalate]
  refine hQ.intercalate (hQ.plain hseparator) (List.forall_mem_map.mpr fun name hname => ?_)
  exact h name (List.mem_cons_of_mem _ hname)

/-- A class written with its package has every joinable property of its words. -/
theorem ClassName.joined_written {c : ClassName} {separator : String}
    (hseparator : IsPlain separator.toList) (h : ∀ w ∈ c.words, Q w.toList) :
    Q (c.written separator).toList := by
  rw [written]
  split_ifs
  · exact c.joined_chain hQ hseparator h
  · simp only [String.toList_append]
    exact hQ.append (hQ.append (h _ List.mem_cons_self) (hQ.plain (by decide)))
      (c.joined_chain hQ hseparator h)

/-- However a scope names a class, the name has every joinable property of the words of the
class. -/
theorem ClassName.joined_nameIn {c : ClassName} (h : ∀ w ∈ c.words, Q w.toList) :
    Q (c.nameIn s).toList := by
  rw [nameIn]
  split_ifs
  · exact c.joined_chain hQ (by decide) h
  · exact c.joined_written hQ (by decide) h

/-- The qualified name of an operation has every joinable property of its words. -/
theorem Operation.joined_qualifiedName {op : Operation} (h : ∀ w ∈ op.words, Q w.toList) :
    Q op.qualifiedName.toList := by
  obtain ⟨howner, hname⟩ := List.forall_mem_append.mp h
  simp only [qualifiedName, String.toList_append]
  refine hQ.append (hQ.append (op.owner.joined_written hQ (by decide) howner)
    (hQ.plain (by decide))) ?_
  rw [name]
  cases hkind : op.kind with
  | constructor => exact hQ.plain (by decide : IsPlain initializerName.toList)
  | method name result isStatic isAbstract =>
    rw [hkind] at hname
    exact hname _ List.mem_cons_self

end

/-! ### Composed texts -/

section

variable {Q : List Char → Prop} (hQ : Composable Q) (s : Scope)

include hQ

/-- The name of a type has every composable property of the names in it. -/
theorem TypeExpr.composed_nameIn {t : TypeExpr} (h : ∀ w ∈ t.words, Q w.toList) :
    Q (t.nameIn s).toList := by
  induction t with
  | void => exact hQ.plain (by decide : IsPlain "void".toList)
  | primitive p => exact hQ.plain (by cases p <;> decide : IsPlain p.keyword.toList)
  | named c => exact c.joined_nameIn hQ.toJoinable s h
  | array component ih =>
    rw [nameIn, String.toList_append]
    have hnothing : Q [] := hQ.plain (by decide)
    exact hQ.append (ih h) (hQ.enclosed ('[', ']') (by decide) hnothing)

/-- A literal has every composable property. Only `null` has names in it, those of its type. -/
theorem Literal.composed_text {l : Literal} (h : ∀ w ∈ (Expression.literal l).words, Q w.toList) :
    Q (l.text s).toList := by
  have hfloating (x : Bool × Decimal.Magnitude) {wrapper suffix : String}
      (hwrapper : IsPlain wrapper.toList) (hsuffix : IsPlain suffix.toList) :
      Q (floatingText x wrapper suffix).toList := by
    refine hQ.plain ?_
    unfold floatingText
    split
    · exact String.toList_append ▸ hwrapper.append (by decide)
    · exact String.toList_append ▸ hwrapper.append (by decide)
    · exact String.toList_append ▸ hwrapper.append (by decide)
    · exact String.toList_append ▸ (Decimal.Layout.isPlain_text x).append hsuffix
  have hcast {word : List Char} (hword : IsPlain word) {number : Int} :
      Q ('(' :: word ++ [')'] ++ (toString number).toList) :=
    hQ.append (hQ.enclosed ('(', ')') (by decide) (hQ.plain hword))
      (hQ.plain (Text.isPlain_intText number))
  cases l with
  | null type _ =>
    simpa [text] using hQ.append (hQ.enclosed ('(', ')') (by decide)
      (type.composed_nameIn hQ s h)) (hQ.plain (by decide : IsPlain "null".toList))
  | boolean b => exact hQ.plain (by cases b <;> decide : IsPlain (toString b).toList)
  | byte n => simpa [text] using hcast (by decide : IsPlain "byte".toList)
  | short n => simpa [text] using hcast (by decide : IsPlain "short".toList)
  | char c => simpa [text] using hQ.character c
  | int n => exact hQ.plain (Text.isPlain_intText _)
  | long n =>
    rw [text, String.toList_append]
    exact hQ.plain ((Text.isPlain_intText _).append (by decide))
  | float x => exact hfloating x.decode (by decide) (by decide)
  | double x => exact hfloating x.decode (by decide) (by decide)
  | string t => simpa [text] using hQ.string t

namespace Expression

theorem composed_separated {texts : List String} (h : ∀ text ∈ texts, Q text.toList) :
    Q (", ".intercalate texts).toList := by
  rw [String.toList_intercalate]
  exact hQ.intercalate (hQ.plain (by decide)) (List.forall_mem_map.mpr h)

/-- Parentheses around a receiver keep every composable property. -/
theorem composed_asReceiver {e : Expression} {text : String} (h : Q text.toList) :
    Q (e.asReceiver text).toList := by
  rw [asReceiver]
  split_ifs
  · simpa using hQ.enclosed ('(', ')') (by decide) h
  · exact h

/-- The text of a call has every composable property of the operation's words and of the texts of
its receiver and its arguments. -/
theorem composed_callText {op : Operation} {receiver : Option String} {arguments : List String}
    (hop : ∀ w ∈ op.words, Q w.toList) (hreceiver : ∀ text ∈ receiver, Q text.toList)
    (harguments : ∀ text ∈ arguments, Q text.toList) :
    Q (callText s op receiver arguments).toList := by
  have happlied : Q ("(" ++ ", ".intercalate arguments ++ ")").toList := by
    simpa using hQ.enclosed ('(', ')') (by decide) (composed_separated hQ harguments)
  obtain ⟨howner, hname⟩ := List.forall_mem_append.mp hop
  unfold callText
  split <;> rename_i hkind <;> rw [String.toList_append] <;> refine hQ.append ?_ happlied
  · rw [String.toList_append]
    exact hQ.append (hQ.plain (by decide)) (op.owner.joined_nameIn hQ.toJoinable s howner)
  · simp only [String.toList_append]
    exact hQ.append (hQ.append (hreceiver _ rfl) (hQ.plain (by decide)))
      (howner _ (List.mem_cons_of_mem _ op.owner.simpleName_mem_names))
  · rw [hkind] at hname
    simp only [String.toList_append]
    have howner := op.owner.joined_nameIn hQ.toJoinable s howner
    exact hQ.append (hQ.append howner (hQ.plain (by decide))) (hname _ List.mem_cons_self)
  · rw [hkind] at hname
    simp only [String.toList_append]
    exact hQ.append (hQ.append (hreceiver _ rfl) (hQ.plain (by decide)))
      (hname _ List.mem_cons_self)

end Expression

end

namespace Expression

variable {Q : List Char → Prop}

mutual

/-- The text of an expression has every composable property of the names in it. -/
theorem composed_text (hQ : Composable Q) (s : Scope) :
    ∀ e : Expression, (∀ w ∈ e.words, Q w.toList) → Q (e.text s).toList
  | literal l, h => by
    rw [text]
    exact l.composed_text hQ s h
  | var v, h => by
    rw [text]
    exact h _ (by rw [words]; exact List.mem_cons_self)
  | call op implicit arguments, h => by
    rw [words, List.forall_mem_append, List.forall_mem_append] at h
    rw [text]
    exact composed_callText hQ s h.1.1 (composed_implicitText hQ s implicit h.1.2)
      (composed_texts hQ s arguments h.2)
  | array component components, h => by
    rw [words, List.forall_mem_append] at h
    have hcomponents := composed_separated hQ (composed_texts hQ s components h.2)
    have hbraces := hQ.enclosed ('{', '}') (by decide) hcomponents
    have htype : Q ((TypeExpr.array component).nameIn s).toList :=
      TypeExpr.composed_nameIn hQ s h.1
    rw [text]
    simpa [TypeExpr.nameIn] using
      hQ.append (hQ.plain (by decide : IsPlain "new ".toList)) (hQ.append htype hbraces)

/-- The part of `composed_text` for implicit arguments. -/
theorem composed_implicitText (hQ : Composable Q) (s : Scope) : ∀ implicit : Option Expression,
    (∀ w ∈ implicitWords implicit, Q w.toList) → ∀ text ∈ implicitText s implicit, Q text.toList
  | none, _ => by simp [implicitText]
  | some e, h => by
    rw [implicitText]
    rintro _ ⟨⟩
    exact composed_asReceiver hQ (composed_text hQ s e h)

/-- The part of `composed_text` for lists of expressions. -/
theorem composed_texts (hQ : Composable Q) (s : Scope) :
    ∀ es : List Expression, (∀ w ∈ allWords es, Q w.toList) → ∀ text ∈ texts s es, Q text.toList
  | [], _ => by simp [texts]
  | e :: es, h => by
    rw [allWords, List.forall_mem_append] at h
    rw [texts, List.forall_mem_cons]
    exact ⟨composed_text hQ s e h.1, composed_texts hQ s es h.2⟩

end

end Expression

section

variable {Q : List Char → Prop} (hQ : Composable Q) (s : Scope)

include hQ

/-- The text of a statement has every composable property of the names in it. -/
theorem Statement.composed_text {statement : Statement}
    (h : ∀ w ∈ statement.words, Q w.toList) : Q (statement.text s).toList := by
  cases statement with
  | bind v value =>
    rw [words, List.forall_mem_append, List.forall_mem_cons] at h
    obtain ⟨htype, hname, hvalue⟩ := h
    simp only [text, String.toList_append]
    refine hQ.append (hQ.append (hQ.append (hQ.append (hQ.append ?_ ?_) hname) ?_) ?_) ?_
    · exact v.type.composed_nameIn hQ s htype
    · exact hQ.plain (by decide)
    · exact hQ.plain (by decide)
    · exact value.composed_text hQ s hvalue
    · exact hQ.plain (by decide)
  | run value =>
    rw [text, String.toList_append]
    exact hQ.append (value.composed_text hQ s h) (hQ.plain (by decide))

/-- The statements of a block have every composable property of the names in the block. -/
theorem Block.composed_texts {b : Block} (h : ∀ w ∈ b.words, Q w.toList) :
    ∀ text ∈ b.texts s, Q text.toList := by
  rw [texts, List.forall_mem_map]
  intro statement hstatement
  refine Statement.composed_text hQ s fun w hw => h w (List.mem_append_right _ ?_)
  exact List.mem_flatMap.mpr ⟨statement, hstatement, hw⟩

end

end CallPlan

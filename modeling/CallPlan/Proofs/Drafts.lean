import CallPlan.Proofs.Parts
import CallPlan.Render.TestClass

/-!
# Drafts of source text

A draft is source text in which the types that it names can still be told from the words around
them. Most types are named as the scope has it. Some types of the core package are named by their
simple name wherever they stand: these are fixed. The draft of an expression reads as its text if
what is fixed stays as it is (`Expression.text_draft`), and what is fixed are the wrapper classes of
numbers without digits (`Expression.mem_fixedNames_draft_iff`).

Named by the scope instead, a fixed type reads the same exactly if the scope sees it
(`Draft.text_nameIn_eq_iff`).
-/

namespace CallPlan

/-! ### Drafts -/

/-- A piece of source text. -/
inductive Fragment where
  /-- Text that names no type. -/
  | plain (text : String)
  /-- A type, named as the scope has it. -/
  | named (c : ClassName)
  /-- A type of the core package, named by its simple name. -/
  | fixed (simpleName : String)

/-- Source text in the making. -/
abbrev Draft := List Fragment

/-- The text of a fragment, with `core` to name what is fixed. -/
def Fragment.text (s : Scope) (core : String → String) : Fragment → String
  | plain text => text
  | named c => c.nameIn s
  | fixed simpleName => core simpleName

/-- The name that is fixed in a fragment. -/
def Fragment.fixed? : Fragment → Option String
  | fixed simpleName => some simpleName
  | _ => none

namespace Draft

/-- The text of a draft, with `core` to name what is fixed. -/
def text (s : Scope) (core : String → String) (d : Draft) : String :=
  String.join (d.map (Fragment.text s core))

/-- All names that are fixed in a draft. -/
def fixedNames (d : Draft) : List String := d.filterMap Fragment.fixed?

/-- Drafts with commas between them. -/
def separated (ds : List Draft) : Draft := List.intercalate [.plain ", "] ds

variable (s : Scope) (core : String → String)

@[simp]
theorem text_nil : text s core [] = "" := by simp [text]

@[simp]
theorem text_cons (f : Fragment) (d : Draft) :
    text s core (f :: d) = f.text s core ++ text s core d := by
  simp [text]

/-- The text of joined drafts is that of each of them, joined. -/
@[simp]
theorem text_append (d e : Draft) : text s core (d ++ e) = text s core d ++ text s core e := by
  simp [text]

@[simp]
theorem fixedNames_nil : fixedNames [] = [] := rfl

@[simp]
theorem fixedNames_plain_cons (text : String) (d : Draft) :
    fixedNames (.plain text :: d) = fixedNames d := rfl

@[simp]
theorem fixedNames_named_cons (c : ClassName) (d : Draft) :
    fixedNames (.named c :: d) = fixedNames d := rfl

@[simp]
theorem fixedNames_fixed_cons (simpleName : String) (d : Draft) :
    fixedNames (.fixed simpleName :: d) = simpleName :: fixedNames d := rfl

/-- What is fixed in joined drafts is what is fixed in each of them. -/
@[simp]
theorem fixedNames_append (d e : Draft) : fixedNames (d ++ e) = fixedNames d ++ fixedNames e :=
  List.filterMap_append

/-- The first of several separated drafts stands in front of a comma and of the others. -/
theorem separated_cons_cons (d e : Draft) (ds : List Draft) :
    separated (d :: e :: ds) = d ++ ([.plain ", "] ++ separated (e :: ds)) := by
  rw [separated, List.intercalate_cons_cons, List.append_assoc]
  rfl

/-- Separated drafts read as their texts with commas between them. -/
theorem text_separated (ds : List Draft) :
    text s core (separated ds) = ", ".intercalate (ds.map (text s core)) := by
  induction ds with
  | nil => simp [separated, List.intercalate]
  | cons d ds ih =>
    cases ds with
    | nil => simp [separated, List.intercalate]
    | cons e ds =>
      rw [separated_cons_cons, text_append, text_append, ih]
      simp [Fragment.text, String.append_assoc]

/-- The commas between drafts fix no name. -/
theorem mem_fixedNames_separated {name : String} {ds : List Draft} :
    name ∈ fixedNames (separated ds) ↔ ∃ d ∈ ds, name ∈ fixedNames d := by
  induction ds with
  | nil => simp [separated, List.intercalate]
  | cons d ds ih =>
    cases ds with
    | nil => simp [separated, List.intercalate]
    | cons e ds =>
      rw [separated_cons_cons, fixedNames_append, List.mem_append, List.singleton_append,
        fixedNames_plain_cons, ih, List.exists_mem_cons_iff _ d]

end Draft

/-! ### Naming fixed types by the scope -/

/-- The name of a type of the core package in a scope. -/
def Scope.coreName (s : Scope) (simpleName : String) : String :=
  (ClassName.core simpleName).nameIn s

/-- A scope that does not see a type of the core package adds the package to its name. -/
theorem Scope.length_coreName (s : Scope) (simpleName : String) :
    (s.coreName simpleName).length =
      simpleName.length + if s.sees (.core simpleName) then 0 else 10 := by
  rw [coreName, ClassName.nameIn]
  split
  · simp [ClassName.core]
  · have hqualified : (ClassName.core simpleName).qualifiedName = "java.lang." ++ simpleName := by
      simp [ClassName.qualifiedName, ClassName.written, ClassName.core, ClassName.topLevel,
        ClassName.corePackage, ClassName.inDefaultPackage, ClassName.names]
    rw [hqualified, String.length_append, Nat.add_comm]
    rfl

/-- The text of a draft, all of its types named as the scope has it. -/
def Draft.textByScope (s : Scope) (d : Draft) : String := d.text s s.coreName

/-- Named by the scope, a draft grows with every fixed type that the scope does not see. -/
theorem Draft.length_textByScope (s : Scope) (d : Draft) :
    (d.textByScope s).length =
      (d.text s id).length + 10 * d.fixedNames.countP fun name => !s.sees (.core name) := by
  rw [textByScope]
  induction d with
  | nil => simp
  | cons f d ih =>
    cases f with
    | plain text | named c =>
      simp [Fragment.text, ih, Nat.add_assoc]
    | fixed simpleName =>
      rw [text_cons, text_cons, String.length_append, String.length_append, ih, Fragment.text,
        Fragment.text, Scope.length_coreName, fixedNames_fixed_cons, List.countP_cons, id_eq]
      cases s.sees (.core simpleName) <;> simp <;> omega

/-- The text of a draft depends on how its fixed types are named only. -/
theorem Draft.text_congr {s : Scope} {core core' : String → String} {d : Draft}
    (h : ∀ name ∈ d.fixedNames, core name = core' name) : d.text s core = d.text s core' := by
  induction d with
  | nil => rfl
  | cons f d ih =>
    cases f with
    | plain text => rw [text_cons, text_cons, ih h]; rfl
    | named c => rw [text_cons, text_cons, ih h]; rfl
    | fixed simpleName =>
      obtain ⟨hname, hrest⟩ := List.forall_mem_cons.mp h
      rw [text_cons, text_cons, ih hrest, Fragment.text, Fragment.text, hname]

/-- Named by the scope, a draft reads the same exactly if the scope sees all its fixed types. -/
theorem Draft.text_eq_textByScope_iff {s : Scope} {d : Draft} :
    d.text s id = d.textByScope s ↔ ∀ name ∈ d.fixedNames, s.sees (.core name) = true := by
  constructor
  · intro h
    -- every hidden name would make the text longer
    have hlength := length_textByScope s d
    rw [← h] at hlength
    have hnone : d.fixedNames.countP (fun name => !s.sees (.core name)) = 0 := by omega
    simpa using List.countP_eq_zero.mp hnone
  · intro hsees
    refine text_congr fun name hname => ?_
    rw [Scope.coreName, ClassName.nameIn, if_pos (hsees name hname)]
    rfl

/-! ### Types and literals -/

/-- The draft of a type. -/
def TypeExpr.draft : TypeExpr → Draft
  | .named c => [.named c]
  | .array component => component.draft ++ [.plain "[]"]
  | t => [.plain t.binaryName]

/-- The draft of a type reads as the name of the type, whatever fixed types are called. -/
@[simp]
theorem TypeExpr.text_draft (s : Scope) (core : String → String) (t : TypeExpr) :
    t.draft.text s core = t.nameIn s := by
  induction t with
  | array component ih => simp [draft, nameIn, ih, Fragment.text]
  | void | primitive p | named c => simp [draft, nameIn, Fragment.text, binaryName]

/-- No name is fixed in a type. -/
@[simp]
theorem TypeExpr.fixedNames_draft (t : TypeExpr) : t.draft.fixedNames = [] := by
  induction t with
  | array component ih => simp [draft, ih]
  | void | primitive p | named c => rfl

/-- The number is written without digits. -/
def Decimal.Magnitude.lacksDigits : Decimal.Magnitude → Bool
  | notANumber | infinite => true
  | _ => false

namespace Literal

/-- The draft of a floating point literal. -/
def floatingDraft (x : Bool × Decimal.Magnitude) (wrapper suffix : String) : Draft :=
  match x with
  | (_, .notANumber) => [.fixed wrapper, .plain ".NaN"]
  | (false, .infinite) => [.fixed wrapper, .plain ".POSITIVE_INFINITY"]
  | (true, .infinite) => [.fixed wrapper, .plain ".NEGATIVE_INFINITY"]
  | finite => [.plain (floatingText finite wrapper suffix)]

/-- The draft of a literal. -/
def draft : Literal → Draft
  | null type _ => [.plain "("] ++ type.draft ++ [.plain ")null"]
  | float x => floatingDraft x.decode "Float" "f"
  | double x => floatingDraft x.decode "Double" "d"
  | l => [.plain (l.text Scope.outside)]

/-- The wrapper class of a number that is written as one of its constants. -/
def wrapper? : Literal → Option String
  | float x => if x.decode.2.lacksDigits then some "Float" else none
  | double x => if x.decode.2.lacksDigits then some "Double" else none
  | _ => none

/-- With fixed names as they are, the draft of a floating point literal reads as its text. -/
theorem text_floatingDraft (s : Scope) (x : Bool × Decimal.Magnitude) (wrapper suffix : String) :
    (floatingDraft x wrapper suffix).text s id = floatingText x wrapper suffix := by
  obtain ⟨negative, magnitude⟩ := x
  cases magnitude <;> cases negative <;> simp [floatingDraft, floatingText, Fragment.text]

/-- The wrapper class is fixed in a floating point literal if that has no digits. -/
theorem fixedNames_floatingDraft (x : Bool × Decimal.Magnitude) (wrapper suffix : String) :
    (floatingDraft x wrapper suffix).fixedNames =
      if x.2.lacksDigits then [wrapper] else [] := by
  obtain ⟨negative, magnitude⟩ := x
  cases magnitude <;> cases negative <;> rfl

/-- With fixed names as they are, the draft of a literal reads as its text. -/
@[simp]
theorem text_draft (s : Scope) (l : Literal) : l.draft.text s id = l.text s := by
  cases l with
  | null type _ => simp [draft, text, Fragment.text, String.append_assoc]
  | float x => exact text_floatingDraft s x.decode "Float" "f"
  | double x => exact text_floatingDraft s x.decode "Double" "d"
  | boolean | byte | short | char | int | long | string =>
    simp [draft, text, Fragment.text]

/-- What is fixed in a literal is the wrapper class that it is a constant of, if there is one. -/
theorem fixedNames_draft (l : Literal) : l.draft.fixedNames = l.wrapper?.toList := by
  cases l with
  | null type _ => simp [draft, wrapper?]
  | float x =>
    rw [draft, fixedNames_floatingDraft, wrapper?]
    split <;> rfl
  | double x =>
    rw [draft, fixedNames_floatingDraft, wrapper?]
    split <;> rfl
  | boolean | byte | short | char | int | long | string => rfl

end Literal

/-! ### Expressions -/

namespace Expression

/-- The draft in front of a member access. -/
def receiverDraft (e : Expression) (d : Draft) : Draft :=
  if e.needsParentheses then [.plain "("] ++ d ++ [.plain ")"] else d

/-- The draft of a call, given the drafts of its parts. Behind an enclosing instance the name of an
inner type is a member of that instance's type, which no scope can hide. -/
def callDraft (op : Operation) (receiver : Option Draft) (arguments : List Draft) : Draft :=
  let applied := [.plain "("] ++ Draft.separated arguments ++ [.plain ")"]
  match op.kind, receiver with
  | .constructor, none => [.plain "new ", .named op.owner] ++ applied
  | .constructor, some outer => outer ++ [.plain (".new " ++ op.owner.simpleName)] ++ applied
  | .method name _ _ _, none => [.named op.owner, .plain ("." ++ name)] ++ applied
  | .method name _ _ _, some receiver => receiver ++ [.plain ("." ++ name)] ++ applied

mutual

/-- The draft of an expression. -/
def draft : Expression → Draft
  | literal l => l.draft
  | var v => [.plain v.name]
  | call op implicit arguments => callDraft op (implicitDraft implicit) (drafts arguments)
  | array component components =>
    [.plain "new "] ++ component.draft ++ [.plain "[]\x7b"] ++
      Draft.separated (drafts components) ++ [.plain "\x7d"]

/-- The draft of an implicit argument in front of the member access. -/
def implicitDraft : Option Expression → Option Draft
  | none => none
  | some e => some (e.receiverDraft e.draft)

/-- The drafts of several expressions. -/
def drafts : List Expression → List Draft
  | [] => []
  | e :: es => e.draft :: drafts es

end

/-- In front of a member access a draft stands in parentheses where its expression does. -/
theorem text_receiverDraft (s : Scope) (e : Expression) (d : Draft) :
    (e.receiverDraft d).text s id = e.asReceiver (d.text s id) := by
  rw [receiverDraft, asReceiver]
  split <;> simp [Fragment.text, String.append_assoc]

/-- The draft of a call reads as the call of what the drafts of its parts read as. -/
theorem text_callDraft (s : Scope) (op : Operation) (receiver : Option Draft)
    (arguments : List Draft) :
    (callDraft op receiver arguments).text s id =
      callText s op (receiver.map (Draft.text s id)) (arguments.map (Draft.text s id)) := by
  cases hkind : op.kind <;> cases receiver <;>
    simp [callDraft, callText, hkind, Draft.text_separated, Fragment.text, String.append_assoc]

mutual

/-- With fixed names as they are, the draft of an expression reads as its text. -/
theorem text_draft (s : Scope) : ∀ e : Expression, e.draft.text s id = e.text s
  | literal l => by rw [draft, text, Literal.text_draft]
  | var v => by simp [draft, text, Fragment.text]
  | call op implicit arguments => by
    rw [draft, text, text_callDraft, map_text_implicitDraft s implicit, map_text_drafts s arguments]
  | array component components => by
    rw [draft, text]
    simp [Draft.text_separated, map_text_drafts s components, Fragment.text, String.append_assoc]

/-- The part of `text_draft` for implicit arguments. -/
theorem map_text_implicitDraft (s : Scope) : ∀ implicit : Option Expression,
    (implicitDraft implicit).map (Draft.text s id) = implicitText s implicit
  | none => by rw [implicitDraft, implicitText, Option.map_none]
  | some e => by
    rw [implicitDraft, implicitText, Option.map_some, text_receiverDraft, text_draft s e]

/-- The part of `text_draft` for lists of expressions. -/
theorem map_text_drafts (s : Scope) : ∀ es : List Expression,
    (drafts es).map (Draft.text s id) = texts s es
  | [] => by rw [drafts, texts, List.map_nil]
  | e :: es => by rw [drafts, texts, List.map_cons, text_draft s e, map_text_drafts s es]

end

/-! ### Fixed names in expressions -/

@[simp]
theorem fixedNames_receiverDraft (e : Expression) (d : Draft) :
    (e.receiverDraft d).fixedNames = d.fixedNames := by
  rw [receiverDraft]
  split <;> simp

/-- What is fixed in a call is fixed in its receiver or in one of its arguments. -/
theorem mem_fixedNames_callDraft {name : String} {op : Operation} {receiver : Option Draft}
    {arguments : List Draft} :
    name ∈ (callDraft op receiver arguments).fixedNames ↔
      (∃ d ∈ receiver, name ∈ d.fixedNames) ∨ ∃ d ∈ arguments, name ∈ d.fixedNames := by
  rw [← Draft.mem_fixedNames_separated]
  cases hkind : op.kind <;> cases receiver <;>
    simp [callDraft, hkind]

/-- One of the numbers in the expression is written as a constant of the wrapper class. -/
def NamesWrapper (name : String) (e : Expression) : Prop :=
  ∃ l : Literal, (literal l).IsPartOf e ∧ l.wrapper? = some name

/-- A call names a wrapper class if its implicit argument or one of its arguments does. -/
theorem namesWrapper_call_iff {name : String} {op : Operation} {implicit : Option Expression}
    {arguments : List Expression} :
    (call op implicit arguments).NamesWrapper name ↔
      (∃ e ∈ implicit, e.NamesWrapper name) ∨ ∃ e ∈ arguments, e.NamesWrapper name := by
  simp only [NamesWrapper, isPartOf_call_iff]
  constructor
  · rintro ⟨l, h | ⟨e, he, hpart⟩, hname⟩
    · cases h
    · rcases List.mem_append.mp he with he | he
      · exact .inl ⟨e, Option.mem_toList.mp he, l, hpart, hname⟩
      · exact .inr ⟨e, he, l, hpart, hname⟩
  · rintro (⟨e, he, l, hpart, hname⟩ | ⟨e, he, l, hpart, hname⟩)
    · exact ⟨l, .inr ⟨e, List.mem_append_left _ (Option.mem_toList.mpr he), hpart⟩, hname⟩
    · exact ⟨l, .inr ⟨e, List.mem_append_right _ he, hpart⟩, hname⟩

theorem namesWrapper_array_iff {name : String} {component : TypeExpr}
    {components : List Expression} :
    (array component components).NamesWrapper name ↔ ∃ e ∈ components, e.NamesWrapper name := by
  simp only [NamesWrapper, isPartOf_array_iff]
  constructor
  · rintro ⟨l, h | ⟨e, he, hpart⟩, hname⟩
    · cases h
    · exact ⟨e, he, l, hpart, hname⟩
  · rintro ⟨e, he, l, hpart, hname⟩
    exact ⟨l, .inr ⟨e, he, hpart⟩, hname⟩

mutual

/-- What is fixed in an expression are the wrapper classes of its numbers without digits. -/
theorem mem_fixedNames_draft_iff {name : String} :
    ∀ e : Expression, name ∈ e.draft.fixedNames ↔ e.NamesWrapper name
  | literal l => by
    simp [NamesWrapper, draft, Literal.fixedNames_draft]
  | var v => by
    simp [NamesWrapper, draft]
  | call op implicit arguments => by
    rw [draft, mem_fixedNames_callDraft, namesWrapper_call_iff,
      exists_mem_implicitDraft_iff implicit, exists_mem_drafts_iff arguments]
  | array component components => by
    rw [draft, namesWrapper_array_iff, ← exists_mem_drafts_iff components,
      ← Draft.mem_fixedNames_separated]
    simp

/-- The part of `mem_fixedNames_draft_iff` for implicit arguments. -/
theorem exists_mem_implicitDraft_iff {name : String} : ∀ implicit : Option Expression,
    (∃ d ∈ implicitDraft implicit, name ∈ d.fixedNames) ↔ ∃ e ∈ implicit, e.NamesWrapper name
  | none => by simp [implicitDraft]
  | some e => by simp [implicitDraft, mem_fixedNames_draft_iff e]

/-- The part of `mem_fixedNames_draft_iff` for lists of expressions. -/
theorem exists_mem_drafts_iff {name : String} : ∀ es : List Expression,
    (∃ d ∈ drafts es, name ∈ d.fixedNames) ↔ ∃ e ∈ es, e.NamesWrapper name
  | [] => by simp [drafts]
  | e :: es => by
    rw [drafts, List.exists_mem_cons_iff, List.exists_mem_cons_iff, mem_fixedNames_draft_iff e,
      exists_mem_drafts_iff es]

end

end Expression

end CallPlan

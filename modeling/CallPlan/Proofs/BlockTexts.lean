import CallPlan.Proofs.Legibility
import CallPlan.Proofs.Statements

/-!
# Reading blocks

The statements of a block are made of an operation and the plans for its slots (`Block.body`). Their
texts tell what the plans read, and the types of the slots, because variables are declared with
their types (`Reading.eq_of_boundText_eq`). The text of the last statement tells which operation of
the class is called on the variables, as far as a text can tell one
(`Block.callee_eq_of_text_lastStatement_eq`).
-/

namespace CallPlan

/-! ### Variables -/

/-- The name of a variable is a word. -/
theorem NameSupply.isWord_nameOf (t : TypeExpr) (number : Nat) :
    Text.IsWord (nameOf t.initial number).toList := by
  have hmarks : (Text.marks.all fun c => !(c.isAlpha || c.isDigit)) = true := by decide
  have hplain {c : Char} (hc : (c.isAlpha || c.isDigit) = true) : c ∉ Text.marks := by
    intro hmark
    have hnot := List.all_eq_true.mp hmarks c hmark
    rw [hc] at hnot
    cases hnot
  have hinitial : t.initial.isAlpha = true := by
    unfold TypeExpr.initial
    extract_lets word
    split
    · split_ifs with halpha
      · rwa [Char.isAlpha_toLower_eq_isAlpha]
      · rfl
    · rfl
  rw [nameOf, String.toList_ofList]
  refine ⟨List.cons_ne_nil _ _, List.forall_mem_cons.mpr ⟨hplain (by simp [hinitial]), ?_⟩⟩
  intro c hc
  rw [Nat.toString_eq_repr, Nat.toList_repr] at hc
  exact hplain (by simp [Nat.isDigit_of_mem_toDigits (by decide) (by decide) hc])

namespace Block

theorem isWord_name_of_mem_variablesFrom {start : Nat} {types : List TypeExpr} {v : Variable}
    (h : v ∈ variablesFrom start types) : Text.IsWord v.name.toList := by
  obtain ⟨⟨t, number⟩, -, rfl⟩ := List.mem_map.mp h
  exact NameSupply.isWord_nameOf t number

end Block

/-! ### Bound values -/

namespace Reading

/-- The text of a statement that binds a variable, given what its value reads. -/
def boundText (s : Scope) (v : Variable) (x : Reading) : String :=
  v.type.nameIn s ++ " " ++ v.name ++ " = " ++ x.text s ++ ";"

section

variable {s : Scope} {known : ClassName → Prop}

/-- A variable is told by its declaration, and so is what its value reads. -/
theorem eq_of_boundText_eq (hs : s.Tells known) {v w : Variable} {x y : Reading}
    (hvtype : v.type.Knows known) (hwtype : w.type.Knows known)
    (hvname : Text.IsWord v.name.toList) (hwname : Text.IsWord w.name.toList)
    (hx : x.Legible known) (hy : y.Legible known) (h : boundText s v x = boundText s w y) :
    v = w ∧ x = y := by
  have hgroup (v : Variable) (x : Reading) :
      (boundText s v x).toList =
        (v.type.nameIn s).toList ++ [' '] ++ v.name.toList ++ [' '] ++ ['=', ' '] ++
          (x.text s).toList ++ [';'] := by
    simp [boundText]
  have hcharacters := congrArg String.toList h
  rw [hgroup, hgroup] at hcharacters
  obtain ⟨rfl, hdeclared⟩ := hx.told hs y _ _ hy (.equals _) (.equals _)
    (List.append_cancel_right hcharacters)
  have hspace (front : List Char) : ∀ c ∈ (front ++ [' ']).getLast?, ¬ c ∉ Text.marks := by
    rw [List.getLast?_concat]
    rintro c ⟨⟩
    decide
  obtain ⟨htype, hname⟩ := eq_of_append_eq (· ∉ Text.marks) hvname.unmarked hwname.unmarked
    (hspace _) (hspace _) (List.append_cancel_right (List.append_cancel_right hdeclared))
  have htypes := hs.eq_of_nameIn_eq hvtype hwtype
    (String.toList_injective (List.append_cancel_right htype))
  obtain ⟨name, type⟩ := v
  obtain ⟨name', type'⟩ := w
  obtain rfl : name = name' := String.toList_injective hname
  obtain rfl : type = type' := htypes
  exact ⟨rfl, rfl⟩

/-- The declarations of several variables tell these and what their values read. -/
theorem eq_of_boundTexts_eq (hs : s.Tells known) {vs ws : List Variable} {xs ys : List Reading}
    (hvs : ∀ v ∈ vs, v.type.Knows known ∧ Text.IsWord v.name.toList)
    (hws : ∀ w ∈ ws, w.type.Knows known ∧ Text.IsWord w.name.toList)
    (hxs : ∀ x ∈ xs, x.Legible known) (hys : ∀ y ∈ ys, y.Legible known)
    (hvlength : vs.length = xs.length) (hwlength : ws.length = ys.length)
    (h : List.zipWith (boundText s) vs xs = List.zipWith (boundText s) ws ys) :
    vs = ws ∧ xs = ys := by
  induction vs generalizing ws xs ys with
  | nil =>
    obtain rfl := List.eq_nil_of_length_eq_zero hvlength.symm
    cases ws with
    | nil => exact ⟨rfl, (List.eq_nil_of_length_eq_zero hwlength.symm).symm⟩
    | cons w ws =>
      obtain ⟨y, ys, rfl⟩ := List.exists_cons_of_length_eq_add_one hwlength.symm
      cases h
  | cons v vs ih =>
    obtain ⟨x, xs, rfl⟩ := List.exists_cons_of_length_eq_add_one hvlength.symm
    rw [List.zipWith_cons_cons] at h
    cases ws with
    | nil => cases h
    | cons w ws =>
      obtain ⟨y, ys, rfl⟩ := List.exists_cons_of_length_eq_add_one hwlength.symm
      obtain ⟨hfirst, hrest⟩ := List.cons.inj h
      rw [List.forall_mem_cons] at hvs hws hxs hys
      obtain ⟨rfl, rfl⟩ := eq_of_boundText_eq hs hvs.1.1 hws.1.1 hvs.1.2 hws.1.2 hxs.1 hys.1 hfirst
      obtain ⟨rfl, rfl⟩ := ih hvs.2 hws.2 hxs.2 hys.2 (Nat.succ.inj hvlength)
        (Nat.succ.inj hwlength) hrest
      exact ⟨rfl, rfl⟩

end

end Reading

/-- The text of a bound value is that of what it reads. -/
theorem Statement.text_bind (s : Scope) (v : Variable) (e : Expression) :
    (bind v e).text s = Reading.boundText s v e.reading := by
  rw [text, Reading.boundText, Expression.text_reading]

/-! ### The last statement -/

namespace Callee

/-- What is called on variables of the names, up to the arguments. -/
def called (s : Scope) (names : List String) : Callee → List Char
  | construct c => ['n', 'e', 'w', ' '] ++ (c.nameIn s).toList
  | static c method => (c.nameIn s).toList ++ '.' :: method.toList
  | member method => (names.headD "").toList ++ '.' :: method.toList

/-- The names in the parentheses. -/
def listed (names : List String) : Callee → List String
  | member _ => names.tail
  | _ => names

/-- The text of a call on variables. -/
theorem toList_text_reading (s : Scope) {callee : Callee} {names : List String}
    (h : names = [] → ∀ method, callee ≠ .member method) :
    ((callee.reading (names.map .name)).text s).toList =
      callee.called s names ++
        '(' :: ((", ".intercalate (callee.listed names)).toList ++ [')']) := by
  have htexts (names : List String) : Reading.texts s (names.map .name) = names := by
    induction names with
    | nil => rw [List.map_nil, Reading.texts]
    | cons name names ih => rw [List.map_cons, Reading.texts, Reading.text, ih]
  cases callee with
  | construct c =>
    rw [reading, Reading.text, htexts]
    simp [called, listed, Reading.applied]
  | static c method =>
    rw [reading, Reading.text, htexts]
    simp [called, listed, Reading.applied]
  | member method =>
    cases names with
    | nil => exact absurd rfl (h rfl method)
    | cons name names =>
      rw [List.map_cons, reading, Reading.text, Reading.text, htexts]
      simp [called, listed, Reading.applied, Reading.asReceiver]

end Callee

namespace Block

variable {k : Catalog} {s : Scope} {known : ClassName → Prop} {op op' : Operation}

/-- The names of the variables for the slots of an operation. -/
def localNames (k : Catalog) (op : Operation) : List String :=
  (locals op (k.implicit? op)).map Variable.name

theorem isWord_of_mem_localNames {name : String} (h : name ∈ localNames k op) :
    Text.IsWord name.toList := by
  obtain ⟨v, hv, rfl⟩ := List.mem_map.mp h
  exact isWord_name_of_mem_variablesFrom hv

/-- A method with a receiver has a variable for it. -/
theorem localNames_ne_nil (hmember : op.owner.isMember = false) {method : String}
    (h : op.callee = .member method) : localNames k op ≠ [] := by
  have himplicit := k.implicit?_eq hmember
  rw [h] at himplicit
  simp [localNames, locals, variablesFrom, slotTypes, himplicit]

/-- An instance is called on one variable less than its class would be. -/
theorem intercalate_tail_localNames_ne (hmember : op.owner.isMember = false) {method : String}
    (h : op.callee = .member method) :
    (", ".intercalate (localNames k op).tail).toList ≠
      (", ".intercalate (localNames k op)).toList := by
  obtain ⟨name, names, hcons⟩ := List.exists_cons_of_ne_nil (localNames_ne_nil (k := k) hmember h)
  have hname : name ∈ localNames k op := by rw [hcons]; exact List.mem_cons_self
  have hpos := List.length_pos_iff.mpr (isWord_of_mem_localNames hname).ne_nil
  intro hsame
  have hlength := congrArg List.length hsame
  rw [hcons, List.tail_cons] at hlength
  cases names with
  | nil =>
    simp at hlength hpos
    omega
  | cons next names =>
    simp [String.intercalate_cons_cons] at hlength
    omega

/-- The text of the last statement up to the arguments. -/
def lastFront (k : Catalog) (s : Scope) (op : Operation) : List Char :=
  (if op.isConstructor then
      (op.result.nameIn s).toList ++ ' ' :: (resultVariable op (k.implicit? op)).name.toList ++
        [' ', '=', ' ']
    else []) ++ op.callee.called s (localNames k op)

theorem toList_text_lastStatement (s : Scope) (hmember : op.owner.isMember = false) :
    ((lastStatement op (k.implicit? op)).text s).toList =
      lastFront k s op ++
        '(' :: ((", ".intercalate (op.callee.listed (localNames k op))).toList ++ [')', ';']) := by
  have hplans : (k.implicit? op).isSome = true →
      (locals op (k.implicit? op)).map Expression.var ≠ [] := by
    intro hsome
    obtain ⟨i, hi⟩ := Option.isSome_iff_exists.mp hsome
    simp [locals, variablesFrom, slotTypes, hi]
  have hreadings : ((locals op (k.implicit? op)).map Expression.var).map Expression.reading =
      (localNames k op).map .name := by
    simp [localNames, Function.comp_def, Expression.reading]
  have hcall : (((Assembly.callOn op (k.implicit? op)
      ((locals op (k.implicit? op)).map .var)).text s)).toList =
      op.callee.called s (localNames k op) ++
        '(' :: ((", ".intercalate (op.callee.listed (localNames k op))).toList ++ [')']) := by
    rw [← Expression.text_reading, k.reading_callOn hmember hplans, hreadings,
      Callee.toList_text_reading]
    exact fun hnil method hcallee => localNames_ne_nil hmember hcallee hnil
  rw [lastStatement, lastFront]
  split_ifs <;> simp [Statement.text, resultVariable, hcall]

/-- What a method is called on and its name are words with dots between them. -/
theorem inPath_lastFront (hs : s.Tells known) (howner : known op.owner)
    (hmember : op.owner.isMember = false) (hmethod : op.isConstructor = false)
    (hword : Text.IsWord op.name.toList) : ∀ c ∈ lastFront k s op, Text.InPath c := by
  rw [lastFront, hmethod]
  rcases op.callee_cases with ⟨hconstructor, -⟩ | ⟨-, -, hcallee⟩ | ⟨-, -, hcallee⟩
  · exact absurd (hconstructor.symm.trans hmethod) (by decide)
  · rw [hcallee]
    exact ((hs.isPath _ howner).append_word hword).inPath
  · obtain ⟨name, names, hnames⟩ :=
      List.exists_cons_of_ne_nil (localNames_ne_nil (k := k) hmember hcallee)
    have hmem : name ∈ localNames k op := by rw [hnames]; exact List.mem_cons_self
    have hname := isWord_of_mem_localNames hmem
    rw [hcallee, hnames]
    exact (hname.isPath.append_word hword).inPath

/-- The arguments start at the first bracket. -/
theorem bracket_notMem_lastFront (hs : s.Tells known) (howner : known op.owner)
    (hmember : op.owner.isMember = false)
    (hword : op.isConstructor = false → Text.IsWord op.name.toList) : '(' ∉ lastFront k s op := by
  have hmark {cs : List Char} (h : ∀ c ∈ cs, Text.InPath c) : '(' ∉ cs :=
    fun hmem => Text.not_inPath (by decide) (by decide) (h _ hmem)
  rcases op.callee_cases with ⟨hconstructor, hcallee⟩ | ⟨hmethod, -⟩ | ⟨hmethod, -⟩
  · have hclass := hmark (hs.isPath _ howner).inPath
    have hname := hmark (NameSupply.isWord_nameOf op.result
      ((slotTypes op (k.implicit? op)).length + 1)).inPath
    have hresult : op.result.nameIn s = op.owner.nameIn s := by
      rw [Operation.result_eq_owner hconstructor, TypeExpr.nameIn]
    simp [lastFront, hconstructor, hcallee, Callee.called, resultVariable, hresult, hclass, hname]
  · exact hmark (inPath_lastFront hs howner hmember hmethod (hword hmethod))
  · exact hmark (inPath_lastFront hs howner hmember hmethod (hword hmethod))

/-- Only instances that are made are bound to a variable. -/
theorem space_mem_lastFront_iff (hs : s.Tells known) (howner : known op.owner)
    (hmember : op.owner.isMember = false)
    (hword : op.isConstructor = false → Text.IsWord op.name.toList) :
    ' ' ∈ lastFront k s op ↔ op.isConstructor = true := by
  cases hconstructor : op.isConstructor with
  | true => simp [lastFront, hconstructor]
  | false =>
    have hpath := inPath_lastFront (k := k) hs howner hmember hconstructor (hword hconstructor)
    simpa using fun hmem => Text.not_inPath (by decide) (by decide) (hpath ' ' hmem)

/-- The text of the last statement is cut in front of the arguments. -/
theorem cut_text_lastStatement (hs : s.Tells known) (howner : known op.owner)
    (howner' : known op'.owner) (hmember : op.owner.isMember = false)
    (hmember' : op'.owner.isMember = false)
    (hword : op.isConstructor = false → Text.IsWord op.name.toList)
    (hword' : op'.isConstructor = false → Text.IsWord op'.name.toList)
    (h : (lastStatement op (k.implicit? op)).text s =
      (lastStatement op' (k.implicit? op')).text s) :
    lastFront k s op = lastFront k s op' ∧
      (", ".intercalate (op.callee.listed (localNames k op))).toList =
        (", ".intercalate (op'.callee.listed (localNames k op'))).toList := by
  have hcharacters := congrArg String.toList h
  rw [toList_text_lastStatement s hmember, toList_text_lastStatement s hmember'] at hcharacters
  obtain ⟨hfront, harguments⟩ := eq_of_append_cons_eq
    (bracket_notMem_lastFront hs howner hmember hword)
    (bracket_notMem_lastFront hs howner' hmember' hword') hcharacters
  exact ⟨hfront, List.append_cancel_right harguments⟩

/-- The text of the last statement tells **what is called**, among the operations of a class. -/
theorem callee_eq_of_text_lastStatement_eq (hs : s.Tells known) (howner : known op.owner)
    (hmember : op.owner.isMember = false) (hsame : op'.owner = op.owner)
    (hword : op.isConstructor = false → Text.IsWord op.name.toList)
    (hword' : op'.isConstructor = false → Text.IsWord op'.name.toList)
    (hlocals : locals op (k.implicit? op) = locals op' (k.implicit? op'))
    (h : (lastStatement op (k.implicit? op)).text s =
      (lastStatement op' (k.implicit? op')).text s) :
    op.callee = op'.callee := by
  have howner' : known op'.owner := by rwa [hsame]
  have hmember' : op'.owner.isMember = false := by rwa [hsame]
  have hnames : localNames k op = localNames k op' := by rw [localNames, hlocals, localNames]
  obtain ⟨hfront, hlisted⟩ :=
    cut_text_lastStatement hs howner howner' hmember hmember' hword hword' h
  have hkind : op.isConstructor = op'.isConstructor := by
    rw [Bool.eq_iff_iff, ← space_mem_lastFront_iff (k := k) hs howner hmember hword,
      ← space_mem_lastFront_iff (k := k) hs howner' hmember' hword', hfront]
  rw [lastFront, lastFront, hkind] at hfront
  rw [hnames] at hfront hlisted
  rcases op.callee_cases with
    ⟨hconstructor, hcallee⟩ | ⟨hmethod, -, hcallee⟩ | ⟨hmethod, -, hcallee⟩ <;>
  rcases op'.callee_cases with
    ⟨hconstructor', hcallee'⟩ | ⟨hmethod', -, hcallee'⟩ | ⟨hmethod', -, hcallee'⟩
  · rw [hcallee, hcallee', hsame]
  · exact absurd (hconstructor.symm.trans (hkind.trans hmethod')) (by decide)
  · exact absurd (hconstructor.symm.trans (hkind.trans hmethod')) (by decide)
  · exact absurd (hmethod.symm.trans (hkind.trans hconstructor')) (by decide)
  · rw [hcallee, hcallee', hmethod', hsame] at hfront
    obtain ⟨-, hname⟩ := List.cons.inj (List.append_cancel_left hfront)
    rw [hcallee, hcallee', hsame, String.toList_injective hname]
  · rw [hcallee, hcallee'] at hlisted
    exact absurd hlisted.symm (intercalate_tail_localNames_ne hmember' hcallee')
  · exact absurd (hmethod.symm.trans (hkind.trans hconstructor')) (by decide)
  · rw [hcallee, hcallee', ← hnames] at hlisted
    exact absurd hlisted (intercalate_tail_localNames_ne hmember hcallee)
  · rw [hcallee, hcallee', hmethod'] at hfront
    obtain ⟨-, hname⟩ := List.cons.inj (List.append_cancel_left hfront)
    rw [hcallee, hcallee', String.toList_injective hname]

/-! ### All statements -/

/-- The texts of the statements of a block are made of what the plans read. -/
theorem texts_body (s : Scope) (op : Operation) (implicit : Option Implicit)
    (plans : List Expression) :
    (body op implicit plans).map (Statement.text s) =
      List.zipWith (Reading.boundText s) (locals op implicit) (plans.map Expression.reading) ++
        [(lastStatement op implicit).text s] := by
  rw [body, List.map_append, List.map_zipWith, List.zipWith_map_right]
  simp only [Statement.text_bind, List.map_cons, List.map_nil]

/-- What the values of the statements read. -/
def readings (b : Block) : List Reading := b.statements.map fun statement => statement.value.reading

theorem readings_body {op : Operation} {implicit : Option Implicit} {plans : List Expression}
    (hlength : plans.length = (slotTypes op implicit).length) :
    (body op implicit plans).map (fun statement => statement.value.reading) =
      plans.map Expression.reading ++ [(lastStatement op implicit).value.reading] := by
  have hlocals : (locals op implicit).length = plans.length := by
    rw [length_locals, hlength]
  have hvalues : ((locals op implicit).zip plans).map (Expression.reading ∘ Prod.snd) =
      plans.map Expression.reading := by
    rw [← List.map_map, List.map_snd_zip hlocals.ge]
  rw [body, List.map_append, List.map_zipWith, List.map_singleton, ← hvalues,
    ← List.map_uncurry_zip_eq_zipWith]
  rfl

end Block

end CallPlan

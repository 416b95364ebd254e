import CallPlan.Proofs.PlanTree

/-!
# What source text says

The text of a call names the method that is called, and the class only if there is no instance to
call it on. Which of several methods with that name is meant does not show. `Expression.reading`
keeps of an expression what its text is made of, so expressions with the same reading have the same
text (`Expression.text_reading`). What the reading of a call says of its operation is the
operation's `Callee` (`Catalog.reading_callOn`).
-/

namespace CallPlan

/-- What the source text of an expression says. -/
inductive Reading where
  | literal (l : Literal)
  /-- A variable. -/
  | name (word : String)
  | construct (c : ClassName) (arguments : List Reading)
  /-- The construction of an inner member type. -/
  | inner (outer : Reading) (simpleName : String) (arguments : List Reading)
  | static (c : ClassName) (method : String) (arguments : List Reading)
  /-- The call of a method on an instance. -/
  | member (receiver : Reading) (method : String) (arguments : List Reading)
  | array (component : TypeExpr) (components : List Reading)

namespace Reading

/-- The text in front of a member access. -/
def asReceiver (x : Reading) (text : String) : String :=
  match x with
  | literal l => if l.hasCast then "(" ++ text ++ ")" else text
  | _ => text

/-- The arguments of a call, given their texts. -/
def applied (arguments : List String) : String := "(" ++ ", ".intercalate arguments ++ ")"

mutual

/-- The source text in a scope. -/
def text (s : Scope) : Reading → String
  | literal l => l.text s
  | name word => word
  | construct c arguments => "new " ++ c.nameIn s ++ applied (texts s arguments)
  | inner outer simpleName arguments =>
    outer.asReceiver (outer.text s) ++ ".new " ++ simpleName ++ applied (texts s arguments)
  | static c method arguments => c.nameIn s ++ "." ++ method ++ applied (texts s arguments)
  | member receiver method arguments =>
    receiver.asReceiver (receiver.text s) ++ "." ++ method ++ applied (texts s arguments)
  | array component components =>
    "new " ++ component.nameIn s ++ "[]\x7b" ++ ", ".intercalate (texts s components) ++ "\x7d"

/-- The texts of several readings. -/
def texts (s : Scope) : List Reading → List String
  | [] => []
  | x :: xs => x.text s :: texts s xs

end

theorem texts_eq_map (s : Scope) (xs : List Reading) : texts s xs = xs.map (text s) := by
  induction xs with
  | nil => rw [texts, List.map_nil]
  | cons x xs ih => rw [texts, List.map_cons, ih]

end Reading

namespace Expression

/-- What the text of a call says, given what those of its parts do. -/
def callReading (op : Operation) (implicit : Option Reading) (arguments : List Reading) : Reading :=
  match op.kind, implicit with
  | .constructor, none => .construct op.owner arguments
  | .constructor, some outer => .inner outer op.owner.simpleName arguments
  | .method name _ _ _, none => .static op.owner name arguments
  | .method name _ _ _, some receiver => .member receiver name arguments

mutual

/-- What the source text of the expression says. -/
def reading : Expression → Reading
  | literal l => .literal l
  | var v => .name v.name
  | call op implicit arguments => callReading op (implicitReading implicit) (readings arguments)
  | array component components => .array component (readings components)

/-- The reading of an implicit argument, if there is one. -/
def implicitReading : Option Expression → Option Reading
  | none => none
  | some e => some e.reading

/-- The readings of several expressions. -/
def readings : List Expression → List Reading
  | [] => []
  | e :: es => e.reading :: readings es

end

theorem readings_eq_map (es : List Expression) : readings es = es.map reading := by
  induction es with
  | nil => rw [readings, List.map_nil]
  | cons e es ih => rw [readings, List.map_cons, ih]

/-- In front of a member access, a reading stands in parentheses where its expression does. -/
theorem asReceiver_reading (e : Expression) (text : String) :
    e.reading.asReceiver text = e.asReceiver text := by
  cases e with
  | literal l => rfl
  | var v => rfl
  | call op implicit arguments =>
    rw [reading]
    unfold callReading
    split <;> rfl
  | array component components =>
    rw [reading]
    rfl

/-- What is read of a call has the text of the call. -/
theorem text_callReading (s : Scope) (op : Operation) (implicit : Option Reading)
    (arguments : List Reading) :
    (callReading op implicit arguments).text s =
      callText s op (implicit.map fun x => x.asReceiver (x.text s))
        (Reading.texts s arguments) := by
  unfold callReading callText
  cases op.kind <;> cases implicit <;> rw [Reading.text] <;> rfl

mutual

/-- A reading has the text of the expressions that it is the reading of. -/
theorem text_reading (s : Scope) : ∀ e : Expression, e.reading.text s = e.text s
  | literal l => by rw [reading, Reading.text, text]
  | var v => by rw [reading, Reading.text, text]
  | call op implicit arguments => by
    rw [reading, text, text_callReading, map_implicitReading s implicit,
      texts_readings s arguments]
  | array component components => by
    rw [reading, Reading.text, text, texts_readings s components]

/-- The part of `text_reading` for implicit arguments. -/
theorem map_implicitReading (s : Scope) : ∀ implicit : Option Expression,
    (implicitReading implicit).map (fun x => x.asReceiver (x.text s)) = implicitText s implicit
  | none => by rw [implicitReading, implicitText, Option.map_none]
  | some e => by
    rw [implicitReading, implicitText, Option.map_some, asReceiver_reading, text_reading s e]

/-- The part of `text_reading` for lists of expressions. -/
theorem texts_readings (s : Scope) : ∀ es : List Expression,
    Reading.texts s (readings es) = texts s es
  | [] => by rw [readings, Reading.texts, texts]
  | e :: es => by rw [readings, Reading.texts, texts, text_reading s e, texts_readings s es]

end

end Expression

/-! ### Callees -/

/-- What the text of a call says of the operation. -/
inductive Callee where
  | construct (c : ClassName)
  | static (c : ClassName) (method : String)
  | member (method : String)
deriving DecidableEq, Repr

/-- What the text of a call of the operation says of it, if it is not the constructor of an inner
member type. -/
def Operation.callee (op : Operation) : Callee :=
  match op.kind with
  | .constructor => .construct op.owner
  | .method name _ isStatic _ => if isStatic then .static op.owner name else .member name

/-- The reading of a call, given those of the plans for all slots. -/
def Callee.reading : Callee → List Reading → Reading
  | construct c, xs => .construct c xs
  | static c method, xs => .static c method xs
  | member method, receiver :: xs => .member receiver method xs
  | member method, [] => .name method

/-- Constructors, static methods and other methods are each called in a way of their own. -/
theorem Operation.callee_cases (op : Operation) :
    (op.isConstructor = true ∧ op.callee = .construct op.owner) ∨
      (op.isConstructor = false ∧ op.isStatic = true ∧ op.callee = .static op.owner op.name) ∨
      (op.isConstructor = false ∧ op.isStatic = false ∧ op.callee = .member op.name) := by
  obtain ⟨owner, kind, parameters, access, failures⟩ := op
  cases kind with
  | constructor => simp [callee, isConstructor]
  | method name result isStatic isAbstract =>
    cases isStatic <;> simp [callee, isConstructor, Operation.isStatic, Operation.name]

/-- The reading of a call tells the callee and the arguments. -/
theorem Callee.eq_of_reading_eq {callee callee' : Callee} {xs ys : List Reading}
    (h : callee.reading xs = callee'.reading ys) : callee = callee' ∧ xs = ys := by
  cases callee <;> cases callee' <;> cases xs <;> cases ys <;> simp_all [reading]

theorem Callee.reading_ne_literal (callee : Callee) (xs : List Reading) (l : Literal) :
    callee.reading xs ≠ .literal l := by
  cases callee <;> cases xs <;> simp [reading]

theorem Callee.reading_ne_array (callee : Callee) (xs ys : List Reading) (component : TypeExpr) :
    callee.reading xs ≠ .array component ys := by
  cases callee <;> cases xs <;> simp [reading]

/-- The name that operations of the callee go by. -/
def Callee.name : Callee → String
  | construct _ => Operation.initializerName
  | static _ method | member method => method

@[simp]
theorem Operation.name_callee (op : Operation) : op.callee.name = op.name := by
  obtain ⟨owner, kind, parameters, access, failures⟩ := op
  cases kind with
  | constructor => rfl
  | method name result isStatic isAbstract => cases isStatic <;> rfl

/-- The implicit argument of an operation that constructs no inner member type. -/
theorem Catalog.implicit?_eq (k : Catalog) {op : Operation} (h : op.owner.isMember = false) :
    k.implicit? op =
      match op.callee with
      | .member _ => some (.receiver op.owner)
      | _ => none := by
  have henclosing : op.owner.enclosing? = none := by simp [ClassName.enclosing?, h]
  rcases op.callee_cases with
    ⟨hconstructor, hcallee⟩ | ⟨hmethod, hstatic, hcallee⟩ | ⟨hmethod, hstatic, hcallee⟩
  · rw [implicit?, if_pos hconstructor, henclosing, hcallee]
    split <;> rfl
  · simp [implicit?, hmethod, hstatic, hcallee]
  · simp [implicit?, hmethod, hstatic, hcallee]

namespace Expression

variable {op : Operation} {arguments : List Reading}

/-- Without an implicit argument, a call reads as what is called with the arguments. -/
theorem callReading_none (h : ∀ method, op.callee ≠ .member method) :
    callReading op none arguments = op.callee.reading arguments := by
  obtain ⟨owner, kind, parameters, access, failures⟩ := op
  cases kind with
  | constructor => rfl
  | method name result isStatic isAbstract =>
    cases isStatic with
    | true => rfl
    | false => exact absurd rfl (h name)

/-- An implicit argument stands in front of the others. -/
theorem callReading_some {method : String} (h : op.callee = .member method) (receiver : Reading) :
    callReading op (some receiver) arguments = op.callee.reading (receiver :: arguments) := by
  obtain ⟨owner, kind, parameters, access, failures⟩ := op
  cases kind with
  | constructor => cases h
  | method name result isStatic isAbstract =>
    cases isStatic with
    | true => cases h
    | false => rfl

end Expression

namespace Expression

/-- Only a literal reads as a literal. -/
theorem eq_literal_of_reading_eq {e : Expression} {l : Literal} (h : e.reading = .literal l) :
    e = .literal l := by
  cases e with
  | literal m =>
    rw [reading] at h
    rw [Reading.literal.inj h]
  | var | array =>
    rw [reading] at h
    cases h
  | call op implicit arguments =>
    rw [reading] at h
    unfold callReading at h
    split at h <;> cases h

/-- Only an array reads as an array. -/
theorem exists_eq_array_of_reading_eq {e : Expression} {component : TypeExpr} {xs : List Reading}
    (h : e.reading = .array component xs) :
    ∃ es, e = .array component es ∧ es.map reading = xs := by
  cases e with
  | literal | var =>
    rw [reading] at h
    cases h
  | array other components =>
    rw [reading] at h
    obtain ⟨rfl, rfl⟩ := Reading.array.inj h
    exact ⟨components, rfl, (readings_eq_map components).symm⟩
  | call op implicit arguments =>
    rw [reading] at h
    unfold callReading at h
    split at h <;> cases h

end Expression

/-- The reading of the call of an operation on plans for all its slots. -/
theorem Catalog.reading_callOn (k : Catalog) {op : Operation} (h : op.owner.isMember = false)
    {plans : List Expression} (hplans : (k.implicit? op).isSome = true → plans ≠ []) :
    (Assembly.callOn op (k.implicit? op) plans).reading =
      op.callee.reading (plans.map Expression.reading) := by
  have himplicit := k.implicit?_eq h
  split at himplicit
  · rename_i method hcallee
    obtain ⟨receiver, rest, rfl⟩ := List.exists_cons_of_ne_nil (hplans (by simp [himplicit]))
    rw [himplicit, Assembly.callOn, Assembly.split, Expression.reading,
      Expression.implicitReading, Expression.readings_eq_map, Expression.callReading_some hcallee,
      List.map_cons]
  · rename_i hcallee
    have hcall : Assembly.callOn op none plans = .call op none plans := rfl
    rw [himplicit, hcall, Expression.reading, Expression.implicitReading,
      Expression.readings_eq_map, Expression.callReading_none hcallee]

end CallPlan

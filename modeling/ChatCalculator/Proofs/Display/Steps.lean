import ChatCalculator.Proofs.Display.Failure

/-!
# Operations step by step

An operation changes one field of a display after the other, and between two changes something may
fail. Nothing is taken back then: the display stays as the steps up to the failure have left it.
Here each operation is the sequence of its steps, and what a failure leaves behind is read off
them.

That a failed operation changes nothing is therefore a matter of order, not of the way in which
operations are written down elsewhere. Keys are translated before any of them is appended, the
result that is shown is written as text before the display starts with it, and an expression is
solved and its value rounded before a result is stored. One operation deviates. An expression that
is entered takes the place of the old one before its value is rounded, so if the rounding fails, the
new expression stays, next to a result that is not its own.

## Main definitions

* `Steps`, `Steps.after`, `Steps.failure?`: steps on a display, and how they end
* `Operation.steps`: the steps of an operation
* `LeftBehind`: what a failure leaves behind

## Main results

* `Operation.run_steps`: the steps of an operation amount to the operation
* `leftBehind_of_perform`: what each operation leaves behind when it fails
* `steps_frame`: that, and which fields an operation can change at all
-/

namespace ChatCalculator

namespace Display

/-- Steps on a display. They end with an answer or with a failure, and in both cases with the
display that they have come to. -/
abbrev Steps (α : Type) := EStateM Failure Display α

namespace Steps

/-- The display that steps leave behind, whether they fail or not. -/
def after {α : Type} (steps : Steps α) (d : Display) : Display :=
  match steps.run d with
  | .ok _ d' => d'
  | .error _ d' => d'

/-- Why steps fail, if they do. -/
def failure? {α : Type} (steps : Steps α) (d : Display) : Option Failure :=
  match steps.run d with
  | .ok _ _ => none
  | .error failure _ => some failure

/-- Starts over with the same characters as expression and as text. -/
def startWith (initial : List Char) : Steps Unit := do
  modify fun d => { d with expression := initial }
  modify fun d => { d with text := initial }
  modify fun d => { d with shown := false }

/-- Appends a key. -/
def append (key : Char) : Steps Unit := do
  modify fun d => { d with expression := d.expression ++ [key] }
  modify fun d => { d with text := d.text ++ [keyLabel key] }

/-- Starts over if a result is shown. -/
def resume : Steps Unit := do
  let d ← get
  if d.shown then
    if d.result.isFinite then
      let text ← ofExcept ((resultText d.result d.precision).mapError .result)
      startWith text
    else
      startWith []

/-- Presses keys: translates all of them, then appends one after the other. -/
def press (pressed : List Char) : Steps Unit := do
  let values ← ofExcept (pressedKeys pressed)
  resume
  values.forM append

/-- Deletes the last key. -/
def backspace : Steps Unit := do
  modify fun d => { d with shown := false }
  modify fun d => { d with expression := d.expression.dropLast }
  modify fun d => { d with text := d.text.dropLast }

/-- Rounds a value, stores it and shows it. -/
def answer (value : Binary64) : Steps Binary64 := do
  let d ← get
  let result ← ofExcept ((roundedResult value d.precision).mapError .result)
  modify fun d => { d with result := result }
  modify fun d => { d with shown := true }
  return result

/-- Solves the expression and shows its result. -/
def evaluate : Steps Binary64 := do
  let d ← get
  let value ← ofExcept (solve d.expression)
  answer value

/-- Solves an expression, replaces the old one by it and shows its result. -/
def enter (entered : List Char) : Steps Binary64 := do
  let expression := entered.map labelKey
  let value ← ofExcept (solve expression)
  modify fun d => { d with expression := expression }
  modify fun d => { d with text := expression.map keyLabel }
  answer value

end Steps

/-- The steps of an operation, which end with the result if the operation answers with it. -/
def Operation.steps : Operation → Steps (Option Binary64)
  | .press pressed => do
    Steps.press pressed
    return none
  | .enter entered => do
    let result ← Steps.enter entered
    return some result
  | .evaluate => do
    let result ← Steps.evaluate
    return some result
  | .backspace => do
    Steps.backspace
    return none
  | .clear => do
    Steps.startWith []
    return none

/-! ### What the steps amount to -/

/-- How steps end with an outcome of an operation: with the answer to it, or with its failure. -/
def ending {α : Type} (answer : Display → α) :
    Display × Option Failure → EStateM.Result Failure Display α
  | (d, none) => .ok (answer d) d
  | (d, some failure) => .error failure d

namespace Steps

/-- Keys that are appended one after the other. -/
theorem run_forM_append (values : List Char) (d : Display) :
    (values.forM append).run d = .ok () { d with
      expression := d.expression ++ values
      text := d.text ++ values.map keyLabel } := by
  induction values generalizing d with
  | nil => simp [List.forM, pure, EStateM.pure, EStateM.run]
  | cons key values ih =>
    refine (ih _).trans ?_
    simp

theorem run_resume (d : Display) :
    resume.run d = ending (fun _ => ()) (d.orStay (d.resume.mapError .result)) := by
  rw [resume, Display.resume]
  simp only [EStateM.run_bind, EStateM.run_get]
  split
  · split
    · cases resultText d.result d.precision with
      | error fault => rfl
      | ok text => rfl
    · rfl
  · rfl

theorem run_press (pressed : List Char) (d : Display) :
    (press pressed).run d = ending (fun _ => ()) (d.orStay (d.press pressed)) := by
  rw [Display.press, press]
  cases hkeys : pressedKeys pressed with
  | error failure => rfl
  | ok values =>
    simp only [ofExcept, EStateM.run_bind, EStateM.run_pure, run_resume]
    cases d.resume with
    | error fault => rfl
    | ok start => exact run_forM_append values start

theorem run_answer (value : Binary64) (d : Display) :
    (answer value).run d = ending Display.result (d.orStay (d.showValue value)) := by
  rw [showValue, answer]
  simp only [EStateM.run_bind, EStateM.run_get]
  cases roundedResult value d.precision with
  | error fault => rfl
  | ok result => rfl

theorem run_evaluate (d : Display) :
    evaluate.run d = ending Display.result (d.orStay d.evaluate) := by
  rw [Display.evaluate, evaluate]
  simp only [EStateM.run_bind, EStateM.run_get]
  cases solve d.expression with
  | error failure => rfl
  | ok value => exact run_answer value d

theorem run_enter (entered : List Char) (d : Display) :
    (enter entered).run d = ending Display.result (d.enter entered) := by
  rw [Display.enter, enter]
  cases hsolve : solve (entered.map labelKey) with
  | error failure => rfl
  | ok value =>
    refine (run_answer value _).trans ?_
    dsimp only
    split
    · rename_i failure hshow
      rw [hshow]
      rfl
    · rename_i showing hshow
      rw [hshow]
      rfl

end Steps

/-- **The steps of an operation amount to the operation.** -/
theorem Operation.run_steps (operation : Operation) (d : Display) :
    operation.steps.run d =
      ending (fun d' => if operation.answers then some d'.result else none)
        (d.perform operation) := by
  cases operation with
  | press pressed =>
    rw [steps, perform, EStateM.run_bind, Steps.run_press]
    rcases d.orStay (d.press pressed) with ⟨d', _ | failure⟩ <;> rfl
  | enter entered =>
    rw [steps, perform, EStateM.run_bind, Steps.run_enter]
    rcases d.enter entered with ⟨d', _ | failure⟩ <;> rfl
  | evaluate =>
    rw [steps, perform, EStateM.run_bind, Steps.run_evaluate]
    rcases d.orStay d.evaluate with ⟨d', _ | failure⟩ <;> rfl
  | backspace => rfl
  | clear => rfl

/-- The display and the failure that an operation leaves behind are those of its steps. -/
theorem Operation.perform_eq_steps (operation : Operation) (d : Display) :
    d.perform operation = (operation.steps.after d, operation.steps.failure? d) := by
  rw [Steps.after, Steps.failure?, operation.run_steps]
  rcases d.perform operation with ⟨d', _ | failure⟩ <;> rfl

/-! ### What a failure leaves behind -/

/-- **What a failure leaves behind.** Deleting keys does not fail. -/
inductive LeftBehind (d : Display) : Operation → Failure → Display → Prop
  /-- Keys that cannot be pressed change nothing. -/
  | press {pressed : List Char} {failure : Failure} : LeftBehind d (.press pressed) failure d
  /-- Neither does an expression that has no result. -/
  | evaluate {failure : Failure} : LeftBehind d .evaluate failure d
  /-- An expression that is entered and has no value changes nothing. -/
  | unsolved {entered : List Char} {failure : Failure}
      (hsolve : solve (entered.map labelKey) = .error failure) :
      LeftBehind d (.enter entered) failure d
  /-- One that has a value which cannot be rounded is there, and its text, but no result of it. -/
  | unrounded {entered : List Char} {value : Binary64}
      (hsolve : solve (entered.map labelKey) = .ok value)
      (hround : roundedResult value d.precision = .error .overflow) (hprecision : d.precision < 0) :
      LeftBehind d (.enter entered) (.result .overflow) { d with
        expression := entered.map labelKey
        text := (entered.map labelKey).map keyLabel }

variable {d d' : Display} {operation : Operation} {failure : Failure}

theorem showValue_eq_error_iff {value : Binary64} :
    d.showValue value = .error failure ↔
      ∃ fault, roundedResult value d.precision = .error fault ∧ failure = .result fault := by
  rw [showValue]
  cases roundedResult value d.precision with
  | error fault => simp [eq_comm]
  | ok result => simp

theorem leftBehind_of_enter {entered : List Char} (h : d.enter entered = (d', some failure)) :
    LeftBehind d (.enter entered) failure d' := by
  rw [enter] at h
  dsimp only at h
  split at h
  · rename_i hsolve
    cases h
    exact .unsolved hsolve
  · rename_i value hsolve
    split at h
    · rename_i hshow
      cases h
      obtain ⟨fault, hround, rfl⟩ := showValue_eq_error_iff.mp hshow
      obtain ⟨rfl, hprecision⟩ := roundedResult_eq_error hround
      exact .unrounded hsolve hround hprecision
    · cases h

theorem leftBehind_of_perform (h : d.perform operation = (d', some failure)) :
    LeftBehind d operation failure d' := by
  cases operation with
  | press pressed =>
    obtain ⟨rfl, -⟩ := eq_error_of_orStay h
    exact .press
  | enter entered => exact leftBehind_of_enter h
  | evaluate =>
    obtain ⟨rfl, -⟩ := eq_error_of_orStay h
    exact .evaluate
  | backspace => cases h
  | clear => cases h

/-- **What an operation leaves alone.** When it fails, its steps have changed nothing, unless it has
entered an expression whose value cannot be rounded, which takes a negative precision. Whether it
fails or not, the precision stays, and so does the result, except that an operation which succeeds
in solving an expression stores the result of it. -/
theorem steps_frame (d : Display) (operation : Operation) :
    d.perform operation = (operation.steps.after d, operation.steps.failure? d) ∧
    (∀ failure, operation.steps.failure? d = some failure →
      LeftBehind d operation failure (operation.steps.after d)) ∧
    (∀ value fault, roundedResult value d.precision = .error fault →
      fault = .overflow ∧ d.precision < 0) ∧
    (operation.steps.after d).precision = d.precision ∧
    ((operation.steps.after d).result ≠ d.result →
      operation.answers = true ∧ operation.steps.failure? d = none) := by
  have hsteps := operation.perform_eq_steps d
  obtain ⟨hprecision, hresult⟩ := perform_result d operation
  rw [hsteps] at hprecision hresult
  refine ⟨hsteps, fun failure hfailure => ?_, fun _ _ => roundedResult_eq_error, hprecision,
    fun hne => ?_⟩
  · rw [hfailure] at hsteps
    exact leftBehind_of_perform hsteps
  · obtain ⟨hanswers, hnone, -⟩ := hresult.resolve_left hne
    exact ⟨hanswers, hnone⟩

/-- The largest power of ten that a number can be rounded to, and an expression whose value would be
rounded up beyond the largest number. It is entered while a result is shown. -/
theorem steps_frame_overflow :
    let d : Display := { precision := -308, expression := ['5'], text := ['5'], shown := true }
    let operation := Operation.enter ('1' :: '7' :: List.replicate 307 '0')
    operation.steps.failure? d = some (.result .overflow) ∧
      LeftBehind d operation (.result .overflow) (operation.steps.after d) ∧
      (operation.steps.after d).expression.length = 309 := by
  intro d operation
  have hfailure : operation.steps.failure? d = some (.result .overflow) := by decide +kernel
  exact ⟨hfailure, (steps_frame d operation).2.1 _ hfailure, by decide +kernel⟩

end Display

end ChatCalculator

import ChatCalculator.Proofs.Display.Consistent

/-!
# Operations that fail

An operation on a display fails for one of four reasons: a character pressed is no key, the result
that is shown has no text to go on from, the expression has no value, or the value cannot be
rounded. Only the last one can leave a changed display behind, since an expression that is entered
replaces the old one before its value is rounded.

## The distinction that decides it

Numbers overflow when they are rounded, not when they are shown, although showing a number rounds
it once more. The result of a display has been rounded before, and a rounded number stays what it
is. So the second rounding cannot fail, whatever the precision; with places after the point neither
can the first.

## Main definitions

* `Display.Settled`: the result of the display has been rounded

## Main results

* `roundedResult_eq_error`: only a negative precision overflows
* `Display.failure_cases`: why an operation fails, and what it leaves behind
* `Display.perform_result`: an operation keeps the precision; its result is an old one or rounded
* `Display.Settled.perform`, `Display.Settled.output_ne_overflow`: results are rounded at all times,
  and so can be shown without an overflow
-/

namespace ChatCalculator

open Expression

/-! ### Numbers that cannot be rounded or shown -/

/-- **Only a negative precision overflows**, and nothing else goes wrong in rounding. -/
theorem roundedResult_eq_error {x : Binary64} {p : ℤ} {fault : ResultFault}
    (h : roundedResult x p = .error fault) : fault = .overflow ∧ p < 0 := by
  constructor
  · rw [roundedResult] at h
    split at h
    · dsimp only at h
      split at h
      · cases h
      · cases h
        rfl
    · cases h
  · by_contra hp
    obtain ⟨r, hr⟩ := exists_roundedResult x (not_lt.mp hp)
    rw [hr] at h
    cases h

theorem fixedPlaces_ne_overflow (p : ℤ) : fixedPlaces p ≠ .error .overflow := by
  intro h
  rw [fixedPlaces] at h
  split at h
  · cases h
  · split at h
    · cases h
    · split at h <;> cases h

/-- A number that can be rounded can be shown without an overflow. -/
theorem resultText_ne_overflow {x r : Binary64} {p : ℤ} (h : roundedResult x p = .ok r) :
    resultText x p ≠ .error .overflow := by
  intro htext
  rw [resultText] at htext
  split at htext
  · rw [h] at htext
    dsimp only at htext
    cases hplaces : fixedPlaces p with
    | ok places => rw [hplaces] at htext; cases htext
    | error fault =>
      rw [hplaces] at htext
      cases htext
      exact fixedPlaces_ne_overflow p hplaces
  · cases htext

namespace Display

variable {d d' : Display}

/-! ### Why an operation fails -/

theorem resume_eq_error {fault : ResultFault} (h : d.resume = .error fault) :
    resultText d.result d.precision = .error fault := by
  rw [resume] at h
  split at h
  · split at h
    · cases htext : resultText d.result d.precision with
      | error fault' => rw [htext] at h; cases h; rfl
      | ok text => rw [htext] at h; cases h
    · cases h
  · cases h

theorem pressedKeys_eq_error {pressed : List Char} {failure : Failure}
    (h : pressedKeys pressed = .error failure) : ∃ c, failure = .unknownKey c := by
  induction pressed with
  | nil => cases h
  | cons c cs ih =>
    rw [pressedKeys] at h
    split at h
    · exact ih h
    · split at h
      · cases h
        exact ⟨c, rfl⟩
      · rename_i key _
        cases hkeys : pressedKeys cs with
        | error failure' => rw [hkeys] at h; cases h; exact ih hkeys
        | ok values => rw [hkeys] at h; cases h

theorem showValue_eq_error {value : Binary64} {failure : Failure}
    (h : d.showValue value = .error failure) :
    failure = .result .overflow ∧ d.precision < 0 := by
  rw [showValue] at h
  split at h
  · rename_i fault hfault
    cases h
    obtain ⟨rfl, hp⟩ := roundedResult_eq_error hfault
    exact ⟨rfl, hp⟩
  · cases h

theorem solve_eq_error {expression : List Char} {failure : Failure}
    (h : solve expression = .error failure) : ∃ e, failure = .unsolvable e ∧
      ∀ symbol, e.fault ≠ .unknownOperator symbol := by
  obtain ⟨e, he, rfl⟩ := mapError_eq_error_iff.mp h
  exact ⟨e, rfl, (error_of_solve_standardOperators he).2⟩

theorem failure_of_press {pressed : List Char} {failure : Failure}
    (h : d.press pressed = .error failure) :
    (∃ c, failure = .unknownKey c) ∨
      ∃ fault, failure = .result fault ∧ resultText d.result d.precision = .error fault := by
  rw [press] at h
  split at h
  · rename_i hkeys
    cases h
    exact .inl (pressedKeys_eq_error hkeys)
  · split at h
    · rename_i fault hfault
      cases h
      exact .inr ⟨fault, rfl, resume_eq_error hfault⟩
    · cases h

theorem failure_of_evaluate {failure : Failure} (h : d.evaluate = .error failure) :
    (∃ e, failure = .unsolvable e ∧ ∀ symbol, e.fault ≠ .unknownOperator symbol) ∨
      failure = .result .overflow ∧ d.precision < 0 := by
  rw [evaluate] at h
  split at h
  · rename_i hsolve
    cases h
    exact .inl (solve_eq_error hsolve)
  · exact .inr (showValue_eq_error h)

/-- An expression that is entered replaces the old one only if it has a value. -/
theorem failure_of_enter {entered : List Char} {failure : Failure}
    (h : d.enter entered = (d', some failure)) :
    (d' = d ∧ ∃ e, failure = .unsolvable e ∧ ∀ symbol, e.fault ≠ .unknownOperator symbol) ∨
      failure = .result .overflow ∧ d.precision < 0 := by
  rw [enter] at h
  dsimp only at h
  split at h
  · rename_i hsolve
    cases h
    exact .inl ⟨rfl, solve_eq_error hsolve⟩
  · split at h
    · rename_i hshow
      cases h
      have hround := showValue_eq_error hshow
      exact .inr hround
    · cases h

theorem eq_error_of_orStay {next : Except Failure Display} {failure : Failure}
    (h : d.orStay next = (d', some failure)) : d' = d ∧ next = .error failure := by
  cases next with
  | ok d => cases h
  | error failure =>
    cases h
    exact ⟨rfl, rfl⟩

/-- **Why an operation fails**, and that all failures but the last one leave the display alone. -/
theorem failure_cases {operation : Operation} {failure : Failure}
    (h : d.perform operation = (d', some failure)) :
    (d' = d ∧ ∃ c, failure = .unknownKey c) ∨
      (d' = d ∧ ∃ fault, failure = .result fault ∧
        resultText d.result d.precision = .error fault) ∨
      (d' = d ∧ ∃ e, failure = .unsolvable e ∧ ∀ symbol, e.fault ≠ .unknownOperator symbol) ∨
      (operation.answers = true ∧ failure = .result .overflow ∧ d.precision < 0) := by
  cases operation with
  | press pressed =>
    obtain ⟨rfl, hpress⟩ := eq_error_of_orStay h
    rcases failure_of_press hpress with hkey | hresult
    · exact .inl ⟨rfl, hkey⟩
    · exact .inr (.inl ⟨rfl, hresult⟩)
  | enter entered =>
    rcases failure_of_enter h with hsolve | hround
    · exact .inr (.inr (.inl hsolve))
    · exact .inr (.inr (.inr ⟨rfl, hround⟩))
  | evaluate =>
    obtain ⟨rfl, heval⟩ := eq_error_of_orStay h
    rcases failure_of_evaluate heval with hsolve | hround
    · exact .inr (.inr (.inl ⟨rfl, hsolve⟩))
    · exact .inr (.inr (.inr ⟨rfl, hround⟩))
  | backspace => cases h
  | clear => cases h

/-- With places after the point that fit into 32 bits, an operation that fails changes nothing. -/
theorem eq_self_of_failure (hp : 0 ≤ d.precision) (hlt : d.precision < 2 ^ 31)
    {operation : Operation} {failure : Failure}
    (h : d.perform operation = (d', some failure)) : d' = d := by
  rcases failure_cases h with ⟨hd, -⟩ | ⟨hd, -⟩ | ⟨hd, -⟩ | ⟨-, -, hneg⟩
  · exact hd
  · exact hd
  · exact hd
  · omega

/-! ### What an operation does to the result -/

theorem resume_result (h : d.resume = .ok d') :
    d'.precision = d.precision ∧ d'.result = d.result := by
  rw [resume] at h
  split at h
  · split at h
    · obtain ⟨text, -, rfl⟩ := map_eq_ok_iff.mp h
      exact ⟨rfl, rfl⟩
    · cases h
      exact ⟨rfl, rfl⟩
  · cases h
    exact ⟨rfl, rfl⟩

theorem press_result {pressed : List Char} (h : d.press pressed = .ok d') :
    d'.precision = d.precision ∧ d'.result = d.result := by
  rw [press] at h
  split at h
  · cases h
  · split at h
    · cases h
    · rename_i start hstart
      cases h
      obtain ⟨hprecision, hresult⟩ := resume_result hstart
      exact ⟨hprecision, hresult⟩

theorem evaluate_result (h : d.evaluate = .ok d') :
    d'.precision = d.precision ∧ ∃ value, roundedResult value d.precision = .ok d'.result := by
  rw [evaluate] at h
  split at h
  · cases h
  · rename_i value _
    obtain ⟨result, hresult, rfl⟩ := showValue_eq_ok_iff.mp h
    exact ⟨rfl, value, hresult⟩

/-- **An operation keeps the precision, and the result unless it answers** with a rounded one. -/
theorem perform_result (d : Display) (operation : Operation) :
    (d.perform operation).1.precision = d.precision ∧
      ((d.perform operation).1.result = d.result ∨
        operation.answers = true ∧ (d.perform operation).2 = none ∧
          ∃ value, roundedResult value d.precision = .ok (d.perform operation).1.result) := by
  cases operation with
  | press pressed =>
    cases hpress : d.press pressed with
    | error failure => rw [perform, hpress]; exact ⟨rfl, .inl rfl⟩
    | ok next =>
      rw [perform, hpress]
      exact ⟨(press_result hpress).1, .inl (press_result hpress).2⟩
  | enter entered =>
    rw [perform, enter]
    dsimp only
    split
    · exact ⟨rfl, .inl rfl⟩
    · split
      · exact ⟨rfl, .inl rfl⟩
      · rename_i value _ _ showing hshow
        obtain ⟨result, hresult, rfl⟩ := showValue_eq_ok_iff.mp hshow
        exact ⟨rfl, .inr ⟨rfl, rfl, value, hresult⟩⟩
  | evaluate =>
    cases heval : d.evaluate with
    | error failure => rw [perform, heval]; exact ⟨rfl, .inl rfl⟩
    | ok next =>
      rw [perform, heval]
      obtain ⟨hprecision, hrounded⟩ := evaluate_result heval
      exact ⟨hprecision, .inr ⟨rfl, rfl, hrounded⟩⟩
  | backspace => exact ⟨rfl, .inl rfl⟩
  | clear => exact ⟨rfl, .inl rfl⟩

/-! ### Rounded results -/

/-- The result of the display has been rounded to its precision. -/
def Settled (d : Display) : Prop :=
  roundedResult d.result d.precision = .ok d.result

/-- A new display. -/
theorem settled_initial (p : ℤ) : Settled { precision := p } :=
  roundedResult_zero p

/-- **A result is rounded at all times**, whatever the precision. -/
theorem Settled.perform (h : d.Settled) (operation : Operation) :
    (d.perform operation).1.Settled := by
  obtain ⟨hprecision, hresult | ⟨-, -, value, hresult⟩⟩ := perform_result d operation
  · rw [Settled, hprecision, hresult]
    exact h
  · rw [Settled, hprecision]
    exact roundedResult_idem hresult

/-- A rounded result is shown without an overflow. -/
theorem Settled.output_ne_overflow (h : d.Settled) : d.output ≠ .error .overflow := by
  rw [output]
  split
  · exact resultText_ne_overflow h
  · nofun

/-- With places after the point that fit into 32 bits, a display can be shown. -/
theorem exists_output (hp : 0 ≤ d.precision) (hlt : d.precision < 2 ^ 31) :
    ∃ text, d.output = .ok text := by
  rw [output]
  split
  · exact exists_resultText d.result hp hlt
  · exact ⟨[], rfl⟩

end Display

end ChatCalculator

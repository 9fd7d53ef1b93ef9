import ChatCalculator.Proofs.Display.Key
import ChatCalculator.Proofs.Display.ResultText
import ChatCalculator.Proofs.Expression.Acceptance

/-!
# What is true of a display at all times

Expression, text and result of a display are changed by different operations, and not always
together. They stay in step all the same: the text shows the expression and can be read back, and
while a result is shown, it is the rounded value of the expression.

## Where the invariant is at risk

Three operations leave their normal path. An expression that is entered replaces the old one before
its value is rounded; were the rounding to fail, an old result would be shown with it. It cannot
fail, because with places after the point nothing overflows. Keys that are pressed while a result
is shown start from the text of the result, which is written without labels and so is its own
expression. And deleting the last key hides the result, so it need not be one of what is left.

## Main definitions

* `Display.Aligned`: the text shows the expression
* `Display.Consistent`: the invariant
* `Display.run`: a display after several operations

## Main results

* `Display.Consistent.perform`: no operation breaks the invariant, whether it fails or not
* `Display.consistent_run`: it holds at all times
-/

namespace ChatCalculator

namespace Display

/-- A display after several operations, failing ones included. -/
def run (d : Display) (operations : List Operation) : Display :=
  operations.foldl (fun d operation => (d.perform operation).1) d

/-- The text shows the expression, which is written with values of keys and blanks. -/
structure Aligned (d : Display) : Prop where
  /-- The text is the expression with labels. -/
  text_eq : d.text = d.expression.map keyLabel
  /-- The expression is made of values of keys and blanks. -/
  isKeyOrBlank : ∀ c ∈ d.expression, IsKeyOrBlank c

/-- **What is true of a display at all times.** -/
structure Consistent (p : ℤ) (d : Display) : Prop extends Aligned d where
  /-- The precision stays. -/
  precision_eq : d.precision = p
  /-- The expression can be read off the text. -/
  map_labelKey_text : d.text.map labelKey = d.expression
  /-- A result that is shown is the rounded value of the expression. -/
  shown_result : d.shown = true →
    ∃ value, solve d.expression = .ok value ∧ roundedResult value p = .ok d.result
  /-- A finite result is rounded, and not a negative zero. -/
  settled : d.result.isFinite = true →
    roundedResult d.result p = .ok d.result ∧ d.result ≠ .finite true .zero

variable {p : ℤ} {d : Display}

/-! ### Displays that are in step -/

theorem Aligned.map_labelKey_text (h : d.Aligned) : d.text.map labelKey = d.expression := by
  rw [h.text_eq, map_labelKey_map_keyLabel h.isKeyOrBlank]

/-- A new display. -/
theorem Consistent.initial (p : ℤ) : Consistent p { precision := p } where
  text_eq := rfl
  isKeyOrBlank := fun _ hc => by cases hc
  precision_eq := rfl
  map_labelKey_text := rfl
  shown_result := fun h => by cases h
  settled := by
    intro _
    refine ⟨roundedResult_zero p, ?_⟩
    show Binary64.zero ≠ .finite true .zero
    decide

/-- As long as no result is shown, expression and text may change together. -/
theorem Consistent.hide (h : d.Consistent p) {d' : Display} (haligned : d'.Aligned)
    (hprecision : d'.precision = d.precision) (hresult : d'.result = d.result)
    (hshown : d'.shown = false) : d'.Consistent p where
  toAligned := haligned
  precision_eq := hprecision.trans h.precision_eq
  map_labelKey_text := haligned.map_labelKey_text
  shown_result := fun hs => by
    rw [hshown] at hs
    cases hs
  settled := by
    rw [hresult]
    exact h.settled

/-- Starting with characters that are their own labels keeps a display in step. -/
theorem Consistent.startWith (h : d.Consistent p) {initial : List Char}
    (hkeys : ∀ c ∈ initial, c ∈ keys.keys) (hlabels : initial.map keyLabel = initial) :
    (d.startWith initial).Consistent p :=
  h.hide ⟨hlabels.symm, fun c hc => .inl (hkeys c hc)⟩ rfl rfl rfl

/-- The display that keys are appended to is in step and hides the result. -/
theorem Consistent.resume (h : d.Consistent p) {start : Display} (hstart : d.resume = .ok start) :
    start.Consistent p ∧ start.shown = false := by
  rw [Display.resume] at hstart
  split at hstart
  · split at hstart
    · rename_i hfinite
      obtain ⟨text, htext, rfl⟩ := map_eq_ok_iff.mp hstart
      obtain ⟨n, hn, rfl, -⟩ := exists_numeral_of_resultText hfinite htext
      have hkeys : ∀ c ∈ n.text, c ∈ keys.keys := fun c hc => (mem_keys_of_mem_numeral hn hc).1
      exact ⟨h.startWith hkeys (map_keyLabel_numeral hn), rfl⟩
    · cases hstart
      exact ⟨h.startWith (fun c hc => by cases hc) rfl, rfl⟩
  · rename_i hshown
    cases hstart
    exact ⟨h, Bool.eq_false_iff.mpr hshown⟩

/-- What has a value is written with values of keys and blanks. -/
theorem isKeyOrBlank_of_solve {expression : List Char} {value : Binary64}
    (h : solve expression = .ok value) : ∀ c ∈ expression, IsKeyOrBlank c := by
  obtain ⟨ts, htokens, -⟩ := Expression.solve_eq_ok_iff.mp (mapError_eq_ok_iff.mp h)
  exact isKeyOrBlank_of_tokenize htokens

/-- A value is shown as soon as it can be rounded. -/
theorem showValue_eq_ok_iff {d' : Display} {value : Binary64} :
    d.showValue value = .ok d' ↔ ∃ result, roundedResult value d.precision = .ok result ∧
      d' = { d with result := result, shown := true } := by
  rw [showValue]
  cases roundedResult value d.precision with
  | error fault => simp
  | ok result => simp [eq_comm]

/-- A display that shows the value of its expression is in step. -/
theorem consistent_of_showValue {d' : Display} {value : Binary64} (haligned : d.Aligned)
    (hprecision : d.precision = p) (hvalue : solve d.expression = .ok value)
    (h : d.showValue value = .ok d') : d'.Consistent p := by
  obtain ⟨result, hresult, rfl⟩ := showValue_eq_ok_iff.mp h
  rw [hprecision] at hresult
  exact {
    text_eq := haligned.text_eq
    isKeyOrBlank := haligned.isKeyOrBlank
    precision_eq := hprecision
    map_labelKey_text := haligned.map_labelKey_text
    shown_result := fun _ => ⟨value, hvalue, hresult⟩
    settled := fun _ =>
      ⟨roundedResult_idem hresult, ne_negative_zero_of_roundedResult hresult⟩ }

/-! ### Operations -/

theorem Consistent.press (h : d.Consistent p) {pressed : List Char} {d' : Display}
    (hpress : d.press pressed = .ok d') : d'.Consistent p := by
  rw [Display.press] at hpress
  split at hpress
  · cases hpress
  · rename_i values hvalues
    split at hpress
    · cases hpress
    · rename_i start hstart
      cases hpress
      obtain ⟨hconsistent, hshown⟩ := h.resume hstart
      have haligned := hconsistent.toAligned
      refine hconsistent.hide ⟨?_, ?_⟩ rfl rfl hshown
      · show start.text ++ values.map keyLabel = (start.expression ++ values).map keyLabel
        rw [List.map_append, haligned.text_eq]
      · intro c hc
        rcases List.mem_append.mp hc with hc | hc
        · exact haligned.isKeyOrBlank c hc
        · exact .inl (mem_keys_of_pressedKeys hvalues c hc)

theorem Consistent.evaluate (h : d.Consistent p) {d' : Display} (heval : d.evaluate = .ok d') :
    d'.Consistent p := by
  rw [Display.evaluate] at heval
  split at heval
  · cases heval
  · rename_i value hvalue
    exact consistent_of_showValue h.toAligned h.precision_eq hvalue heval

/-- An expression that is entered is shown with its value, or nothing happens. -/
theorem Consistent.enter (h : d.Consistent p) (hp : 0 ≤ p) (entered : List Char) :
    (d.enter entered).1.Consistent p := by
  rw [Display.enter]
  split
  · exact h
  · rename_i value hvalue
    dsimp only
    -- with places after the point the value can be rounded
    obtain ⟨r, hr⟩ := exists_roundedResult value hp
    rw [← h.precision_eq] at hr
    split
    · rename_i failure hfailure
      rw [showValue, hr] at hfailure
      cases hfailure
    · rename_i showing hshowing
      refine consistent_of_showValue ?_ ?_ ?_ hshowing
      · exact ⟨rfl, isKeyOrBlank_of_solve hvalue⟩
      · exact h.precision_eq
      · exact hvalue

theorem Consistent.backspace (h : d.Consistent p) : d.backspace.Consistent p := by
  refine h.hide ⟨?_, fun c hc => ?_⟩ rfl rfl rfl
  · show d.text.dropLast = d.expression.dropLast.map keyLabel
    rw [List.map_dropLast, h.text_eq]
  · exact h.isKeyOrBlank c (List.dropLast_subset _ hc)

theorem Consistent.orStay (h : d.Consistent p) {next : Except Failure Display}
    (hnext : ∀ d', next = .ok d' → d'.Consistent p) : (d.orStay next).1.Consistent p := by
  cases next with
  | error failure => exact h
  | ok d' => exact hnext d' rfl

/-- **No operation breaks the invariant**, whether it fails or not. -/
theorem Consistent.perform (h : d.Consistent p) (hp : 0 ≤ p) (operation : Operation) :
    (d.perform operation).1.Consistent p := by
  cases operation with
  | press pressed => exact h.orStay fun _ => h.press
  | enter entered => exact h.enter hp entered
  | evaluate => exact h.orStay fun _ => h.evaluate
  | backspace => exact h.backspace
  | clear => exact h.startWith (fun c hc => by cases hc) rfl

theorem Consistent.run (h : d.Consistent p) (hp : 0 ≤ p) (operations : List Operation) :
    (d.run operations).Consistent p := by
  induction operations generalizing d with
  | nil => exact h
  | cons operation operations ih => exact ih (h.perform hp operation)

/-- **A display is consistent at all times**: after any operations, failing ones included, if its
precision counts places after the point. -/
theorem consistent_run (hp : 0 ≤ p) (operations : List Operation) :
    (run { precision := p } operations).Consistent p :=
  (Consistent.initial p).run hp operations

/-- Keys that fail, a result that is shown, and keys that reuse it. -/
theorem consistent_run_reusing_result :
    (0 : ℤ) ≤ 2 ∧ (run { precision := 2 } [.press ['1', '÷', '8'], .press ['x'], .evaluate,
      .press ['−', '2']]).Consistent 2 :=
  ⟨by decide, consistent_run (by decide) _⟩

end Display

end ChatCalculator

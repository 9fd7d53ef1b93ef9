import ChatCalculator.Proofs.Display.Consistent

/-!
# Pressing keys while a result is shown

The first keys pressed while a finite result is shown continue from the text of that result. They
are read as if the result itself stood there: its text is one numeral, no key that follows can
become a part of it, and its value is the result with all its bits and with its sign.

The statement compares two expressions that differ in their first numeral only, the other one
being a plain `0`. Behind a numeral everything is cut and read the same way, whatever the numeral.

## Main results

* `Display.Consistent.press_shown`: what is pressed is put behind a numeral of the result
* `Display.evaluate_numeral`: evaluating such a numeral shows the result again
* `Display.press_reuses_result`: both, for every display that shows a finite result
-/

namespace ChatCalculator

open Expression

namespace Display

variable {p : ℤ} {d : Display}

/-- **What is pressed is put behind a numeral of the result** that is shown. -/
theorem Consistent.press_shown (h : d.Consistent p) (hp : 0 ≤ p) (hlt : p < 2 ^ 31)
    (hshown : d.shown = true) (hfinite : d.result.isFinite = true) {pressed values : List Char}
    (hvalues : pressedKeys pressed = .ok values) :
    ∃ n : Numeral, n.Proper ∧ n.value = d.result ∧
      ∃ d', d.press pressed = .ok d' ∧ d'.expression = n.text ++ values ∧
        d'.precision = d.precision := by
  rw [← h.precision_eq] at hp hlt
  obtain ⟨text, htext⟩ := exists_resultText d.result hp hlt
  obtain ⟨n, hn, rfl, hvalue⟩ := exists_numeral_of_resultText hfinite htext
  have hresult : n.value = d.result := by
    rw [h.precision_eq, (h.settled hfinite).1] at hvalue
    exact (Except.ok.inj hvalue).symm
  have hresume : d.resume = .ok (d.startWith n.text) := by
    rw [Display.resume, if_pos hshown, if_pos hfinite, htext]
    rfl
  refine ⟨n, hn, hresult, { d.startWith n.text with
    expression := n.text ++ values, text := n.text ++ values.map keyLabel }, ?_, rfl, rfl⟩
  rw [Display.press, hvalues]
  simp only [hresume]
  rfl

/-- Evaluating the numeral of a rounded result shows that result. -/
theorem evaluate_numeral {n : Numeral} (hn : n.Proper) (hexpression : d.expression = n.text)
    (hresult : roundedResult n.value d.precision = .ok n.value) :
    d.evaluate = .ok { d with result := n.value, shown := true } := by
  have hsolve : solve d.expression = .ok n.value := by
    rw [hexpression, solve, solve_numeral hn]
    rfl
  rw [evaluate, hsolve]
  show d.showValue n.value = _
  rw [showValue, hresult]

/-- **Keys pressed while a finite result is shown are read behind that result.** The tokens are the
result itself and those that would follow a zero in its place; a character that belongs to no
token is the same one. If nothing but white space is pressed, evaluating shows the same again. -/
theorem press_reuses_result (hp : 0 ≤ p) (hlt : p < 2 ^ 31) (operations : List Operation)
    (hd : run { precision := p } operations = d) (hshown : d.shown = true)
    (hfinite : d.result.isFinite = true) {pressed values : List Char}
    (hvalues : pressedKeys pressed = .ok values) (hfirst : EndsNumeral values) :
    ∃ d', d.press pressed = .ok d' ∧
      (∀ ts, tokenize standardOperators ('0' :: values) = .ok ts →
        tokenize standardOperators d'.expression = .ok (.number d.result :: ts.tail)) ∧
      (∀ e, tokenize standardOperators ('0' :: values) = .error e →
        ∃ c position position', e.fault = .invalidCharacter [c] position ∧
          tokenize standardOperators d'.expression =
            .error ⟨.invalidCharacter [c] position', some d'.expression⟩) ∧
      (values = [] → ∃ d'', d'.evaluate = .ok d'' ∧ d''.result = d.result ∧ d''.shown = true ∧
        d''.output = d.output) := by
  have h : d.Consistent p := hd ▸ (Consistent.initial p).run hp operations
  obtain ⟨n, hn, hvalue, d', hpress, hexpression, hprecision⟩ :=
    h.press_shown hp hlt hshown hfinite hvalues
  refine ⟨d', hpress, fun ts hts => ?_, fun e he => ?_, fun hnil => ?_⟩
  · rw [hexpression, ← hvalue]
    exact tokenize_numeral_append_of_ok hn proper_zeroNumeral hfirst hts
  · rw [hexpression]
    exact tokenize_numeral_append_of_error hn proper_zeroNumeral hfirst he
  · rw [hnil, List.append_nil] at hexpression
    have hresult : roundedResult n.value d'.precision = .ok n.value := by
      rw [hvalue, hprecision, h.precision_eq]
      exact (h.settled hfinite).1
    refine ⟨_, evaluate_numeral hn hexpression hresult, hvalue, rfl, ?_⟩
    rw [output, output, if_pos rfl, if_pos hshown, hvalue, hprecision]

/-- A negative result that is reused, and a minus sign behind it. -/
theorem press_reuses_negative_result :
    ∃ d', (run { precision := 2 } [.press ['−', '5'], .evaluate]).press ['-', '2'] = .ok d' ∧
      tokenize standardOperators d'.expression =
        .ok [.number (.ofBits 0xc014000000000000), .operator ['-'],
          .number (.ofBits 0x4000000000000000)] := by
  have hresult : (run { precision := 2 } [.press ['−', '5'], .evaluate]).result =
      .ofBits 0xc014000000000000 := by decide +kernel
  have htokens : tokenize standardOperators ['0', '-', '2'] =
      .ok [.number .zero, .operator ['-'], .number (.ofBits 0x4000000000000000)] := by
    decide +kernel
  have hfirst : EndsNumeral ['-', '2'] := by
    rintro c ⟨⟩
    decide
  obtain ⟨d', hpress, hreused, -⟩ :=
    press_reuses_result (p := 2) (by decide) (by decide) [.press ['−', '5'], .evaluate] rfl
      (by decide +kernel) (by decide +kernel)
      (show pressedKeys ['-', '2'] = .ok ['-', '2'] by decide) hfirst
  refine ⟨d', hpress, ?_⟩
  rw [hreused _ htokens, hresult]
  rfl

end Display

end ChatCalculator

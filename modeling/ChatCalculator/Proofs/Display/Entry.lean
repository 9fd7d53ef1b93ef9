import ChatCalculator.Proofs.Display.Consistent
import ChatCalculator.Proofs.Expression.Spacing

/-!
# Two ways to an answer

An expression can be entered as a whole, or pressed key by key and then evaluated. The two do not
solve the same text: pressing passes over white space, while an expression that is entered keeps
its blanks. For a well-formed expression that makes no difference but for those blanks, since its
tokens are the same without them.

## Main results

* `pressedKeys_eq_dropBlanks`: what is pressed is what would be entered, without its blanks
* `Display.press_initial`: a new display on which keys have been pressed
* `Display.enter_agrees_with_press`: the same result on both ways, or a division by zero on both
-/

namespace ChatCalculator

open Expression

/-! ### Keys, labels and blanks -/

/-- A key or a label is read as its key value on both ways, and it is no white space. -/
theorem keyValue?_eq_labelKey {c : Char} (h : c ∈ keys.keys ++ labels.keys) :
    isSpace c = false ∧ keyValue? c = some (labelKey c) ∧ isBlank (labelKey c) = false := by
  have hall : (keys.keys ++ labels.keys).all (fun c =>
      isSpace c = false ∧ keyValue? c = some (labelKey c) ∧ isBlank (labelKey c) = false) =
        true := by decide
  exact of_decide_eq_true (List.all_eq_true.mp hall c h)

/-- A blank is entered as it is. -/
theorem labelKey_of_isBlank {c : Char} (h : isBlank c = true) : labelKey c = c := by
  refine labelKey_eq_self fun hc => ?_
  rw [isBlank_eq_false_of_mem (List.mem_append_right _ hc)] at h
  cases h

theorem isBlank_keyLabel (c : Char) : isBlank (keyLabel c) = isBlank c := by
  by_cases hc : c ∈ keys.keys
  · have hall : keys.keys.all (fun c => isBlank (keyLabel c) = isBlank c) = true := by decide
    exact of_decide_eq_true (List.all_eq_true.mp hall c hc)
  · rw [keyLabel_eq_self hc]

theorem dropBlanks_map_keyLabel (cs : List Char) :
    dropBlanks (cs.map keyLabel) = (dropBlanks cs).map keyLabel := by
  rw [dropBlanks, dropBlanks, List.filter_map]
  congr 2
  funext c
  rw [Function.comp_apply, isBlank_keyLabel]

namespace Display

/-- **What is pressed is what would be entered, without its blanks.** -/
theorem pressedKeys_eq_dropBlanks {entered : List Char}
    (h : ∀ c ∈ entered, c ∈ keys.keys ∨ c ∈ labels.keys ∨ isBlank c = true) :
    pressedKeys entered = .ok (dropBlanks (entered.map labelKey)) := by
  induction entered with
  | nil => rfl
  | cons c cs ih =>
    obtain ⟨hc, hcs⟩ := List.forall_mem_cons.mp h
    have hsplit : dropBlanks ((c :: cs).map labelKey) =
        dropBlanks [labelKey c] ++ dropBlanks (cs.map labelKey) :=
      dropBlanks_append [labelKey c] _
    rw [pressedKeys, ih hcs, hsplit]
    rcases or_assoc.mpr hc with hkey | hblank
    · obtain ⟨hspace, hvalue, hkeep⟩ := keyValue?_eq_labelKey (List.mem_append.mpr hkey)
      have hself : dropBlanks [labelKey c] = [labelKey c] :=
        dropBlanks_eq_self fun d hd => by rwa [List.mem_singleton.mp hd]
      rw [if_neg (by simp [hspace]), hvalue, hself]
      rfl
    · have hnil : dropBlanks [labelKey c] = [] :=
        dropBlanks_of_forall fun d hd => by
          rwa [List.mem_singleton.mp hd, labelKey_of_isBlank hblank]
      rw [if_pos (isSpace_of_isBlank hblank), hnil]
      rfl

/-- A new display on which keys have been pressed holds what they stand for. -/
theorem press_initial {p : ℤ} {pressed values : List Char}
    (h : pressedKeys pressed = .ok values) :
    press { precision := p } pressed =
      .ok { precision := p, expression := values, text := values.map keyLabel } := by
  rw [press, h]
  rfl

/-! ### The same result -/

/-- Once an expression is cut, its value is that of its tokens. -/
theorem solve_eq_solveTokens {expression : List Char} {ts : List Token}
    (ht : tokenize standardOperators expression = .ok ts) :
    solve expression = (solveTokens standardOperators ts).mapError fun e =>
      .unsolvable (e.within expression) := by
  rw [solve, solve_of_tokenize ht]
  cases solveTokens standardOperators ts with
  | error e => rfl
  | ok value => rfl

theorem evaluate_eq_error {d : Display} {failure : Failure}
    (h : solve d.expression = .error failure) : d.evaluate = .error failure := by
  rw [evaluate, h]

theorem evaluate_eq_ok {d : Display} {value result : Binary64}
    (h : solve d.expression = .ok value) (hr : roundedResult value d.precision = .ok result) :
    d.evaluate = .ok { d with result := result, shown := true } := by
  rw [evaluate, h]
  exact showValue_eq_ok_iff.mpr ⟨result, hr, rfl⟩

theorem enter_eq_error {d : Display} {entered : List Char} {failure : Failure}
    (h : solve (entered.map labelKey) = .error failure) :
    d.enter entered = (d, some failure) := by
  rw [enter, h]

theorem enter_eq_ok {d : Display} {entered : List Char} {value result : Binary64}
    (h : solve (entered.map labelKey) = .ok value)
    (hr : roundedResult value d.precision = .ok result) :
    d.enter entered = ({ d with
      expression := entered.map labelKey
      text := (entered.map labelKey).map keyLabel
      result := result
      shown := true }, none) := by
  simp only [enter, h, showValue, hr]

/-- **Entering an expression agrees with pressing its keys and evaluating**, if the expression is
well-formed and nothing else has been done with the display. Either both show the same result, the
expression and the text of one being those of the other without blanks, or both report a division
by zero, each in the expression that it has solved. -/
theorem enter_agrees_with_press {p : ℤ} (hp : 0 ≤ p) {entered : List Char}
    (hkeys : ∀ c ∈ entered, c ∈ keys.keys ∨ c ∈ labels.keys ∨ isBlank c = true) {ts : List Token}
    (ht : tokenize standardOperators (entered.map labelKey) = .ok ts)
    (hwell : WellFormed standardOperators ts) :
    ∃ typed, press { precision := p } entered = .ok typed ∧
      ((∃ d d', enter { precision := p } entered = (d, none) ∧ typed.evaluate = .ok d' ∧
          d'.result = d.result ∧ d.shown = true ∧ d'.shown = true ∧
          d'.expression = dropBlanks d.expression ∧ d'.text = dropBlanks d.text) ∨
        (∃ e e', enter { precision := p } entered = ({ precision := p }, some (.unsolvable e)) ∧
          typed.evaluate = .error (.unsolvable e') ∧
          e.fault = .divisionByZero ∧ e'.fault = .divisionByZero)) := by
  have hsolve := solve_eq_solveTokens ht
  have hsolve' := solve_eq_solveTokens (tokenize_dropBlanks ht hwell)
  refine ⟨_, press_initial (pressedKeys_eq_dropBlanks hkeys), ?_⟩
  rcases solveTokens_of_wellFormed hwell with ⟨value, hv⟩ | ⟨e, hv, hfails⟩
  · rw [hv] at hsolve hsolve'
    obtain ⟨result, hresult⟩ := exists_roundedResult value hp
    refine .inl ⟨_, _, enter_eq_ok hsolve hresult, evaluate_eq_ok hsolve' hresult,
      rfl, rfl, rfl, rfl, ?_⟩
    exact (dropBlanks_map_keyLabel _).symm
  · obtain rfl := eq_of_failsWith_standardOperators hfails
    rw [hv] at hsolve hsolve'
    exact .inr ⟨_, _, enter_eq_error hsolve, evaluate_eq_error hsolve', rfl, rfl⟩

/-- A minus sign, given by its label, that touches the next number only when the blanks around it
are gone. -/
theorem enter_agrees_with_press_minus :
    ∃ typed d d', press { precision := 2 } ['5', ' ', '−', ' ', '3'] = .ok typed ∧
      enter { precision := 2 } ['5', ' ', '−', ' ', '3'] = (d, none) ∧
      typed.evaluate = .ok d' ∧ d'.result = d.result ∧
      d.expression = ['5', ' ', '-', ' ', '3'] ∧ d'.expression = ['5', '-', '3'] := by
  have ht : tokenize standardOperators (['5', ' ', '−', ' ', '3'].map labelKey) =
      .ok [.number (.ofBits 0x4014000000000000), .operator ['-'],
        .number (.ofBits 0x4008000000000000)] := by decide +kernel
  have hkeys : ∀ c ∈ ['5', ' ', '−', ' ', '3'],
      c ∈ keys.keys ∨ c ∈ labels.keys ∨ isBlank c = true := by
    have hall : ['5', ' ', '−', ' ', '3'].all (fun c =>
      c ∈ keys.keys ∨ c ∈ labels.keys ∨ isBlank c = true) = true := by decide
    exact fun c hc => of_decide_eq_true (List.all_eq_true.mp hall c hc)
  have hwell : WellFormed standardOperators [.number (.ofBits 0x4014000000000000),
      .operator ['-'], .number (.ofBits 0x4008000000000000)] := by decide
  have hsolved : (enter { precision := 2 } ['5', ' ', '−', ' ', '3']).1.expression =
        ['5', ' ', '-', ' ', '3'] ∧
      (enter { precision := 2 } ['5', ' ', '−', ' ', '3']).2 = none := by decide +kernel
  obtain ⟨typed, htyped, ⟨d, d', hd, hd', hresult, -, -, hexpression, -⟩ | ⟨e, -, he, -⟩⟩ :=
    enter_agrees_with_press (p := 2) (by decide) hkeys ht hwell
  · rw [hd] at hsolved
    refine ⟨typed, d, d', htyped, hd, hd', hresult, hsolved.1, ?_⟩
    rw [hexpression, hsolved.1]
    rfl
  · rw [he] at hsolved
    cases hsolved.2

end Display

end ChatCalculator

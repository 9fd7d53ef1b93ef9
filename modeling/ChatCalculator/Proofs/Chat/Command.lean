import ChatCalculator.Chat.Command
import ChatCalculator.Proofs.Display.Failure

/-!
# What becomes of a command

A command performs at most one operation on its display and then shows it. So it can fail in three
ways: it is refused, the operation fails, or the display cannot be shown. It is answered with an
embed only if nothing fails, and nothing is left to be done then.

## Main definitions

* `Command.operation?`, `Command.performed`: the operation of a command, and the display after it
* `Command.Outcome`: how a command can end

## Main results

* `Command.run_cases`: what a command leaves behind, and how it ends
* `Command.Outcome.isExpected_or_overflow`: which failures are passed on
* `Command.performed_eq_self_of_outcome`: a command that fails leaves its display alone, if the
  precision is not out of the ordinary
-/

namespace ChatCalculator

namespace Chat

/-! ### Failures -/

/-- Of the failures of a display, only an overflow is passed on. -/
theorem Failure.isExpected_ofDisplay {failure : Display.Failure}
    (hoverflow : failure ≠ .result .overflow)
    (hknown : ∀ e symbol, failure = .unsolvable e → e.fault ≠ .unknownOperator symbol) :
    (Failure.ofDisplay failure).isExpected = true := by
  match failure with
  | .unsolvable ⟨.unknownOperator symbol, _⟩ => exact absurd rfl (hknown _ symbol rfl)
  | .unsolvable ⟨.invalidCharacter _ _, _⟩ => rfl
  | .unsolvable ⟨.emptyExpression, _⟩ => rfl
  | .unsolvable ⟨.unbalancedParentheses _, _⟩ => rfl
  | .unsolvable ⟨.malformed _, _⟩ => rfl
  | .unsolvable ⟨.divisionByZero, _⟩ => rfl
  | .unsolvable ⟨.unknownToken _, _⟩ => rfl
  | .unknownKey _ => rfl
  | .result .overflow => exact absurd rfl hoverflow
  | .result .negativePrecision => rfl
  | .result .largePrecision => rfl
  | .result .hugePrecision => rfl

theorem Failure.isExpected_ofResult {fault : ResultFault} (h : fault ≠ .overflow) :
    (Failure.ofResult fault).isExpected = true :=
  isExpected_ofDisplay (fun hfault => h (Display.Failure.result.inj hfault)) nofun

theorem report_of_isExpected {failure : Failure} (h : failure.isExpected = true) (name : String) :
    failure.report name = { sent := [.text failure.message] } :=
  if_pos h

/-! ### Commands -/

namespace Command

/-- The operation that a command performs on a display. Looking performs none, and neither does
deleting a key where there is none. -/
def operation? (d : Display) : Command → Option Display.Operation
  | .calculate parameter => some (.enter (dropQuotes parameter))
  | .press parameter => some (.press (dropQuotes parameter))
  | .back => if d.expression = [] then none else some .backspace
  | .clear => some .clear
  | .evaluate => some .evaluate
  | .look => none

/-- The display after the operation of a command. -/
def performed (command : Command) (d : Display) : Display :=
  match command.operation? d with
  | some operation => (d.perform operation).1
  | none => d

/-- **How a command can end.** -/
inductive Outcome (command : Command) (d : Display) : Except Failure Message → Prop
  /-- There is nothing to be done. -/
  | refused (text : String) (hnone : command.operation? d = none) :
      Outcome command d (.error (.refused text))
  /-- The operation fails. -/
  | failed {operation : Display.Operation} {failure : Display.Failure}
      (hoperation : command.operation? d = some operation)
      (hfailure : (d.perform operation).2 = some failure) :
      Outcome command d (.error (.ofDisplay failure))
  /-- The display that is left cannot be shown. -/
  | notShown {fault : ResultFault} (hfault : (command.performed d).output = .error fault) :
      Outcome command d (.error (.ofResult fault))
  /-- The display that is left is shown. -/
  | shown (embed : Embed) : Outcome command d (.ok (.embed embed))

variable {command : Command} {d : Display}

/-- A reply that shows the display that is left. -/
theorem outcome_panel (author : Author) :
    command.Outcome d (panel author (command.performed d)) := by
  rw [panel]
  split
  · rename_i fault hfault
    exact .notShown hfault
  · exact .shown _

theorem outcome_answer (expression : List Char) :
    command.Outcome d (answer expression (command.performed d)) := by
  rw [answer]
  split
  · rename_i fault hfault
    exact .notShown hfault
  · exact .shown _

/-- The operation of a command, and a reply that may follow it. -/
theorem outcome_operate {operation : Display.Operation} {reply : Display → Except Failure Message}
    (hoperation : command.operation? d = some operation)
    (hreply : command.Outcome d (reply (command.performed d))) :
    (operate operation reply d).1 = command.performed d ∧
      command.Outcome d (operate operation reply d).2 := by
  have hperformed : command.performed d = (d.perform operation).1 := by
    rw [performed, hoperation]
  rw [operate]
  split
  · rename_i next failure hperform
    have hfailure : (d.perform operation).2 = some failure := by rw [hperform]
    exact ⟨by rw [hperformed, hperform], .failed hoperation hfailure⟩
  · rename_i next hperform
    have hnext : command.performed d = next := by rw [hperformed, hperform]
    exact ⟨hnext.symm, hnext ▸ hreply⟩

/-- **What a command leaves behind, and how it ends.** -/
theorem run_cases (author : Author) (d : Display) (command : Command) :
    (command.run author d).1 = command.performed d ∧
      command.Outcome d (command.run author d).2 := by
  cases command with
  | calculate parameter => exact outcome_operate rfl (outcome_answer _)
  | press parameter => exact outcome_operate rfl (outcome_panel author)
  | back =>
    rw [run]
    split
    · rename_i hnil
      have hnone : operation? d .back = none := if_pos hnil
      exact ⟨by rw [performed, hnone], .refused _ hnone⟩
    · rename_i hcons
      exact outcome_operate (if_neg hcons) (outcome_panel author)
  | clear => exact outcome_operate rfl (outcome_panel author)
  | evaluate => exact outcome_operate rfl (outcome_panel author)
  | look => exact ⟨rfl, outcome_panel author⟩

/-- What is true of a display at all times is true after a command. -/
theorem performed_of_perform {P : Display → Prop} (hd : P d)
    (hperform : ∀ operation, P (d.perform operation).1) : P (command.performed d) := by
  rw [performed]
  split
  · exact hperform _
  · exact hd

theorem precision_performed : (command.performed d).precision = d.precision :=
  performed_of_perform (P := fun d' => d'.precision = d.precision) rfl fun operation =>
    (Display.perform_result d operation).1

theorem settled_performed (h : d.Settled) : (command.performed d).Settled :=
  performed_of_perform h h.perform

/-- Only two commands perform operations that answer. -/
theorem calculate_or_evaluate_of_answers {operation : Display.Operation}
    (h : command.operation? d = some operation) (hanswers : operation.answers = true) :
    (∃ parameter, command = .calculate parameter) ∨ command = .evaluate := by
  cases command with
  | calculate parameter => exact .inl ⟨parameter, rfl⟩
  | evaluate => exact .inr rfl
  | back =>
    rw [operation?] at h
    split at h
    · cases h
    · cases h
      cases hanswers
  | press parameter => cases h; cases hanswers
  | clear => cases h; cases hanswers
  | look => cases h

/-- **Which failures are passed on**: overflows of a command that evaluates at a negative
precision. -/
theorem Outcome.isExpected_or_overflow {failure : Failure} (hd : d.Settled)
    (h : command.Outcome d (.error failure)) :
    failure.isExpected = true ∨
      failure = .overflow ∧ ((∃ parameter, command = .calculate parameter) ∨ command = .evaluate) ∧
        d.precision < 0 := by
  cases h with
  | refused text hnone => exact .inl rfl
  | notShown hfault =>
    refine .inl (Failure.isExpected_ofResult ?_)
    rintro rfl
    exact (settled_performed hd).output_ne_overflow hfault
  | failed hoperation hfailure =>
    rcases Display.failure_cases (Prod.ext rfl hfailure) with ⟨-, c, rfl⟩ | ⟨-, fault, rfl, htext⟩ |
      ⟨-, e, rfl, hknown⟩ | ⟨hanswers, rfl, hp⟩
    · exact .inl rfl
    · refine .inl (Failure.isExpected_ofResult ?_)
      rintro rfl
      exact resultText_ne_overflow hd htext
    · refine .inl (Failure.isExpected_ofDisplay nofun ?_)
      rintro _ symbol ⟨⟩
      exact hknown symbol
    · exact .inr ⟨rfl, calculate_or_evaluate_of_answers hoperation hanswers, hp⟩

/-- **A command that fails leaves its display alone**, if the precision counts places after the
point and fits into 32 bits: the display can be shown then, and operations that fail change
nothing. -/
theorem performed_eq_self_of_outcome {failure : Failure} (hp : 0 ≤ d.precision)
    (hlt : d.precision < 2 ^ 31) (h : command.Outcome d (.error failure)) :
    command.performed d = d := by
  cases h with
  | refused text hnone => rw [performed, hnone]
  | failed hoperation hfailure =>
    rw [performed, hoperation]
    exact Display.eq_self_of_failure hp hlt (Prod.ext rfl hfailure)
  | notShown hfault =>
    have hprecision : (command.performed d).precision = d.precision := precision_performed
    obtain ⟨text, htext⟩ := Display.exists_output (d := command.performed d) (by omega) (by omega)
    rw [htext] at hfault
    cases hfault

end Command

end Chat

end ChatCalculator

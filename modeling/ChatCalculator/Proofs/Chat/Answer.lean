import ChatCalculator.Proofs.Chat.Command
import ChatCalculator.Proofs.Chat.Kept

/-!
# One answer to every command

Every command is answered with one message: an embed if it succeeds, a text if it fails. A failure
is noted in the log and passed on only if it is none that users bring about, and of all the ways in
which a command can fail there is one such: a result that overflows when it is rounded.

## Why nothing else is passed on

Expressions report only faults that are explained, since no operator is missing from the table. A
display is found, as there is room for it. And showing a display does not overflow, because every
result that is kept has been rounded before. So an overflow comes from a new value only, and that
is rounded with places after the point unless the precision is negative.

## Main definitions

* `Bot.outcome`: what a command comes to, before it is reported

## Main results

* `Bot.report_step`: what follows from a command is the report of its outcome
* `Bot.answered_once`: after any run
-/

namespace ChatCalculator

namespace Chat

namespace Bot

variable {bot : Bot}

/-- What a command comes to: a message, or the failure that it ends with. -/
def outcome (bot : Bot) (caller : Caller) (command : Command) : Except Failure Message :=
  match (bot.obtain caller.place).2 with
  | .error failure => .error failure
  | .ok d => (command.run caller.author d).2

/-- **What follows from a command is the report of its outcome.** -/
theorem report_step (bot : Bot) (caller : Caller) (command : Command) :
    (bot.step caller command).2 =
      match bot.outcome caller command with
      | .ok message => { sent := [message] }
      | .error failure => failure.report caller.commandName := by
  rw [step, outcome]
  rcases bot.obtain caller.place with ⟨next, failure | d⟩
  · rfl
  · dsimp only
    rcases command.run caller.author d with ⟨changed, failure | message⟩
    · rfl
    · rfl

/-- A command ends like one on the display of its place, or cannot read the precision that is
set. -/
theorem outcome_cases (hcapacity : 1 ≤ bot.capacity) (caller : Caller) (command : Command) :
    (∃ text, bot.outcome caller command = .error (.invalidValue (some text))) ∨
      ∃ d, bot.displayAt caller.place = .ok d ∧ command.Outcome d (bot.outcome caller command) := by
  rw [outcome]
  cases hat : bot.displayAt caller.place with
  | error text => exact .inl ⟨text, by rw [obtain_eq_error hat]⟩
  | ok d =>
    rw [obtain_eq_keep hcapacity hat]
    exact .inr ⟨d, rfl, (Command.run_cases caller.author d command).2⟩

/-- Results are rounded at all times. -/
theorem settled_displayAt_run (hcapacity : 1 ≤ bot.capacity)
    (habsent : ∀ k, bot.displays.find? k = none) {events : List Event} {k : Place} {d : Display}
    (h : (bot.run events).displayAt k = .ok d) : d.Settled := by
  refine displayAt_run hcapacity habsent (fun _ _ p _ => Display.settled_initial p) ?_ h
  intro author command d hd
  rw [(Command.run_cases author d command).1]
  exact Command.settled_performed hd

/-- The precision of a display is one that was set. -/
theorem precision_displayAt_run (hcapacity : 1 ≤ bot.capacity)
    (habsent : ∀ k, bot.displays.find? k = none) {events : List Event} {k : Place} {d : Display}
    (h : (bot.run events).displayAt k = .ok d) :
    ∃ settings ∈ configured bot.settings events, settings.precision = .ok d.precision := by
  refine displayAt_run
    (P := fun d => ∃ settings ∈ configured bot.settings events,
      settings.precision = .ok d.precision)
    hcapacity habsent (fun settings hmem p hp => ⟨settings, hmem, hp⟩) ?_ h
  intro author command d hd
  rw [(Command.run_cases author d command).1, Command.precision_performed]
  exact hd

/-- **The outcomes of commands**, after any run of a bot that starts without displays. -/
theorem outcome_run_cases (hcapacity : 1 ≤ bot.capacity)
    (habsent : ∀ k, bot.displays.find? k = none) (events : List Event) (caller : Caller)
    (command : Command) :
    (∃ embed, (bot.run events).outcome caller command = .ok (.embed embed)) ∨
      (∃ failure, (bot.run events).outcome caller command = .error failure ∧
        failure.isExpected = true) ∨
      ((bot.run events).outcome caller command = .error .overflow ∧
        ((∃ parameter, command = .calculate parameter) ∨ command = .evaluate) ∧
          ∃ d, (bot.run events).displayAt caller.place = .ok d ∧ d.precision < 0) := by
  have hroom : 1 ≤ (bot.run events).capacity := by rwa [capacity_run hcapacity]
  rcases outcome_cases hroom caller command with ⟨text, h⟩ | ⟨d, hat, h⟩
  · exact .inr (.inl ⟨_, h, rfl⟩)
  · cases hout : (bot.run events).outcome caller command with
    | ok message =>
      rw [hout] at h
      cases h with
      | shown embed => exact .inl ⟨embed, rfl⟩
    | error failure =>
      rw [hout] at h
      rcases h.isExpected_or_overflow (settled_displayAt_run hcapacity habsent hat) with
        hexpected | ⟨rfl, hevaluates, hp⟩
      · exact .inr (.inl ⟨failure, rfl, hexpected⟩)
      · exact .inr (.inr ⟨rfl, hevaluates, d, hat, hp⟩)

/-- **Every command is answered once**, after any run of a bot that starts without displays: with
an embed if it comes to a message, with a text if it fails. The failure is passed on and noted in
the log only if it is an overflow, in a command that evaluates on a display of negative precision.
Without negative precisions, nothing is passed on or noted. -/
theorem answered_once {m : ℤ} (hm : 1 ≤ m) (settings : Settings) (events : List Event)
    (caller : Caller) (command : Command) :
    let start : Bot := { settings := settings, capacity := m }
    let bot := start.run events
    let report := (bot.step caller command).2
    ((∃ embed, bot.outcome caller command = .ok (.embed embed) ∧
        report = { sent := [.embed embed] }) ∨
      ∃ failure, bot.outcome caller command = .error failure ∧
        report.sent = [.text failure.message] ∧
        ((report.raised = none ∧ report.log = []) ∨
          (report.raised = some failure ∧ failure = .overflow ∧
            report.log = ["ERROR Unhandled error in " ++ caller.commandName] ∧
            ((∃ parameter, command = .calculate parameter) ∨ command = .evaluate) ∧
              ∃ d, (bot.obtain caller.place).2 = .ok d ∧ d.precision < 0))) ∧
      ((∀ s ∈ configured settings events, ∀ p, s.precision = .ok p → 0 ≤ p) →
        report.raised = none ∧ report.log = []) := by
  intro start bot report
  have hcapacity : 1 ≤ start.capacity := hm
  have hstart : ∀ k, start.displays.find? k = none := fun k => rfl
  have hreport : report = _ := report_step bot caller command
  rcases outcome_run_cases hcapacity hstart events caller command with
    ⟨embed, h⟩ | ⟨failure, h, hexpected⟩ | ⟨h, hevaluates, d, hat, hp⟩
  · rw [hreport, h]
    exact ⟨.inl ⟨embed, rfl, rfl⟩, fun _ => ⟨rfl, rfl⟩⟩
  · rw [hreport, h]
    dsimp only
    rw [report_of_isExpected hexpected]
    exact ⟨.inr ⟨failure, rfl, rfl, .inl ⟨rfl, rfl⟩⟩, fun _ => ⟨rfl, rfl⟩⟩
  · rw [hreport, h]
    have hroom : 1 ≤ bot.capacity := by rwa [capacity_run hcapacity]
    refine ⟨.inr ⟨.overflow, rfl, rfl, .inr ⟨rfl, rfl, rfl, hevaluates, d, ?_, hp⟩⟩, fun hset => ?_⟩
    · rw [obtain_eq_keep hroom hat]
    · obtain ⟨s, hmem, hs⟩ := precision_displayAt_run hm hstart hat
      have := hset s hmem _ hs
      omega

/-- A number next to the largest one is rounded up at the precision set. The bot answers with a
text, and passes the overflow on. -/
theorem answered_once_overflow :
    let settings := defaultSettings.insert "precision" (some "-308")
    let start : Bot := { settings := settings, capacity := 1 }
    let caller : Caller := ⟨⟨1, 1⟩, { name := "user", color := 0, icon := "" }, "calc"⟩
    let command : Command := .calculate ('1' :: '7' :: List.replicate 307 '0')
    let report := (start.step caller command).2
    (1 : ℤ) ≤ 1 ∧ (∃ text, report.sent = [.text text]) ∧ report.raised = some .overflow ∧
      ∃ d, (start.obtain caller.place).2 = .ok d ∧ d.precision < 0 := by
  intro settings start caller command report
  have hraised : report.raised = some .overflow := by decide +kernel
  obtain ⟨⟨embed, -, hsent⟩ | ⟨failure, -, hsent, ⟨hnone, -⟩ | ⟨-, -, -, -, hd⟩⟩, -⟩ :=
    answered_once (m := 1) (by decide) settings [] caller command
  · have : report.raised = none := congrArg Report.raised hsent
    rw [this] at hraised
    cases hraised
  · have : report.raised = none := hnone
    rw [this] at hraised
    cases hraised
  · exact ⟨le_refl 1, ⟨_, hsent⟩, hraised, hd⟩

end Bot

end Chat

end ChatCalculator

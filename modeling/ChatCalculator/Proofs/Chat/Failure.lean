import ChatCalculator.Proofs.Chat.Answer

/-!
# Commands that fail leave the calculators alone

A command first obtains its display and then changes it, and only after that it is clear whether
the display can be shown. A failure that comes so late would leave a changed calculator behind the
text of an error. With places after the point that fit into 32 bits it never comes late: what is
changed can be shown.

What a failed command does all the same is to use its display. It becomes the last used one, and if
it is a new one, it may push out the display that was used least recently.

## Main results

* `Bot.outcome_eq_error_of_text`: a command that is answered with a text has failed
* `Bot.step_of_outcome_eq_error`: a failed command keeps its display as it was
* `Bot.keep_frame`: what becomes of the displays if one of them is merely used
* `Bot.failed_command_frame`: what a failed command does to the displays
-/

namespace ChatCalculator

namespace Chat

namespace Bot

variable {bot : Bot}

/-- A command that is answered with a text has failed. -/
theorem outcome_eq_error_of_text (hcapacity : 1 ≤ bot.capacity) {caller : Caller}
    {command : Command} {text : String}
    (h : .text text ∈ (bot.step caller command).2.sent) :
    ∃ failure, bot.outcome caller command = .error failure := by
  rw [report_step] at h
  cases hout : bot.outcome caller command with
  | error failure => exact ⟨failure, rfl⟩
  | ok message =>
    rcases outcome_cases hcapacity caller command with ⟨text', herror⟩ | ⟨d, -, hcases⟩
    · rw [hout] at herror
      cases herror
    · rw [hout] at hcases h
      cases hcases with
      | shown embed => cases List.mem_singleton.mp h

/-- **A failed command keeps its display as it was**, or has none and does nothing. -/
theorem step_of_outcome_eq_error (hcapacity : 1 ≤ bot.capacity) {caller : Caller}
    {command : Command} {failure : Failure}
    (hprecision : ∀ d, bot.displayAt caller.place = .ok d → 0 ≤ d.precision ∧ d.precision < 2 ^ 31)
    (h : bot.outcome caller command = .error failure) :
    (bot.step caller command).1 = bot ∨
      ∃ d, bot.displayAt caller.place = .ok d ∧
        (bot.step caller command).1 = bot.keep caller.place d := by
  cases hat : bot.displayAt caller.place with
  | error text => exact .inl (by rw [step_eq_self command hat])
  | ok d =>
    obtain ⟨hfst, houtcome⟩ := Command.run_cases caller.author d command
    have hrun : (command.run caller.author d).2 = .error failure := by
      rw [← h, outcome, obtain_eq_keep hcapacity hat]
    rw [hrun] at houtcome
    obtain ⟨hp, hlt⟩ := hprecision d hat
    refine .inr ⟨d, rfl, ?_⟩
    rw [step_eq_keep hcapacity command hat, fst_respond, hfst,
      Command.performed_eq_self_of_outcome hp hlt houtcome]

/-- **What the mere use of a display does.** The displays that are still there are what they were, a
display that was not there is a new one, and a display that is gone was the one used least recently
and had to make room. -/
theorem keep_frame (hcapacity : 1 ≤ bot.capacity) {place : Place} {d₀ : Display}
    (hat : bot.displayAt place = .ok d₀) :
    (∀ k d d', bot.displays.find? k = some d →
        (bot.keep place d₀).displays.find? k = some d' → d' = d) ∧
      (∀ k d', bot.displays.find? k = none → (bot.keep place d₀).displays.find? k = some d' →
        k = place ∧ ∃ p, bot.settings.precision = .ok p ∧ d' = { precision := p }) ∧
      ∀ k d, bot.displays.find? k = some d → (bot.keep place d₀).displays.find? k = none →
        bot.displays.keys.head? = some k ∧ place ∉ bot.displays.keys ∧
          bot.capacity ≤ bot.displays.size := by
  have hkept := (keep_place hcapacity place d₀).1
  refine ⟨fun k d d' hd hd' => ?_, fun k d' hnone hd' => ?_, fun k d hd hlost =>
    head?_of_find?_keep_eq_none hcapacity hd hlost⟩
  · by_cases hk : place = k
    · subst hk
      rw [displayAt_of_find?_eq_some hd] at hat
      cases hat
      rw [hkept] at hd'
      exact (Option.some.inj hd').symm
    · rw [find?_of_find?_keep hk hd'] at hd
      exact Option.some.inj hd
  · by_cases hk : place = k
    · subst hk
      rw [displayAt_of_find?_eq_none hnone] at hat
      obtain ⟨p, hp, rfl⟩ := map_eq_ok_iff.mp hat
      rw [hkept] at hd'
      exact ⟨rfl, p, hp, (Option.some.inj hd').symm⟩
    · rw [find?_of_find?_keep hk hd'] at hnone
      cases hnone

/-- **A failed command does not touch what calculators hold.** Let a bot with room for `m` displays
have come from one without displays, and let all precisions, that of new displays included, count
places after the point and fit into 32 bits. If a command is answered with a text, then every
display that is still there is what it was, a display that was not there is a new one of the caller,
and a display that is gone was the one used least recently, when the caller had none and there was
no room. -/
theorem failed_command_frame {m : ℕ} (hm : 1 ≤ m) {settings : Settings} {events : List Event}
    {bot : Bot} (hbot : Bot.run { settings := settings, capacity := m } events = bot)
    (hdisplays : ∀ k d, bot.displays.find? k = some d → 0 ≤ d.precision ∧ d.precision < 2 ^ 31)
    (hset : ∀ p, bot.settings.precision = .ok p → 0 ≤ p ∧ p < 2 ^ 31) {caller : Caller}
    {command : Command} {text : String} (htext : .text text ∈ (bot.step caller command).2.sent) :
    let next := (bot.step caller command).1
    (∀ k d d', bot.displays.find? k = some d → next.displays.find? k = some d' → d' = d) ∧
      (∀ k d', bot.displays.find? k = none → next.displays.find? k = some d' →
        k = caller.place ∧ ∃ p, bot.settings.precision = .ok p ∧ d' = { precision := p }) ∧
      ∀ k d, bot.displays.find? k = some d → next.displays.find? k = none →
        bot.displays.keys.head? = some k ∧ caller.place ∉ bot.displays.keys ∧
          bot.displays.size = m := by
  intro next
  have hstart : 1 ≤ (Bot.capacity { settings := settings, capacity := m }) := Int.ofNat_le.mpr hm
  have hcapacity : bot.capacity = m := by rw [← hbot, capacity_run hstart]
  have hone : 1 ≤ bot.capacity := by omega
  have hsize : bot.displays.size ≤ m := hbot ▸ size_run_initial_le hm settings events
  have hprecision : ∀ d, bot.displayAt caller.place = .ok d →
      0 ≤ d.precision ∧ d.precision < 2 ^ 31 := by
    intro d hat
    rcases displayAt_eq_ok_iff.mp hat with hfind | ⟨-, p, hp, rfl⟩
    · exact hdisplays _ _ hfind
    · exact hset p hp
  obtain ⟨failure, hfailure⟩ := outcome_eq_error_of_text hone htext
  rcases step_of_outcome_eq_error hone hprecision hfailure with hnext | ⟨d₀, hat, hnext⟩
  · -- nothing has happened
    rw [show next = bot from hnext]
    refine ⟨fun k d d' hd hd' => ?_, fun k d' hnone hd' => ?_, fun k d hd hnone => ?_⟩
    · rw [hd] at hd'
      exact (Option.some.inj hd').symm
    · rw [hnone] at hd'
      cases hd'
    · rw [hd] at hnone
      cases hnone
  · rw [show next = bot.keep caller.place d₀ from hnext]
    obtain ⟨hsame, hnew, hgone⟩ := keep_frame hone hat
    refine ⟨hsame, hnew, fun k d hd hlost => ?_⟩
    obtain ⟨hhead, habsent, hfull⟩ := hgone k d hd hlost
    exact ⟨hhead, habsent, by omega⟩

/-- Room for one display: a second user, whose first command fails, pushes out the display of the
first one and is left with a new one. -/
theorem failed_command_frame_one :
    let start : Bot := { settings := defaultSettings, capacity := (1 : ℕ) }
    let author : Author := { name := "user", color := 0, icon := "" }
    let bot := start.run [.command ⟨⟨1, 1⟩, author, "calc press"⟩ (.press ['2'])]
    let next := bot.step ⟨⟨1, 2⟩, author, "calc press"⟩ (.press ['x'])
    next.2.sent = [.text "Invalid parameter: Not a calculator key: x"] ∧
      bot.displays.keys.head? = some ⟨1, 1⟩ ∧ bot.displays.size = 1 ∧
        next.1.displays.find? ⟨1, 2⟩ = some { precision := 8 } := by
  intro start author bot next
  have hsent : next.2.sent = [.text "Invalid parameter: Not a calculator key: x"] := by decide
  have hprecision : defaultSettings.precision = .ok 8 := by decide
  have hset : ∀ p, bot.settings.precision = .ok p → 0 ≤ p ∧ p < 2 ^ 31 := by
    rintro p hp
    cases hprecision.symm.trans hp
    decide
  have hdisplays : ∀ k d, bot.displays.find? k = some d →
      0 ≤ d.precision ∧ d.precision < 2 ^ 31 := by
    intro k d hd
    have hcapacity : 1 ≤ start.capacity := by decide
    obtain ⟨settings, hmem, hd⟩ := precision_displayAt_run hcapacity (fun _ => rfl)
      (displayAt_of_find?_eq_some hd)
    cases List.mem_singleton.mp hmem
    exact hset _ hd
  obtain ⟨-, hnew, hgone⟩ :=
    failed_command_frame (m := 1) (by decide) rfl hdisplays hset (hsent ▸ List.mem_singleton_self _)
  obtain ⟨first, hfirst⟩ :=
    Registry.exists_find?_of_mem_keys (show ⟨1, 1⟩ ∈ bot.displays.keys by decide)
  obtain ⟨d, hd⟩ :=
    Registry.exists_find?_of_mem_keys (show ⟨1, 2⟩ ∈ next.1.displays.keys by decide)
  obtain ⟨hhead, -, hsize⟩ := hgone ⟨1, 1⟩ first hfirst (by decide)
  obtain ⟨-, p, hp, rfl⟩ := hnew ⟨1, 2⟩ d (by decide) hd
  cases hprecision.symm.trans hp
  exact ⟨hsent, hhead, hsize, hd⟩

end Bot

end Chat

end ChatCalculator

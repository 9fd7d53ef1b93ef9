import ChatCalculator.Chat.Bot
import ChatCalculator.Proofs.Recency

/-!
# What a command does to the bot

A command works on the display of its place, which is a new one if there is none. What becomes of
that display and what is answered depend on that display only; the bot then keeps the changed
display as the last used one. A new display may push out another one, and it is not made at all if
the precision that is set cannot be read.

## Main definitions

* `Bot.displayAt`: the display that a command of a place works on
* `respond`: the display after a command and what follows from the command
* `Bot.keep`: the bot after a display was used

## Main results

* `Bot.step_eq_keep`, `Bot.step_eq_self`: a command, told by these three
* `Bot.keep_place`: a display that was used is there, and behind all others
* `Bot.keep_of_ne`: another display stays, unless as many others as there is room for were used
-/

namespace ChatCalculator

namespace Chat

/-- The display after a command on it, and what follows from the command. -/
def respond (caller : Caller) (command : Command) (d : Display) : Display × Report :=
  match command.run caller.author d with
  | (changed, .error failure) => (changed, failure.report caller.commandName)
  | (changed, .ok message) => (changed, { sent := [message] })

namespace Bot

/-- The display that a command of a place works on, or the text of a precision of no use. -/
def displayAt (bot : Bot) (place : Place) : Except String Display :=
  match bot.displays.find? place with
  | some d => .ok d
  | none => bot.settings.precision.map fun precision => { precision := precision }

/-- Keeps a display as the last used one of its place. Only a new one can push another one out. -/
def keep (bot : Bot) (place : Place) (d : Display) : Bot :=
  if place ∈ bot.displays.keys then { bot with displays := bot.displays.push place d }
  else bot.addDisplay place d

variable {bot : Bot}

/-! ### Keeping a display -/

theorem settings_keep (place : Place) (d : Display) :
    (bot.keep place d).settings = bot.settings := by
  rw [keep]
  split <;> rfl

theorem capacity_keep (place : Place) (d : Display) :
    (bot.keep place d).capacity = bot.capacity := by
  rw [keep]
  split <;> rfl

theorem displays_addDisplay (place : Place) (d : Display) :
    (bot.addDisplay place d).displays =
      if bot.capacity < (bot.displays.push place d).size then (bot.displays.push place d).tail
      else bot.displays.push place d :=
  rfl

/-- Adding a display does not push out one that is used late enough. -/
theorem addDisplay_of_followedWithin {k place : Place} {d : Display} {later : Finset Place}
    (h : (bot.displays.push place d).FollowedWithin k later)
    (hroom : (later.card : ℤ) < bot.capacity) :
    (bot.addDisplay place d).displays.find? k = (bot.displays.push place d).find? k ∧
      (bot.addDisplay place d).displays.FollowedWithin k later := by
  rw [displays_addDisplay]
  split
  · have hhead : (bot.displays.push place d).keys.head? ≠ some k := h.head?_ne (by omega)
    exact ⟨Registry.find?_tail hhead, h.tail hhead⟩
  · exact ⟨rfl, h⟩

/-- **A display that was used is there**, and no other one was used later. -/
theorem keep_place (hcapacity : 1 ≤ bot.capacity) (place : Place) (d : Display) :
    (bot.keep place d).displays.find? place = some d ∧
      (bot.keep place d).displays.FollowedWithin place ∅ := by
  have hpush := Registry.followedWithin_push bot.displays place d
  have hfind : (bot.displays.push place d).find? place = some d := by
    rw [Registry.find?_push, if_pos rfl]
  rw [keep]
  split
  · exact ⟨hfind, hpush⟩
  · rw [← hfind]
    exact addDisplay_of_followedWithin hpush (by rw [Finset.card_empty]; omega)

/-- **Another display stays**, unless there is only room for those that were used since. -/
theorem keep_of_ne {k place : Place} {later : Finset Place}
    (h : bot.displays.FollowedWithin k later) (hne : place ≠ k)
    (hroom : ((later ∪ {place}).card : ℤ) < bot.capacity) (d : Display) :
    (bot.keep place d).displays.find? k = bot.displays.find? k ∧
      (bot.keep place d).displays.FollowedWithin k (later ∪ {place}) := by
  have hpush := h.push hne d
  have hfind : (bot.displays.push place d).find? k = bot.displays.find? k := by
    rw [Registry.find?_push, if_neg hne.symm]
  rw [keep]
  split
  · exact ⟨hfind, hpush⟩
  · rw [← hfind]
    exact addDisplay_of_followedWithin hpush hroom

/-- Keeping a display changes no other one. -/
theorem find?_of_find?_keep {k place : Place} {d d' : Display} (hne : place ≠ k)
    (h : (bot.keep place d).displays.find? k = some d') : bot.displays.find? k = some d' := by
  have hpush : (bot.displays.push place d).find? k = some d' := by
    rw [keep] at h
    split at h
    · exact h
    · rw [displays_addDisplay] at h
      split at h
      · exact Registry.find?_of_find?_tail h
      · exact h
  rwa [Registry.find?_push, if_neg hne.symm] at hpush

/-- A display that is not there does not come by keeping another one. -/
theorem find?_keep_eq_none {k place : Place} (h : bot.displays.find? k = none) (hne : place ≠ k)
    (d : Display) : (bot.keep place d).displays.find? k = none := by
  rw [Option.eq_none_iff_forall_ne_some]
  intro d' hd'
  rw [find?_of_find?_keep hne hd'] at h
  cases h

/-- **Only the first display can be pushed out**, and only by a new one that does not fit. -/
theorem head?_of_find?_keep_eq_none (hcapacity : 1 ≤ bot.capacity) {k place : Place}
    {d d' : Display} (h : bot.displays.find? k = some d)
    (hlost : (bot.keep place d').displays.find? k = none) :
    bot.displays.keys.head? = some k ∧ place ∉ bot.displays.keys ∧
      bot.capacity ≤ bot.displays.size := by
  have hne : place ≠ k := by
    rintro rfl
    rw [(keep_place hcapacity place d').1] at hlost
    cases hlost
  have hpush : (bot.displays.push place d').find? k = some d := by
    rw [Registry.find?_push, if_neg hne.symm, h]
  rw [keep] at hlost
  split at hlost
  · rw [hpush] at hlost
    cases hlost
  · rename_i habsent
    rw [displays_addDisplay] at hlost
    split at hlost
    · rename_i hfull
      have hhead : (bot.displays.push place d').keys.head? = some k := by
        by_contra hhead
        rw [Registry.find?_tail hhead, hpush] at hlost
        cases hlost
      rw [Registry.keys_push_of_notMem habsent, List.head?_append_of_ne_nil _
        (List.ne_nil_of_mem (Registry.mem_keys_of_find?_eq_some h))] at hhead
      rw [Registry.size_push_of_notMem habsent] at hfull
      exact ⟨hhead, habsent, by omega⟩
    · rw [hpush] at hlost
      cases hlost

theorem update_keep (place : Place) (d changed : Display) :
    (bot.keep place d).update place changed = bot.keep place changed := by
  rw [keep, keep]
  split
  · simp only [update, Registry.replace_push]
  · simp only [addDisplay, update, Registry.size_push]
    split
    · rw [Registry.replace_tail, Registry.replace_push]
    · rw [Registry.replace_push]

/-! ### Commands -/

theorem displayAt_of_find?_eq_some {place : Place} {d : Display}
    (h : bot.displays.find? place = some d) : bot.displayAt place = .ok d := by
  rw [displayAt, h]

theorem displayAt_of_find?_eq_none {place : Place} (h : bot.displays.find? place = none) :
    bot.displayAt place =
      bot.settings.precision.map fun precision => { precision := precision } := by
  rw [displayAt, h]

/-- The display that a command works on is there, or is a new one. -/
theorem displayAt_eq_ok_iff {place : Place} {d : Display} :
    bot.displayAt place = .ok d ↔ bot.displays.find? place = some d ∨
      bot.displays.find? place = none ∧
        ∃ precision, bot.settings.precision = .ok precision ∧ d = { precision := precision } := by
  cases hfind : bot.displays.find? place with
  | some d' => simp [displayAt_of_find?_eq_some hfind]
  | none =>
    rw [displayAt_of_find?_eq_none hfind]
    cases bot.settings.precision with
    | error text => simp [Except.map]
    | ok precision => simp [Except.map, eq_comm]

/-- A display that cannot be made is not there. -/
theorem displayAt_eq_error_iff {place : Place} {text : String} :
    bot.displayAt place = .error text ↔
      bot.displays.find? place = none ∧ bot.settings.precision = .error text := by
  cases hfind : bot.displays.find? place with
  | some d => simp [displayAt_of_find?_eq_some hfind]
  | none =>
    rw [displayAt_of_find?_eq_none hfind]
    cases bot.settings.precision with
    | error text' => simp [Except.map]
    | ok precision => simp [Except.map]

/-- A command finds a display, or makes one if the precision that is set can be read. -/
theorem exists_displayAt {place : Place}
    (h : place ∈ bot.displays.keys ∨ ∃ precision, bot.settings.precision = .ok precision) :
    ∃ d, bot.displayAt place = .ok d := by
  cases hat : bot.displayAt place with
  | ok d => exact ⟨d, rfl⟩
  | error text =>
    obtain ⟨hfind, herror⟩ := displayAt_eq_error_iff.mp hat
    rcases h with hmem | ⟨precision, hprecision⟩
    · exact absurd hmem (Registry.find?_eq_none_iff.mp hfind)
    · rw [hprecision] at herror
      cases herror

/-- Obtaining a display keeps it as it is. -/
theorem obtain_eq_keep (hcapacity : 1 ≤ bot.capacity) {place : Place} {d : Display}
    (h : bot.displayAt place = .ok d) : bot.obtain place = (bot.keep place d, .ok d) := by
  rcases displayAt_eq_ok_iff.mp h with hfind | ⟨hfind, precision, hprecision, rfl⟩
  · rw [obtain, hfind, keep, if_pos (Registry.mem_keys_of_find?_eq_some hfind)]
  · -- there is room for the new display, so it is found
    have hkept := (keep_place hcapacity place { precision := precision }).1
    rw [keep, if_neg (Registry.find?_eq_none_iff.mp hfind)] at hkept ⊢
    simp only [obtain, hfind, hprecision, hkept]

/-- A display that cannot be made is not obtained. -/
theorem obtain_eq_error {place : Place} {text : String}
    (h : bot.displayAt place = .error text) :
    bot.obtain place = (bot, .error (.invalidValue (some text))) := by
  obtain ⟨hfind, hprecision⟩ := displayAt_eq_error_iff.mp h
  simp only [obtain, hfind, hprecision]

/-- **A command is answered from its display**, which is kept. -/
theorem step_eq_keep (hcapacity : 1 ≤ bot.capacity) {caller : Caller} (command : Command)
    {d : Display} (h : bot.displayAt caller.place = .ok d) :
    bot.step caller command =
      (bot.keep caller.place (respond caller command d).1, (respond caller command d).2) := by
  simp only [step, obtain_eq_keep hcapacity h, respond, update_keep]
  rcases command.run caller.author d with ⟨changed, failure | message⟩
  · rfl
  · rfl

/-- A command that cannot make a display leaves the bot as it was. -/
theorem step_eq_self {caller : Caller} (command : Command) {text : String}
    (h : bot.displayAt caller.place = .error text) :
    bot.step caller command =
      (bot, (Failure.invalidValue (some text)).report caller.commandName) := by
  simp only [step, obtain_eq_error h]

end Bot

end Chat

end ChatCalculator

import ChatCalculator.Proofs.Chat.Run
import ChatCalculator.Proofs.Chat.Step

/-!
# The displays that are kept

The displays are kept like pages in a cache. Which ones are there, and in which order, can be told
from the past alone: they are those of the places whose commands obtained a display, ordered by the
last such command and cut to as many as there is room for. The bot itself knows nothing of the
past; it moves or adds one display at a time and drops at most one.

## What counts as a use

A command uses the display that it obtains, whether the command succeeds or not. Only a command
that should make a new display but cannot, since the precision that is set is of no use, obtains
none, and leaves everything as it was.

A display that was dropped may come back as a new one. So the display of a place depends on the
commands of that place since it was last made, and on the precision that was set then.

## Main definitions

* `Event.actOn`: a display after an event, if only commands of its own place change it
* `Bot.Origin`: when a display was last made, and what has been done with it since

## Main results

* `Bot.keys_keep`, `Bot.keys_run`: the order of the displays, for one use and for a run
* `Bot.exists_origin`: every display has an origin
* `Bot.displayAt_run`: what is true of new displays and kept by commands is true of all displays
* `Bot.run_keeps_last_used`: both, from a bot without displays
-/

namespace ChatCalculator

namespace Chat

/-- The display of a place after an event: only commands of that place change it. -/
def Event.actOn (k : Place) (d : Display) : Event → Display
  | .command caller asked => if caller.place = k then (asked.run caller.author d).1 else d
  | .configure _ => d

theorem fst_respond (caller : Caller) (command : Command) (d : Display) :
    (respond caller command d).1 = (command.run caller.author d).1 := by
  rw [respond]
  rcases command.run caller.author d with ⟨changed, failure | message⟩
  · rfl
  · rfl

namespace Bot

variable {bot : Bot}

/-! ### One event -/

/-- **What an event can do.** -/
theorem after_cases (hcapacity : 1 ≤ bot.capacity) (e : Event) :
    (∃ settings, e = .configure settings ∧ bot.after e = bot.configure settings) ∨
      (∃ caller command text, e = .command caller command ∧
        bot.displayAt caller.place = .error text ∧ bot.after e = bot) ∨
      ∃ caller command d, e = .command caller command ∧ bot.displayAt caller.place = .ok d ∧
        bot.after e = bot.keep caller.place (command.run caller.author d).1 := by
  cases e with
  | configure settings => exact .inl ⟨settings, rfl, rfl⟩
  | command caller command =>
    refine .inr ?_
    cases hat : bot.displayAt caller.place with
    | error text =>
      exact .inl ⟨caller, command, text, rfl, hat, by rw [after, step_eq_self command hat]⟩
    | ok d =>
      refine .inr ⟨caller, command, d, rfl, hat, ?_⟩
      rw [after, step_eq_keep hcapacity command hat, fst_respond]

theorem capacity_after (hcapacity : 1 ≤ bot.capacity) (e : Event) :
    (bot.after e).capacity = bot.capacity := by
  rcases after_cases hcapacity e with ⟨_, _, h⟩ | ⟨_, _, _, _, _, h⟩ | ⟨_, _, _, _, _, h⟩
  · rw [h]; rfl
  · rw [h]
  · rw [h, capacity_keep]

theorem capacity_run (hcapacity : 1 ≤ bot.capacity) (events : List Event) :
    (bot.run events).capacity = bot.capacity := by
  induction events using List.reverseRecOn with
  | nil => rfl
  | append_singleton events e ih =>
    rw [run_concat, capacity_after (by omega), ih]

/-- The settings after a run were put in place by it, or were there before. -/
theorem settings_run (hcapacity : 1 ≤ bot.capacity) (events : List Event) :
    (bot.run events).settings ∈ configured bot.settings events := by
  induction events using List.reverseRecOn with
  | nil => exact List.mem_cons_self
  | append_singleton events e ih =>
    have hroom : 1 ≤ (bot.run events).capacity := by rwa [capacity_run hcapacity]
    have hsub := configured_subset_append bot.settings events [e]
    rw [run_concat]
    rcases after_cases hroom e with ⟨settings, rfl, h⟩ | ⟨_, _, _, _, _, h⟩ | ⟨_, _, _, _, _, h⟩
    · rw [h, configured, List.filterMap_append]
      exact List.mem_cons_of_mem _ (List.mem_append_right _ (List.mem_singleton_self _))
    · rw [h]
      exact hsub ih
    · rw [h, settings_keep]
      exact hsub ih

theorem usedBy_of_ok (hcapacity : 1 ≤ bot.capacity) {caller : Caller} {d : Display}
    (h : bot.displayAt caller.place = .ok d) (command : Command) :
    bot.usedBy (.command caller command) = some caller.place := by
  simp only [usedBy, obtain_eq_keep hcapacity h]

theorem usedBy_of_error {caller : Caller} {text : String}
    (h : bot.displayAt caller.place = .error text) (command : Command) :
    bot.usedBy (.command caller command) = none := by
  simp only [usedBy, obtain_eq_error h]

/-! ### The order of the displays -/

/-- One use puts the place last and cuts the displays to as many as there is room for. -/
theorem keys_keep {m : ℕ} (hm : bot.capacity = m) (hsize : bot.displays.size ≤ m) (place : Place)
    (d : Display) :
    (bot.keep place d).displays.keys =
      (bot.displays.keys.filter (· ≠ place) ++ [place]).rtake m := by
  have hlength := Registry.length_keys bot.displays
  rw [keep]
  split
  · rename_i hmem
    have hfilter : (bot.displays.keys.filter (· ≠ place)).length < bot.displays.keys.length :=
      List.length_filter_lt_length_iff_exists.mpr ⟨place, hmem, by simp⟩
    rw [rtake_of_length_le (by rw [List.length_append, List.length_singleton]; omega)]
    exact Registry.keys_push bot.displays place d
  · rename_i habsent
    have hpush := Registry.keys_push_of_notMem habsent d
    have hcount := Registry.size_push_of_notMem habsent d
    rw [displays_addDisplay, hcount, hm, ← Registry.keys_push, hpush]
    split
    · rw [Registry.keys_tail, hpush, List.rtake, List.length_append, List.length_singleton, hlength,
        show bot.displays.size + 1 - m = 1 by omega, List.drop_one]
    · rw [hpush, rtake_of_length_le]
      rw [List.length_append, List.length_singleton, hlength]
      omega

theorem keys_after {m : ℕ} (hm : bot.capacity = m) (hone : 1 ≤ m) {uses : List Place}
    (h : bot.displays.keys = lastUsed m uses) (e : Event) :
    (bot.after e).displays.keys = lastUsed m (uses ++ (bot.usedBy e).toList) := by
  have hcapacity : 1 ≤ bot.capacity := by omega
  rcases after_cases hcapacity e with ⟨settings, rfl, hafter⟩ |
    ⟨caller, command, text, rfl, hat, hafter⟩ | ⟨caller, command, d, rfl, hat, hafter⟩
  · rw [hafter, usedBy, Option.toList_none, List.append_nil]
    exact h
  · rw [hafter, usedBy_of_error hat, Option.toList_none, List.append_nil, h]
  · have hsize : bot.displays.size ≤ m := by
      rw [← Registry.length_keys, h]
      exact length_lastUsed_le m uses
    rw [hafter, usedBy_of_ok hcapacity hat, Option.toList_some, lastUsed_concat, ← h]
    exact keys_keep hm hsize caller.place _

/-- **The displays after a run** are those used last. -/
theorem keys_run {m : ℕ} (hm : bot.capacity = m) (hone : 1 ≤ m) {uses : List Place}
    (h : bot.displays.keys = lastUsed m uses) (events : List Event) :
    (bot.run events).displays.keys = lastUsed m (uses ++ bot.used events) := by
  induction events generalizing bot uses with
  | nil => rw [used, List.append_nil]; exact h
  | cons e events ih =>
    have hcapacity : (bot.after e).capacity = m := by rw [capacity_after (by omega), hm]
    rw [run_cons, ih hcapacity (keys_after hm hone h e), used, List.append_assoc]

theorem keys_run_initial {m : ℕ} (hm : 1 ≤ m) (settings : Settings) (events : List Event) :
    let start : Bot := { settings := settings, capacity := m }
    (start.run events).displays.keys = lastUsed m (start.used events) := by
  intro start
  have hnone : start.displays.keys = lastUsed m [] := (lastUsed_nil m).symm
  exact keys_run rfl hm hnone events

/-- There are never more displays than there is room for. -/
theorem size_run_initial_le {m : ℕ} (hm : 1 ≤ m) (settings : Settings) (events : List Event) :
    (run { settings := settings, capacity := m } events).displays.size ≤ m := by
  rw [← Registry.length_keys, keys_run_initial hm]
  exact length_lastUsed_le m _

/-! ### What became of a display -/

/-- When the display of a place was last made, and what it has become since. -/
structure Origin (bot : Bot) (k : Place) (before since : List Event) (d : Display) : Prop where
  /-- It was made by a command of the place. -/
  opening : ∃ caller command rest, since = .command caller command :: rest ∧ caller.place = k
  /-- The place had no display then. -/
  absent : k ∉ (bot.run before).displays.keys
  /-- It has had one ever since. -/
  kept : ∀ earlier, earlier <+: since → earlier ≠ [] →
    k ∈ (bot.run (before ++ earlier)).displays.keys
  /-- A new display, with the precision set then, has become this one under the commands of the
  place. -/
  display_eq : ∃ precision, (bot.run before).settings.precision = .ok precision ∧
    d = since.foldl (Event.actOn k) { precision := precision }

variable {k : Place} {before since : List Event} {d : Display}

/-- As long as a display is not dropped, only its origin and its own commands matter. -/
theorem Origin.concat (h : bot.Origin k before since d) {e : Event}
    (hmem : k ∈ (bot.run ((before ++ since) ++ [e])).displays.keys) :
    bot.Origin k before (since ++ [e]) (e.actOn k d) where
  opening := by
    obtain ⟨caller, command, rest, rfl, hk⟩ := h.opening
    exact ⟨caller, command, rest ++ [e], rfl, hk⟩
  absent := h.absent
  kept earlier hearlier hne := by
    rcases List.prefix_concat_iff.mp hearlier with rfl | hprefix
    · rwa [← List.append_assoc]
    · exact h.kept earlier hprefix hne
  display_eq := by
    obtain ⟨precision, hprecision, rfl⟩ := h.display_eq
    exact ⟨precision, hprecision, by rw [List.foldl_append]; rfl⟩

/-- A command of a place without a display makes a new one. -/
theorem Origin.single {caller : Caller} {command : Command} {precision : ℤ}
    (habsent : caller.place ∉ (bot.run before).displays.keys)
    (hprecision : (bot.run before).settings.precision = .ok precision)
    (hmem : caller.place ∈ (bot.run (before ++ [.command caller command])).displays.keys) :
    bot.Origin caller.place before [.command caller command]
      (command.run caller.author { precision := precision }).1 where
  opening := ⟨caller, command, [], rfl, rfl⟩
  absent := habsent
  kept earlier hearlier hne := by
    rcases List.prefix_cons_iff.mp hearlier with rfl | ⟨rest, rfl, hrest⟩
    · exact absurd rfl hne
    · rwa [List.prefix_nil.mp hrest]
  display_eq := ⟨precision, hprecision, (if_pos rfl).symm⟩

/-- **Every display has an origin**, if it was not there in the beginning. -/
theorem exists_origin (hcapacity : 1 ≤ bot.capacity) (habsent : bot.displays.find? k = none)
    {events : List Event} (h : (bot.run events).displays.find? k = some d) :
    ∃ before since, events = before ++ since ∧ bot.Origin k before since d := by
  induction events using List.reverseRecOn generalizing d with
  | nil =>
    rw [run_nil, habsent] at h
    cases h
  | append_singleton events e ih =>
    have hmem := Registry.mem_keys_of_find?_eq_some h
    -- a display that an event leaves as it is keeps its origin
    have hsame : ∀ d₀, (bot.run events).displays.find? k = some d₀ → d = e.actOn k d₀ →
        ∃ before since, events ++ [e] = before ++ since ∧ bot.Origin k before since d := by
      rintro d₀ hd₀ rfl
      obtain ⟨before, since, rfl, horigin⟩ := ih hd₀
      exact ⟨before, since ++ [e], List.append_assoc _ _ _, horigin.concat hmem⟩
    rw [run_concat] at h
    have hroom : 1 ≤ (bot.run events).capacity := by rwa [capacity_run hcapacity]
    rcases after_cases hroom e with ⟨settings, rfl, hafter⟩ |
      ⟨caller, command, text, rfl, hat, hafter⟩ | ⟨caller, command, d₀, rfl, hat, hafter⟩
    · rw [hafter] at h
      exact hsame d h rfl
    · rw [hafter] at h
      have hne : caller.place ≠ k := by
        rintro rfl
        rw [(displayAt_eq_error_iff.mp hat).1] at h
        cases h
      exact hsame d h (if_neg hne).symm
    · rw [hafter] at h
      by_cases hk : caller.place = k
      · subst hk
        rw [(keep_place hroom _ _).1] at h
        cases h
        have hact : (command.run caller.author d₀).1 =
            (Event.command caller command).actOn caller.place d₀ := (if_pos rfl).symm
        rcases displayAt_eq_ok_iff.mp hat with hfind | ⟨hfind, precision, hprecision, rfl⟩
        · exact hsame d₀ hfind hact
        · exact ⟨events, _, rfl, .single (Registry.find?_eq_none_iff.mp hfind) hprecision hmem⟩
      · exact hsame d (find?_of_find?_keep hk h) (if_neg hk).symm

/-- What is true of new displays and is kept by commands is true of every display. -/
theorem Origin.display {P : Display → Prop} (h : bot.Origin k before since d)
    (hnew : ∀ precision, (bot.run before).settings.precision = .ok precision →
      P { precision := precision })
    (hrun : ∀ author (command : Command) d, P d → P (command.run author d).1) : P d := by
  obtain ⟨precision, hprecision, rfl⟩ := h.display_eq
  refine List.foldlRecOn since _ (hnew precision hprecision) fun d hd e _ => ?_
  cases e with
  | configure settings => exact hd
  | command caller command =>
    rw [Event.actOn]
    split
    · exact hrun _ _ _ hd
    · exact hd

/-- The same for the display that a command works on, be it an old or a new one. -/
theorem displayAt_run {P : Display → Prop} (hcapacity : 1 ≤ bot.capacity)
    (habsent : ∀ k, bot.displays.find? k = none) {events : List Event}
    (hnew : ∀ settings ∈ configured bot.settings events, ∀ precision,
      settings.precision = .ok precision → P { precision := precision })
    (hrun : ∀ author (command : Command) d, P d → P (command.run author d).1)
    (h : (bot.run events).displayAt k = .ok d) : P d := by
  rcases displayAt_eq_ok_iff.mp h with hfind | ⟨-, precision, hprecision, rfl⟩
  · obtain ⟨before, since, rfl, horigin⟩ := exists_origin hcapacity (habsent k) hfind
    refine horigin.display (fun precision hprecision => ?_) hrun
    exact hnew _ (configured_subset_append _ _ _ (settings_run hcapacity before)) _ hprecision
  · exact hnew _ (settings_run hcapacity events) _ hprecision

/-! ### From the beginning -/

/-- **The displays are those used last.** From a bot without displays, after any run: the places
that have a display are those whose commands obtained one, by the last such command, cut to as many
as there is room for. A command obtains a display if its place has one or the precision that is set
can be read, and changes nothing otherwise. Every display is what a new one, with the precision set
when it was made, has become under the commands of its place since. -/
theorem run_keeps_last_used {m : ℕ} (hm : 1 ≤ m) (settings : Settings) (events : List Event) :
    let start : Bot := { settings := settings, capacity := m }
    let bot := start.run events
    bot.displays.keys = lastUsed m (start.used events) ∧
      (∀ caller command,
        (caller.place ∈ bot.displays.keys ∨ ∃ precision, bot.settings.precision = .ok precision) →
          bot.usedBy (.command caller command) = some caller.place) ∧
      (∀ caller command text, caller.place ∉ bot.displays.keys →
        bot.settings.precision = .error text →
          bot.usedBy (.command caller command) = none ∧ (bot.step caller command).1 = bot) ∧
      ∀ k d, bot.displays.find? k = some d →
        ∃ before since, events = before ++ since ∧ start.Origin k before since d := by
  intro start bot
  have hcapacity : 1 ≤ start.capacity := Int.ofNat_le.mpr hm
  refine ⟨keys_run_initial hm settings events, fun caller command h => ?_,
    fun caller command text habsent herror => ?_, fun k d hd => exists_origin hcapacity rfl hd⟩
  · obtain ⟨d, hat⟩ := exists_displayAt h
    exact usedBy_of_ok (by rwa [capacity_run hcapacity]) hat command
  · have hat : bot.displayAt caller.place = .error text := by
      rw [displayAt_of_find?_eq_none (Registry.find?_eq_none_iff.mpr habsent), herror]
      rfl
    exact ⟨usedBy_of_error hat command, by rw [step_eq_self command hat]⟩

/-- Room for two displays: the first one is used again, by a command that fails, before the third
one pushes the second one out. A fourth one cannot be made. -/
theorem run_keeps_last_used_two :
    let start : Bot := { settings := defaultSettings, capacity := (2 : ℕ) }
    let author : Author := { name := "user", color := 0, icon := "" }
    let events : List Event := [
      .command ⟨⟨1, 1⟩, author, "calc press"⟩ (.press ['2', '×']),
      .command ⟨⟨1, 2⟩, author, "calc back"⟩ .back,
      .command ⟨⟨1, 1⟩, author, "calc press"⟩ (.press ['x']),
      .command ⟨⟨2, 1⟩, author, "calc show"⟩ .look,
      .configure (defaultSettings.insert "precision" (some "two")),
      .command ⟨⟨2, 2⟩, author, "calc clear"⟩ .clear]
    1 ≤ 2 ∧ (start.run events).displays.keys = [⟨1, 1⟩, ⟨2, 1⟩] ∧
      ∃ before since, events = before ++ since ∧
        start.Origin ⟨1, 1⟩ before since
          { precision := 8, expression := ['2', '*'], text := ['2', '×'] } := by
  intro start author events
  obtain ⟨hkeys, -, -, horigin⟩ :=
    run_keeps_last_used (m := 2) (by decide) defaultSettings events
  refine ⟨by decide, hkeys.trans (by decide), horigin _ _ (by decide)⟩

end Bot

end Chat

end ChatCalculator

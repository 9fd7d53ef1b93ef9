import ChatCalculator.Proofs.Chat.Run
import ChatCalculator.Proofs.Chat.Step

/-!
# Calculators do not interfere

All places share one table of displays, from which the least recently used one is dropped when
there is no room. A place does not notice the others if between any two of its commands that
follow each other fewer others give commands than there is room for: then its display is never
the one to go.

## Two runs side by side

The run is compared with the one from which the commands of all other places are deleted. `Tracks`
relates the two bots in between: it keeps the set of places that gave commands since the last one
of the place observed, and promises the same display only as long as that set leaves room. A
display that is pushed out all the same need not be told apart, since the place gives no command
any more.

## Main definitions

* `Spaced`: fewer than some number of others between any two commands of a place
* `Tracks`: what two bots have in common for one place

## Main results

* `Tracks.other`, `Tracks.own`: the relation is kept by commands of others, and of the place
* `Bot.observed_filter_concerns`: a place observes what it would observe alone
-/

namespace ChatCalculator

namespace Chat

/-! ### How many others give commands in between -/

/-- Fewer than `m` places give commands between any two commands of a place that follow each
other. -/
def Spaced (m : ℤ) (k : Place) (events : List Event) : Prop :=
  ∀ before first between second after,
    events = before ++ first :: (between ++ second :: after) →
    first.place? = some k → second.place? = some k → (∀ e ∈ between, e.place? ≠ some k) →
      ((callers between).card : ℤ) < m

/-- Fewer than `m` places give commands before the next command of a place, together with those
that did recently. -/
def SpacedSince (m : ℤ) (k : Place) (recent : Finset Place) (events : List Event) : Prop :=
  ∀ between second after, events = between ++ second :: after →
    second.place? = some k → (∀ e ∈ between, e.place? ≠ some k) →
      ((recent ∪ callers between).card : ℤ) < m

variable {m : ℤ} {k : Place} {recent : Finset Place} {e : Event} {events : List Event}

theorem spacedSince_nil : SpacedSince m k recent [] :=
  fun _ _ _ h => absurd h (List.append_ne_nil_of_right_ne_nil _ (List.cons_ne_nil _ _)).symm

theorem spacedSince_cons_of_own (he : e.place? = some k) :
    SpacedSince m k recent (e :: events) ↔ (recent.card : ℤ) < m := by
  constructor
  · intro h
    have hcard := h [] e events rfl he fun _ hmem => absurd hmem List.not_mem_nil
    rwa [callers_nil, Finset.union_empty] at hcard
  · intro hcard between second after h _ hbetween
    cases between with
    | nil => rwa [callers_nil, Finset.union_empty]
    | cons first between =>
      rw [List.cons_append, List.cons.injEq] at h
      exact absurd (h.1 ▸ he) (hbetween first List.mem_cons_self)

theorem spacedSince_cons_of_ne (he : e.place? ≠ some k) :
    SpacedSince m k recent (e :: events) ↔ SpacedSince m k (recent ∪ callers [e]) events := by
  constructor
  · rintro h between second after rfl hsecond hbetween
    have hnone : ∀ d ∈ e :: between, d.place? ≠ some k := List.forall_mem_cons.mpr ⟨he, hbetween⟩
    have hcard := h (e :: between) second after rfl hsecond hnone
    rwa [callers_cons, ← Finset.union_assoc] at hcard
  · intro h between second after hevents hsecond hbetween
    cases between with
    | nil =>
      rw [List.nil_append, List.cons.injEq] at hevents
      exact absurd (hevents.1 ▸ hsecond) he
    | cons first between =>
      rw [List.cons_append, List.cons.injEq] at hevents
      obtain ⟨rfl, rfl⟩ := hevents
      rw [callers_cons, ← Finset.union_assoc]
      exact h between second after rfl hsecond fun e he => hbetween e (List.mem_cons_of_mem _ he)

theorem spaced_iff : Spaced m k events ↔ ∀ before first after,
    events = before ++ first :: after → first.place? = some k → SpacedSince m k ∅ after := by
  constructor
  · rintro h before first _ rfl hfirst between second after rfl hsecond hbetween
    rw [Finset.empty_union]
    exact h before first between second after rfl hfirst hsecond hbetween
  · intro h before first between second after hevents hfirst hsecond hbetween
    have hcard := h before first _ hevents hfirst between second after rfl hsecond hbetween
    rwa [Finset.empty_union] at hcard

theorem spaced_nil : Spaced m k [] :=
  spaced_iff.mpr fun _ _ _ h =>
    absurd h (List.append_ne_nil_of_right_ne_nil _ (List.cons_ne_nil _ _)).symm

theorem spaced_cons : Spaced m k (e :: events) ↔
    (e.place? = some k → SpacedSince m k ∅ events) ∧ Spaced m k events := by
  rw [spaced_iff, spaced_iff]
  constructor
  · intro h
    exact ⟨h [] e events rfl, fun before first after hevents =>
      h (e :: before) first after (by rw [hevents, List.cons_append])⟩
  · rintro ⟨hfirst, h⟩ before first after hevents
    cases before with
    | nil =>
      rw [List.nil_append, List.cons.injEq] at hevents
      obtain ⟨rfl, rfl⟩ := hevents
      exact hfirst
    | cons e' before =>
      rw [List.cons_append, List.cons.injEq] at hevents
      exact h before first after hevents.2

/-- Whether a run is spaced can be read off from its events, one after the other. -/
instance decidableSpacedSince (m : ℤ) (k : Place) :
    ∀ recent events, Decidable (SpacedSince m k recent events)
  | _, [] => .isTrue spacedSince_nil
  | recent, e :: events =>
    if he : e.place? = some k then decidable_of_iff _ (spacedSince_cons_of_own he).symm
    else
      have := decidableSpacedSince m k (recent ∪ callers [e]) events
      decidable_of_iff _ (spacedSince_cons_of_ne he).symm

instance decidableSpaced (m : ℤ) (k : Place) : ∀ events, Decidable (Spaced m k events)
  | [] => .isTrue spaced_nil
  | _ :: events =>
    have := decidableSpaced m k events
    decidable_of_iff _ spaced_cons.symm

/-! ### One place in two bots -/

/-- What a bot has in common with one that only a single place uses: the settings and the room,
and the display of that place, as long as the places used recently leave room for it. -/
structure Tracks (m : ℤ) (k : Place) (recent : Finset Place) (bot alone : Bot) : Prop where
  /-- The room of the bot that all places use. -/
  capacity_eq : bot.capacity = m
  /-- The room of the other bot. -/
  capacity_alone : alone.capacity = m
  /-- New displays have the same precision. -/
  settings_eq : bot.settings = alone.settings
  /-- No display of the place comes from the commands of others. -/
  absent : alone.displays.find? k = none → bot.displays.find? k = none
  /-- While there is room, only the places used recently stand behind the display of the place. -/
  kept : ∀ d, alone.displays.find? k = some d → (recent.card : ℤ) < m →
    bot.displays.find? k = some d ∧ bot.displays.FollowedWithin k recent

namespace Tracks

variable {bot alone : Bot}

/-- Without a display of the place, the same bot twice. -/
theorem refl (hcapacity : bot.capacity = m) (h : bot.displays.find? k = none)
    (recent : Finset Place) : Tracks m k recent bot bot where
  capacity_eq := hcapacity
  capacity_alone := hcapacity
  settings_eq := rfl
  absent := id
  kept d hd := by rw [h] at hd; cases hd

theorem configure (h : Tracks m k recent bot alone) (settings : Settings) :
    Tracks m k recent (bot.configure settings) (alone.configure settings) where
  capacity_eq := h.capacity_eq
  capacity_alone := h.capacity_alone
  settings_eq := rfl
  absent := h.absent
  kept := h.kept

/-- A command of another place adds that place to the recent ones. -/
theorem other (h : Tracks m k recent bot alone) (hm : 1 ≤ m) {caller : Caller}
    (hne : caller.place ≠ k) (command : Command) :
    Tracks m k (recent ∪ {caller.place}) (bot.step caller command).1 alone := by
  have hcapacity : 1 ≤ bot.capacity := h.capacity_eq ▸ hm
  have hcard : recent.card ≤ (recent ∪ {caller.place}).card :=
    Finset.card_le_card Finset.subset_union_left
  cases hat : bot.displayAt caller.place with
  | error text =>
    rw [Bot.step_eq_self command hat]
    refine { h with kept := fun d hd hroom => ?_ }
    obtain ⟨hfind, hfollowed⟩ := h.kept d hd (by omega)
    exact ⟨hfind, hfollowed.mono Finset.subset_union_left⟩
  | ok d' =>
    rw [Bot.step_eq_keep hcapacity command hat]
    refine ⟨?_, h.capacity_alone, ?_, fun hnone => ?_, fun d hd hroom => ?_⟩
    · rw [Bot.capacity_keep, h.capacity_eq]
    · rw [Bot.settings_keep, h.settings_eq]
    · exact Bot.find?_keep_eq_none (h.absent hnone) hne _
    · obtain ⟨hfind, hfollowed⟩ := h.kept d hd (by omega)
      rw [← hfind]
      exact Bot.keep_of_ne hfollowed hne (h.capacity_eq ▸ hroom) _

/-- The place works on the same display in both bots, if it still has it. -/
theorem displayAt_eq (h : Tracks m k recent bot alone)
    (hroom : ∀ d, alone.displays.find? k = some d → (recent.card : ℤ) < m) :
    bot.displayAt k = alone.displayAt k := by
  cases hfind : alone.displays.find? k with
  | none =>
    rw [Bot.displayAt_of_find?_eq_none hfind, Bot.displayAt_of_find?_eq_none (h.absent hfind),
      h.settings_eq]
  | some d =>
    rw [Bot.displayAt_of_find?_eq_some hfind,
      Bot.displayAt_of_find?_eq_some (h.kept d hfind (hroom d hfind)).1]

/-- A command of the place itself is answered alike, and leaves the same display. -/
theorem own (h : Tracks m k recent bot alone) (hm : 1 ≤ m)
    (hroom : ∀ d, alone.displays.find? k = some d → (recent.card : ℤ) < m) {caller : Caller}
    (hk : caller.place = k) (command : Command) :
    (bot.step caller command).2 = (alone.step caller command).2 ∧
      (bot.step caller command).1.displays.find? k =
        (alone.step caller command).1.displays.find? k ∧
      Tracks m k ∅ (bot.step caller command).1 (alone.step caller command).1 := by
  subst hk
  have heq := h.displayAt_eq hroom
  cases hat : alone.displayAt caller.place with
  | error text =>
    have hnone := (Bot.displayAt_eq_error_iff.mp hat).1
    rw [Bot.step_eq_self command hat, Bot.step_eq_self command (heq.trans hat)]
    refine ⟨rfl, (h.absent hnone).trans hnone.symm, { h with kept := fun d hd => ?_ }⟩
    rw [hnone] at hd
    cases hd
  | ok d =>
    have hcapacity : 1 ≤ bot.capacity := h.capacity_eq ▸ hm
    have hcapacity' : 1 ≤ alone.capacity := h.capacity_alone ▸ hm
    rw [Bot.step_eq_keep hcapacity' command hat,
      Bot.step_eq_keep hcapacity command (heq.trans hat)]
    obtain ⟨hfind, hfollowed⟩ :=
      Bot.keep_place hcapacity caller.place (respond caller command d).1
    obtain ⟨hfind', -⟩ := Bot.keep_place hcapacity' caller.place (respond caller command d).1
    refine ⟨rfl, hfind.trans hfind'.symm, ?_, ?_, ?_, fun hnone => ?_, fun d' hd' _ => ?_⟩
    · rw [Bot.capacity_keep, h.capacity_eq]
    · rw [Bot.capacity_keep, h.capacity_alone]
    · rw [Bot.settings_keep, Bot.settings_keep, h.settings_eq]
    · rw [hfind'] at hnone
      cases hnone
    · exact ⟨hfind.trans (hfind'.symm.trans hd'), hfollowed⟩

/-- The place observes the same in both bots, of which one sees all events and the other one only
those that concern the place. -/
theorem observed_eq (h : Tracks m k recent bot alone) (hm : 1 ≤ m) (hspaced : Spaced m k events)
    (hsince : ∀ d, alone.displays.find? k = some d → SpacedSince m k recent events) :
    bot.observed k events = alone.observed k (events.filter (Event.concerns k)) := by
  -- `recent` starts anew with every command of the place and grows with those of others, so it is
  -- all of the past that the rest of the run has to be spaced against
  induction events generalizing bot alone recent with
  | nil => rfl
  | cons e events ih =>
    obtain ⟨hfirst, hrest⟩ := spaced_cons.mp hspaced
    cases e with
    | configure settings =>
      have hne : (Event.configure settings).place? ≠ some k := nofun
      rw [List.filter_cons_of_pos rfl, Bot.observed, Bot.observed]
      refine ih (h.configure settings) hrest fun d hd => ?_
      have hsince := (spacedSince_cons_of_ne hne).mp (hsince d hd)
      rwa [callers_configure, Finset.union_empty] at hsince
    | command caller command =>
      by_cases hk : caller.place = k
      · have hown : (Event.command caller command).place? = some k := congrArg some hk
        have hconcerns : Event.concerns k (.command caller command) = true := decide_eq_true hk
        obtain ⟨hreport, hfind, hnext⟩ :=
          h.own hm (fun d hd => (spacedSince_cons_of_own hown).mp (hsince d hd)) hk command
        rw [List.filter_cons_of_pos hconcerns, Bot.observed, Bot.observed, if_pos hk, if_pos hk,
          hreport, hfind, ih hnext hrest fun d _ => hfirst hown]
      · have hne : (Event.command caller command).place? ≠ some k :=
          fun he => hk (Option.some.inj he)
        have hconcerns : ¬ Event.concerns k (.command caller command) = true :=
          fun he => hk (of_decide_eq_true he)
        rw [List.filter_cons_of_neg hconcerns, Bot.observed, if_neg hk]
        exact ih (h.other hm hk command) hrest fun d hd =>
          (spacedSince_cons_of_ne hne).mp (hsince d hd)

end Tracks

/-- **Calculators do not interfere.** A place that has no display yet observes the same of a run
as of its own commands and the changes of the settings alone, if between any two of its commands
that follow each other fewer others give commands than displays are kept. -/
theorem Bot.observed_filter_concerns {bot : Bot} (hcapacity : 1 ≤ bot.capacity)
    (habsent : bot.displays.find? k = none) (h : Spaced bot.capacity k events) :
    bot.observed k events = bot.observed k (events.filter (Event.concerns k)) :=
  (Tracks.refl rfl habsent ∅).observed_eq hcapacity h fun d hd => by
    rw [habsent] at hd
    cases hd

/-- Two others use a bot with room for two displays, but only one of them between any two commands
of the place observed. In the end the precision that is set is of no use. -/
theorem Bot.observed_filter_concerns_two :
    let bot : Bot := { settings := defaultSettings, capacity := 2 }
    let author : Author := { name := "user", color := 0, icon := "" }
    let events : List Event := [
      .command ⟨⟨1, 1⟩, author, "calc press"⟩ (.press ['2', '+', '3']),
      .command ⟨⟨1, 2⟩, author, "calc clear"⟩ .clear,
      .command ⟨⟨1, 1⟩, author, "calc eval"⟩ .evaluate,
      .command ⟨⟨2, 1⟩, author, "calc show"⟩ .look,
      .configure (defaultSettings.insert "precision" (some "two")),
      .command ⟨⟨1, 1⟩, author, "calc back"⟩ .back]
    Spaced 2 ⟨1, 1⟩ events ∧
      bot.observed ⟨1, 1⟩ events = bot.observed ⟨1, 1⟩ (events.filter (Event.concerns ⟨1, 1⟩)) := by
  intro bot author events
  have hspaced : Spaced 2 ⟨1, 1⟩ events := by decide
  exact ⟨hspaced, observed_filter_concerns (by decide) rfl hspaced⟩

end Chat

end ChatCalculator

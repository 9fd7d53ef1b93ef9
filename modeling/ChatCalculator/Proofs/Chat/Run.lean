import ChatCalculator.Chat.Bot
import Mathlib.Data.Finset.Card

/-!
# Runs of the bot

A run is a list of events: commands, and changes of the settings. A place observes the answers to
its own commands, and its display right after each of them.

## Main definitions

* `Event`, `callers`: what happens to the bot, and the places that give commands
* `configured`: the settings that are in use at some time of a run
* `Event.concerns`: whether an event is left if the commands of all other places are deleted
* `Bot.after`, `Bot.run`: the bot after an event, and after several
* `Bot.usedBy`, `Bot.used`: the places of the commands that obtain a display
* `Bot.observed`: what a place observes of a run
-/

namespace ChatCalculator

namespace Chat

/-- What can happen to the bot. -/
inductive Event
  /-- Somebody gives a command. -/
  | command (caller : Caller) (command : Command)
  /-- The settings are changed. -/
  | configure (settings : Settings)

/-- The place that gives a command. -/
def Event.place? : Event → Option Place
  | .command caller _ => some caller.place
  | .configure _ => none

/-- The settings that an event puts in place. -/
def Event.settings? : Event → Option Settings
  | .command _ _ => none
  | .configure settings => some settings

/-- The settings that are in use at some time of a run, the first ones included. -/
def configured (settings : Settings) (events : List Event) : List Settings :=
  settings :: events.filterMap Event.settings?

theorem configured_subset_append (settings : Settings) (before since : List Event) :
    configured settings before ⊆ configured settings (before ++ since) := by
  rw [configured, configured, List.filterMap_append]
  exact List.cons_subset_cons _ (List.subset_append_left _ _)

/-- Whether an event is a command of a place or a change of the settings, which all places share. -/
def Event.concerns (k : Place) : Event → Bool
  | .command caller _ => caller.place = k
  | .configure _ => true

/-- The places that give commands. -/
def callers (events : List Event) : Finset Place :=
  (events.filterMap Event.place?).toFinset

theorem callers_nil : callers [] = ∅ := rfl

theorem callers_configure (settings : Settings) : callers [.configure settings] = ∅ := rfl

theorem callers_cons (e : Event) (events : List Event) :
    callers (e :: events) = callers [e] ∪ callers events := by
  rw [callers, ← List.singleton_append, List.filterMap_append, List.toFinset_append]
  rfl

namespace Bot

/-! ### The bot after a run -/

/-- The bot after an event. -/
def after (bot : Bot) : Event → Bot
  | .command caller command => (bot.step caller command).1
  | .configure settings => bot.configure settings

/-- The bot after several events. -/
def run (bot : Bot) (events : List Event) : Bot :=
  events.foldl after bot

theorem run_nil (bot : Bot) : bot.run [] = bot := rfl

theorem run_cons (bot : Bot) (e : Event) (events : List Event) :
    bot.run (e :: events) = (bot.after e).run events :=
  rfl

theorem run_concat (bot : Bot) (events : List Event) (e : Event) :
    bot.run (events ++ [e]) = (bot.run events).after e := by
  rw [run, List.foldl_append]
  rfl

/-- The place of an event that is a command and obtains a display, whatever becomes of the command
then. -/
def usedBy (bot : Bot) : Event → Option Place
  | .command caller _ =>
    match (bot.obtain caller.place).2 with
    | .ok _ => some caller.place
    | .error _ => none
  | .configure _ => none

/-- The places of the commands that obtain a display, in the order of the commands. -/
def used : Bot → List Event → List Place
  | _, [] => []
  | bot, e :: events => (bot.usedBy e).toList ++ used (bot.after e) events

/-! ### What is observed of a run -/

/-- What a place observes: what follows from each command of its own, and its display after it. -/
def observed (k : Place) : Bot → List Event → List (Report × Option Display)
  | _, [] => []
  | bot, .configure settings :: events => observed k (bot.configure settings) events
  | bot, .command caller command :: events =>
    let next := bot.step caller command
    if caller.place = k then (next.2, next.1.displays.find? k) :: observed k next.1 events
    else observed k next.1 events

end Bot

end Chat

end ChatCalculator

import ChatCalculator.Chat.Command
import ChatCalculator.Settings

/-!
# The bot

The bot keeps a display for every user in every channel, as long as there is room: a new display
that does not fit takes the place of the one that was not used for longest. The precision of a
display is the one that is set when the display is made.

## Main definitions

* `Place`, `Caller`: whose display a command works on, and how the command is logged
* `Bot`: settings, room, and the displays in order of their last use
* `Bot.obtain`: the display of a place, made if there is none
* `Bot.configure`: the bot with other settings
* `Bot.step`: the bot after a command, and what follows from the command
-/

namespace ChatCalculator

namespace Chat

/-- A user in a channel. -/
structure Place where
  /-- The number of the channel. -/
  channel : Int
  /-- The number of the user. -/
  user : Int
deriving DecidableEq

/-- A place as text. -/
def Place.text (p : Place) : String :=
  "(" ++ p.channel.repr ++ ", " ++ p.user.repr ++ ")"

/-- Who gives a command, and under which name. -/
structure Caller where
  /-- Whose display the command works on. -/
  place : Place
  /-- How the user is shown. -/
  author : Author
  /-- The name of the command in the log. In the full name of a subcommand, that of the main
  command comes first. -/
  commandName : String
deriving DecidableEq

/-- How many displays are kept unless another number is chosen. -/
def defaultCapacity : Int := 1000

/-- The bot between two commands. -/
structure Bot where
  /-- The settings in use. -/
  settings : Settings
  /-- How many displays are kept. -/
  capacity : Int := defaultCapacity
  /-- The displays, the least recently used first. -/
  displays : Registry Place Display := .empty

namespace Bot

/-- Adds a display as the last used one. If there are too many then, the first one goes. -/
def addDisplay (bot : Bot) (place : Place) (d : Display) : Bot :=
  let displays := bot.displays.push place d
  { bot with displays := if bot.capacity < displays.size then displays.tail else displays }

/-- The display of a place, which becomes the last used one. A display that is not there is made
with the precision of the settings, and must then be found. -/
def obtain (bot : Bot) (place : Place) : Bot × Except Failure Display :=
  match bot.displays.find? place with
  | some d => ({ bot with displays := bot.displays.push place d }, .ok d)
  | none =>
    match bot.settings.precision with
    | .error text => (bot, .error (.invalidValue (some text)))
    | .ok precision =>
      let next := bot.addDisplay place { precision := precision }
      match next.displays.find? place with
      | some d => (next, .ok d)
      | none => (next, .error (.missingKey place.text))

/-- The bot with other settings. Displays that are there keep their precision. -/
def configure (bot : Bot) (settings : Settings) : Bot :=
  { bot with settings := settings }

/-- The bot with another display at a place. -/
def update (bot : Bot) (place : Place) (d : Display) : Bot :=
  { bot with displays := bot.displays.replace place d }

/-- The bot after a command, and what follows from the command. -/
def step (bot : Bot) (caller : Caller) (command : Command) : Bot × Report :=
  match bot.obtain caller.place with
  | (next, .error failure) => (next, failure.report caller.commandName)
  | (next, .ok d) =>
    match command.run caller.author d with
    | (changed, .error failure) =>
      (next.update caller.place changed, failure.report caller.commandName)
    | (changed, .ok message) => (next.update caller.place changed, { sent := [message] })

end Bot

end Chat

end ChatCalculator

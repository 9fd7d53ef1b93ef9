import ChatCalculator.Settings
import ChatCalculator.Chat.Message

/-!
# Startup

On startup the settings are loaded, the bot logs in with the token among them and loads its
features. Once it is logged in, it notes its name in the log and shows how to get help.

## Main definitions

* `features`: what the bot loads
* `presence`: what the bot shows as its activity
* `Startup`, `start`: all that a startup does
-/

namespace ChatCalculator

namespace Chat

/-- What the bot loads. -/
def features : List String := ["calculator"]

/-- What the bot shows as its activity: the address, if one is set, and how to get help. -/
def presence (settings : Settings) (user : String) : String :=
  let help := "Type " ++ codeSpan ("@" ++ user ++ " help") ++ " for command list"
  match settings.nonempty? "url" with
  | none => help
  | some url => url ++ " | " ++ help

/-- All that a startup does. -/
structure Startup where
  /-- The settings in use. -/
  settings : Settings
  /-- The settings stored afterwards. -/
  stored : Settings
  /-- The token that the bot logs in with. -/
  token : Option String
  /-- The features that are loaded. -/
  loaded : List String
  /-- The activity that is shown. -/
  presence : String
  /-- The lines added to the log. -/
  log : List String

/-- Starts the bot with stored settings, under the name and number of its user. -/
def start (stored : Settings) (user : String) (number : Nat) : Startup :=
  let settings := Settings.load stored defaultSettings
  { settings
    stored := Settings.save stored defaultSettings
    token := (settings.find? "token").join
    loaded := features
    presence := presence settings user
    log := ["INFO Logged in as " ++ user ++ " (" ++ number.repr ++ ")"] }

end Chat

end ChatCalculator

import ChatCalculator.Chat.Failure
import ChatCalculator.Session
import ChatCalculator.Text.Blank

/-!
# Command prefixes

A message is a command if it starts with the prefix of its server, or with a mention of the bot
and white space. A server that has not chosen a prefix has no row in the table, nor has one that
chose the default prefix.

## Main definitions

* `PrefixTable`: the chosen prefixes by server
* `prefixOf`: the prefix of a message
* `choosePrefix`: the change of the table that gives a server another prefix
* `changePrefix`: the command that changes a prefix
-/

namespace ChatCalculator

namespace Chat

/-- The prefix of direct messages, and of servers that have not chosen one. -/
def defaultPrefix : String := ";"

/-- The chosen prefixes, by the number of the server as text. -/
abbrev PrefixTable := Registry String String

/-- How a server is named in the table. -/
def serverKey (server : Int) : String :=
  server.repr

/-- The mention at the start of a message and all white space behind it, if there is any. -/
def mentionPrefix? (mention content : List Char) : Option (List Char) :=
  if mention.isPrefixOf content then
    match (content.drop mention.length).takeWhile isSpace with
    | [] => none
    | c :: spaces => some (mention ++ c :: spaces)
  else none

/-- The prefix of a message in a server, or in no server. -/
def prefixOf (table : PrefixTable) (mention : List Char) (server : Option Int)
    (content : List Char) : String :=
  match mentionPrefix? mention content with
  | some start => .ofList start
  | none =>
    match server with
    | none => defaultPrefix
    | some number => (table.find? (serverKey number)).getD defaultPrefix

/-- Gives a server another prefix, in a session. -/
def choosePrefix (session : Session String String) (server : Int) (chosen : String) :
    Session String String :=
  let key := serverKey server
  if chosen = defaultPrefix then
    match session.find? key with
    | some _ => session.record (.delete key)
    | none => session
  else
    match session.find? key with
    | some _ => session.record (.set key chosen)
    | none => session.record (.add key chosen)

/-- Changes the prefix of a server, in a session of its own, if the database accepts the change.
The answer comes after that. -/
def changePrefix (table : PrefixTable) (server : Int) (chosen : String) (accepted : Bool) :
    PrefixTable × Report :=
  let session := choosePrefix (.start table) server chosen
  match session.commit? accepted with
  | some session =>
    (session.stored, { sent := [.text ("Prefix changed to " ++ codeSpan chosen)] })
  | none =>
    (session.rollback.stored,
      (Failure.refused "Could not change prefix, an unknown error occured").report "setprefix")

end Chat

end ChatCalculator

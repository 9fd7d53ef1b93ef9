/-!
# Messages

The bot answers with plain text or with an embed: a card that may name an author and holds a
description or fields.

## Main definitions

* `Author`, `Field`, `Embed`, `Message`: what is sent
* `codeSpan`: text to be shown in a fixed-width font
* `dropQuotes`: a parameter without the quotes around it
-/

namespace ChatCalculator

namespace Chat

/-- A user as shown at the top of an embed. -/
structure Author where
  /-- The name to show. -/
  name : String
  /-- The colour of the user, which becomes that of the embed. -/
  color : Int
  /-- Where the picture of the user is found. -/
  icon : String
deriving DecidableEq

/-- A titled paragraph of an embed. -/
structure Field where
  /-- The title. -/
  name : String
  /-- The paragraph. -/
  value : String
  /-- Whether the field may stand beside others. -/
  inline : Bool := false
deriving DecidableEq

/-- A card with an author, a description and fields, all of which may be missing. -/
structure Embed where
  /-- Who the embed is about. -/
  author : Option Author := none
  /-- The text of the embed. -/
  description : Option String := none
  /-- The paragraphs below. -/
  fields : List Field := []
deriving DecidableEq

/-- Something that the bot sends. -/
inductive Message
  /-- Plain text. -/
  | text (content : String)
  /-- An embed. -/
  | embed (content : Embed)
deriving DecidableEq

/-- Text to be shown in a fixed-width font. -/
def codeSpan (content : String) : String :=
  "`" ++ content ++ "`"

/-- Drops the quotes around a parameter, if it starts and ends with one. -/
def dropQuotes (parameter : List Char) : List Char :=
  if 2 ≤ parameter.length ∧ parameter.head? = some '"' ∧ parameter.getLast? = some '"' then
    parameter.tail.dropLast
  else parameter

end Chat

end ChatCalculator

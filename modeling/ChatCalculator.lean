import ChatCalculator.Chat.Bot
import ChatCalculator.Chat.Prefix
import ChatCalculator.Chat.Startup
import ChatCalculator.Main
import ChatCalculator.Proofs.Expression.Tree
import ChatCalculator.Proofs.Expression.PostfixOrder
import ChatCalculator.Proofs.Expression.Conversion
import ChatCalculator.Proofs.Expression.Acceptance
import ChatCalculator.Proofs.Binary64.Nearest
import ChatCalculator.Proofs.Display.Result
import ChatCalculator.Proofs.Display.Key
import ChatCalculator.Proofs.Display.Consistent
import ChatCalculator.Proofs.Display.Reuse
import ChatCalculator.Proofs.Expression.Cutting
import ChatCalculator.Proofs.Expression.Rejection
import ChatCalculator.Proofs.Expression.Language
import ChatCalculator.Proofs.Display.Entry
import ChatCalculator.Proofs.Chat.Step
import ChatCalculator.Proofs.Chat.Isolation
import ChatCalculator.Proofs.Chat.Kept
import ChatCalculator.Proofs.Chat.Command
import ChatCalculator.Proofs.Chat.Answer
import ChatCalculator.Proofs.Chat.Failure
import ChatCalculator.Proofs.Chat.Prefix
import ChatCalculator.Proofs.Decimal.Canonical
import ChatCalculator.Proofs.Display.CanonicalText
import ChatCalculator.Proofs.Expression.Composition
import ChatCalculator.Proofs.Expression.Postorder
import ChatCalculator.Proofs.Settings
import ChatCalculator.Proofs.Expression.Partners
import ChatCalculator.Proofs.Expression.Refusal
import ChatCalculator.Proofs.Expression.Placement
import ChatCalculator.Proofs.Binary64.Rounded
import ChatCalculator.Proofs.Expression.Source
import ChatCalculator.Proofs.Expression.Rendering
import ChatCalculator.Proofs.Expression.LookUp
import ChatCalculator.Proofs.Display.Steps
import ChatCalculator.Proofs.Display.Typing
import ChatCalculator.Proofs.Display.Rounding

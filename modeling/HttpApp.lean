import HttpApp.Main
import HttpApp.Media.Writer
import HttpApp.Pattern.Options
import HttpApp.Worker.Pool
import HttpApp.Proofs.App.Closure
import HttpApp.Proofs.App.Contexts
import HttpApp.Proofs.App.Course
import HttpApp.Proofs.App.Delivery
import HttpApp.Proofs.App.ErrorPage
import HttpApp.Proofs.App.Givens
import HttpApp.Proofs.App.HalfStaged
import HttpApp.Proofs.App.Mirrors
import HttpApp.Proofs.App.Order
import HttpApp.Proofs.App.Progress
import HttpApp.Proofs.App.Rejection
import HttpApp.Proofs.App.Runs
import HttpApp.Proofs.App.Sparing
import HttpApp.Proofs.App.Threads
import HttpApp.Proofs.App.Transparency
import HttpApp.Proofs.App.Unwinding
import HttpApp.Proofs.Form.Multipart
import HttpApp.Proofs.Json.RoundTrip
import HttpApp.Proofs.Json.Tokens
import HttpApp.Proofs.Media.Accepting
import HttpApp.Proofs.Media.Covering
import HttpApp.Proofs.Media.Reading
import HttpApp.Proofs.Media.Weighing
import HttpApp.Proofs.Negotiation.Parsing
import HttpApp.Proofs.Negotiation.Rendering
import HttpApp.Proofs.Number.Decimals
import HttpApp.Proofs.Number.Integers
import HttpApp.Proofs.Pattern.Building
import HttpApp.Proofs.Pattern.Grammar
import HttpApp.Proofs.Pattern.LetterCase
import HttpApp.Proofs.Pattern.Matching
import HttpApp.Proofs.Pattern.Slashes
import HttpApp.Proofs.Pattern.Tails
import HttpApp.Proofs.Pattern.Wildcard
import HttpApp.Proofs.Routing.Assembly
import HttpApp.Proofs.Routing.Lookup
import HttpApp.Proofs.Routing.Sealing
import HttpApp.Proofs.Routing.Shadowing
import HttpApp.Proofs.Server.Drain
import HttpApp.Proofs.Server.Identity
import HttpApp.Proofs.Server.Intake
import HttpApp.Proofs.Server.Respond
import HttpApp.Proofs.Session.Acts
import HttpApp.Proofs.Session.Alike
import HttpApp.Proofs.Session.Bearing
import HttpApp.Proofs.Session.Departure
import HttpApp.Proofs.Session.Givens
import HttpApp.Proofs.Session.Moves
import HttpApp.Proofs.Session.Refusal
import HttpApp.Proofs.Session.Staging
import HttpApp.Proofs.Session.Steps
import HttpApp.Proofs.Text.Decoding
import HttpApp.Proofs.Text.LetterCase
import HttpApp.Proofs.Worker.Closing
import HttpApp.Proofs.Worker.Conservation
import HttpApp.Proofs.Worker.Steps
import HttpApp.Proofs.Form.Parts
import HttpApp.Proofs.Form.Parameters
import HttpApp.Proofs.Form.Repeated
import HttpApp.Proofs.App.Fallback

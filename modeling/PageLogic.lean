import PageLogic.Check
import PageLogic.DevTools.Endpoint
import PageLogic.Main
import PageLogic.Relation.Descent
import PageLogic.Substitution.Steps
import PageLogic.Proofs.Formula.Order
import PageLogic.Proofs.Formula.Pure
import PageLogic.Proofs.Relation.Modes
import PageLogic.Proofs.Relation.Presence
import PageLogic.Proofs.Relation.Unknown
import PageLogic.Proofs.Page.Change
import PageLogic.Proofs.Page.Vouching
import PageLogic.Proofs.Relation.Straddling
import PageLogic.Proofs.Formula.Ensemble
import PageLogic.Proofs.Formula.Scoping
import PageLogic.Proofs.Formula.Traffic
import PageLogic.Proofs.Formula.Descent
import PageLogic.Proofs.Page.Lifecycle
import PageLogic.Proofs.Text.Spelling
import PageLogic.Proofs.Page.Refusal
import PageLogic.Proofs.Page.Identity
import PageLogic.Proofs.Page.Order
import PageLogic.Proofs.Css.Upward
import PageLogic.Proofs.Page.Hooks
import PageLogic.Proofs.Page.Removal
import PageLogic.Proofs.DevTools.Steps
import PageLogic.Proofs.DevTools.Replies
import PageLogic.Proofs.DevTools.Entries
import PageLogic.Proofs.DevTools.Nodes
import PageLogic.Proofs.DevTools.Questions
import PageLogic.Proofs.DevTools.Listings
import PageLogic.Proofs.Goal.Algebra
import PageLogic.Proofs.Substitution.Canonical
import PageLogic.Proofs.Substitution.MostGeneral
import PageLogic.Proofs.Config.RoundTrip
import PageLogic.Proofs.Page.Attributes
import PageLogic.Proofs.Page.Text
import PageLogic.Proofs.Html.Cascade
import PageLogic.Proofs.Paths.Profile
import PageLogic.Proofs.Search.Delays

import RuleCanvas.Main
import RuleCanvas.Log.Record
import RuleCanvas.Session
import RuleCanvas.Service.App
import RuleCanvas.Json.Basic
import RuleCanvas.Proofs.Rule.Placement
import RuleCanvas.Proofs.Store.Reachable
import RuleCanvas.Proofs.Rule.Normal
import RuleCanvas.Proofs.Rule.RoundTrip
import RuleCanvas.Proofs.Session.Action
import RuleCanvas.Proofs.Session.Current
import RuleCanvas.Proofs.Store.Atomic
import RuleCanvas.Proofs.Store.Faults
import RuleCanvas.Proofs.Canvas.Zoom
import RuleCanvas.Proofs.Session.Contained
import RuleCanvas.Proofs.Rule.Rewrite
import RuleCanvas.Proofs.Rule.Checked
import RuleCanvas.Proofs.Store.Heard
import RuleCanvas.Proofs.Store.Rebuilt
import RuleCanvas.Proofs.Rule.Inferred
import RuleCanvas.Proofs.Rule.Forest
import RuleCanvas.Proofs.Rule.Seats
import RuleCanvas.Proofs.Rule.Bands
import RuleCanvas.Proofs.Rule.Cone
import RuleCanvas.Proofs.Store.EdgeOrder
import RuleCanvas.Proofs.Session.Pointer
import RuleCanvas.Proofs.Number.Nearest
import RuleCanvas.Proofs.Number.Spelled
import RuleCanvas.Proofs.Json.Parsed
import RuleCanvas.Proofs.Json.Canonical
import RuleCanvas.Proofs.Rule.Depth
import RuleCanvas.Proofs.Session.Strict
import RuleCanvas.Proofs.Service.Agreement
import RuleCanvas.Proofs.Store.Connect
import RuleCanvas.Proofs.Store.PayloadEdit
import RuleCanvas.Proofs.Rule.Unfold
import RuleCanvas.Proofs.Rule.Removal
import RuleCanvas.Proofs.Canvas.View
import RuleCanvas.Proofs.Canvas.Faults
import RuleCanvas.Proofs.Canvas.Stroke
import RuleCanvas.Proofs.Canvas.Card
import RuleCanvas.Proofs.Rule.Overlap
import RuleCanvas.Proofs.Canvas.Hit
import RuleCanvas.Proofs.Rule.Stable
import RuleCanvas.Proofs.Rule.Growth
import RuleCanvas.Proofs.Store.Eviction
import RuleCanvas.Proofs.Store.Subscription

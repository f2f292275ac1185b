import RuleCanvas.Graph.Basic

/-! # Cards

A node is drawn as a card of fixed width whose position is its top left corner. Ports are stacked
from the top of the card, inputs just outside its left edge and outputs just outside its right edge.
A port is hit within a square around its anchor. Ports go before bodies, and among nodes the one
that was added last lies on top.
-/

namespace RuleCanvas

open Scalar (ofInt larger)

variable {α : Type} [Scalar α]

namespace Card

def width : α := ofInt 192

def minHeight : α := ofInt 96

/-- The distance of the first port from the top of the card. -/
def portTop : α := ofInt 46

def portGap : α := ofInt 24

/-- The distance of a port from the edge of the card. -/
def portOutset : α := ofInt 12

/-- Half the side of the square in which a port is hit. -/
def portReach : α := ofInt 12

end Card

open Card

def NodeKind.cardHeight (kind : NodeKind) : α :=
  larger minHeight (portTop + ofInt (max kind.inputCount kind.outputCount : Nat) * portGap)

namespace Node

/-- Whether a point lies on the body of the card or its border. -/
def contains (n : Node α) (p : Point α) : Bool :=
  decide (n.x ≤ p.x) && decide (p.x ≤ n.x + width) &&
    decide (n.y ≤ p.y) && decide (p.y ≤ n.y + n.kind.cardHeight)

def anchor (n : Node α) (direction : PortDirection) (index : Nat) : Point α :=
  let y := n.y + portTop + ofInt index * portGap
  match direction with
  | .input => ⟨n.x - portOutset, y⟩
  | .output => ⟨n.x + width + portOutset, y⟩

def reaches (n : Node α) (p : Point α) (direction : PortDirection) (index : Nat) : Bool :=
  let a := n.anchor direction index
  decide (Scalar.abs (p.x - a.x) ≤ portReach) && decide (Scalar.abs (p.y - a.y) ≤ portReach)

/-- The first port that a point hits, inputs before outputs. -/
def portAt? (n : Node α) (p : Point α) : Option (PortDirection × Nat) :=
  let find (direction : PortDirection) : Option (PortDirection × Nat) :=
    ((List.range (n.kind.ports direction).length).find? (n.reaches p direction)).map (direction, ·)
  find .input <|> find .output

end Node

/-- What lies under a point. -/
inductive Hit where
  | port (node : String) (direction : PortDirection) (index : Nat)
  | body (node : String)
  deriving DecidableEq, Repr

namespace Graph

/-- What lies under a point. -/
def hit? (g : Graph α) (p : Point α) : Option Hit :=
  let port? (n : Node α) : Option Hit :=
    (n.portAt? p).map fun (direction, index) => .port n.id direction index
  let body? (n : Node α) : Option Hit := if n.contains p then some (.body n.id) else none
  g.nodes.reverse.findSome? port? <|> g.nodes.reverse.findSome? body?

/-- The anchors at both ends of an edge, the source first. -/
def endpoints? (g : Graph α) (e : Edge) : Option (Point α × Point α) := do
  let source ← g.node? e.source.node
  let target ← g.node? e.target.node
  return (source.anchor .output e.source.port, target.anchor .input e.target.port)

end Graph

end RuleCanvas

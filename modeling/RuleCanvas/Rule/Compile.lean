import RuleCanvas.Journal

/-! # Compiling a graph

The rule of a node is found by walking its inputs backward. An unwired input has a default: `null`
for operands, and for a choice `true`, `"PRESENT"` and `null`. Every Result with an edge gives one
rule, in the order of the nodes. A node that the walk meets again on its own path gives `null`, so
the walk ends on every graph; along a path all nodes differ, which bounds its depth by their number.
-/

namespace RuleCanvas

/-- The rule of a node with this payload, over the rules of its wired inputs. -/
def Payload.rule (p : Payload) (input : Nat → Option Json) : Json :=
  let operand (index : Nat) : Json := (input index).getD .null
  match p with
  | .constant l => l.toJson
  | .var key => .obj [("var", .str key)]
  | .logic .not => .obj [("not", operand 0)]
  | .logic o => .obj [(o.symbol, .arr [operand 0, operand 1])]
  | .compare o => .obj [(o.symbol, .arr [operand 0, operand 1])]
  | .choice =>
    .obj [("if", .arr [(input 0).getD (.bool true), (input 1).getD (.str "PRESENT"), operand 2])]
  | .result => .null

/-- The number of inputs that the rule of a node reads. -/
def Payload.readCount : Payload → Nat
  | .logic .not => 1
  | .logic _ => 2
  | .compare _ => 2
  | .choice => 3
  | _ => 0

namespace Graph

variable {α : Type}

/-- The rule of the node `id`, with the nodes in `path` above it, within the given depth. -/
def resolve (g : Graph α) : Nat → List String → String → Json
  | 0, _, _ => .null
  | depth + 1, path, id =>
    if path.contains id then .null
    else
      match g.payload? id with
      | some p => p.rule fun index =>
          (g.incoming? ⟨id, index⟩).map fun e => resolve g depth (id :: path) e.source.node
      | none => .null

def compileNode (g : Graph α) (id : String) : Json := g.resolve (g.nodes.length + 1) [] id

/-- The rules of all Results that are wired, in the order of the nodes. -/
def rules (g : Graph α) : List Json :=
  (g.ofKind .result).filterMap fun n =>
    (g.incoming? ⟨n.id, 0⟩).map fun e => g.compileNode e.source.node

def ruleTree (g : Graph α) : Json := .obj [("status_rules", .arr g.rules)]

/-! ## What a compilation tells the log -/

def compileLogger : String := "policy_graph.compiler.compiler"

/-- The lines for repeated nodes and for Results that are used as a source, in the order in which
the walk meets them. -/
def warnings (g : Graph α) : Nat → List String → String → List LogLine
  | 0, _, _ => []
  | depth + 1, path, id =>
    let warn (message : String) : List LogLine := [⟨.warning, compileLogger, message, none, none⟩]
    if path.contains id then warn ("Cycle detected at node " ++ id ++ "; emitting null")
    else
      match g.payload? id with
      | some .result => warn ("Node " ++ id ++ " of kind Result cannot produce a value")
      | some p =>
        (List.range p.readCount).flatMap fun index =>
          match g.incoming? ⟨id, index⟩ with
          | some e => warnings g depth (id :: path) e.source.node
          | none => []
      | none => []

def nodeLines (g : Graph α) (id : String) : List LogLine := g.warnings (g.nodes.length + 1) [] id

def compileLines (g : Graph α) : List LogLine :=
  (g.ofKind .result).flatMap fun n =>
    match g.incoming? ⟨n.id, 0⟩ with
    | some e => g.nodeLines e.source.node
    | none => []

/-- The size of rules as text, in bytes. -/
def textSize (rules : List Json) : Nat := ((Json.arr rules).render Json.Layout.spaced).length

def compileMeasure (g : Graph α) : Measure := .compiled g.rules.length (textSize g.rules)

/-- What a compilation leaves in a journal: its lines, then its measure. -/
def compileEntries {β : Type} (g : Graph α) : List (Entry β) :=
  g.compileLines.map Entry.line ++ [.measure g.compileMeasure]

end Graph

end RuleCanvas

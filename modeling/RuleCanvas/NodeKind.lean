/-! # Kinds of node and operators

The six kinds of node, the two directions of a port, and the operators of Logic and Compare nodes
by the symbols that rules write for them.
-/

namespace RuleCanvas

inductive NodeKind where
  | logic
  | compare
  | var
  | constant
  /-- Chooses between two values by a condition. -/
  | choice
  | result
  deriving DecidableEq, Repr

namespace NodeKind

def name : NodeKind → String
  | logic => "Logic"
  | compare => "Compare"
  | var => "Variable"
  | constant => "Constant"
  | choice => "If"
  | result => "Result"

def ofName? : String → Option NodeKind
  | "Logic" => some logic
  | "Compare" => some compare
  | "Variable" => some var
  | "Constant" => some constant
  | "If" => some choice
  | "Result" => some result
  | _ => none

theorem ofName?_name (k : NodeKind) : ofName? k.name = some k := by cases k <;> rfl

end NodeKind

inductive PortDirection where
  | input
  | output
  deriving DecidableEq, Repr

namespace PortDirection

def name : PortDirection → String
  | input => "input"
  | output => "output"

def ofName? : String → Option PortDirection
  | "input" => some input
  | "output" => some output
  | _ => none

end PortDirection

inductive LogicOperator where
  | and
  | or
  | not
  deriving DecidableEq, Repr

namespace LogicOperator

def symbol : LogicOperator → String
  | and => "and"
  | or => "or"
  | not => "not"

def ofSymbol? : String → Option LogicOperator
  | "and" => some and
  | "or" => some or
  | "not" => some not
  | _ => none

theorem ofSymbol?_symbol (o : LogicOperator) : ofSymbol? o.symbol = some o := by cases o <;> rfl

/-- Whether the operator takes two operands. -/
def isBinary : LogicOperator → Bool
  | not => false
  | _ => true

end LogicOperator

inductive CompareOperator where
  | greater
  | less
  | atLeast
  | atMost
  | equal
  | unequal
  deriving DecidableEq, Repr

namespace CompareOperator

def symbol : CompareOperator → String
  | greater => ">"
  | less => "<"
  | atLeast => ">="
  | atMost => "<="
  | equal => "=="
  | unequal => "!="

def ofSymbol? : String → Option CompareOperator
  | ">" => some greater
  | "<" => some less
  | ">=" => some atLeast
  | "<=" => some atMost
  | "==" => some equal
  | "!=" => some unequal
  | _ => none

theorem ofSymbol?_symbol (o : CompareOperator) : ofSymbol? o.symbol = some o := by
  cases o <;> rfl

end CompareOperator

end RuleCanvas

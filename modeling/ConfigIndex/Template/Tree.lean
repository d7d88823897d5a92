import ConfigIndex.Number.Binary64
import ConfigIndex.Position

/-!
The tree of a template: text with expressions in it.
-/

namespace ConfigIndex.Template

inductive Operator
  | add
  | subtract
  | multiply
  | divide
  | remainder
  | equal
  | notEqual
  | less
  | lessOrEqual
  | greater
  | greaterOrEqual
  | and
  | or
  | not
deriving DecidableEq, Repr

namespace Operator

def symbol : Operator → String
  | add => "+"
  | subtract => "-"
  | multiply => "*"
  | divide => "/"
  | remainder => "%"
  | equal => "=="
  | notEqual => "!="
  | less => "<"
  | lessOrEqual => "<="
  | greater => ">"
  | greaterOrEqual => ">="
  | and => "&&"
  | or => "||"
  | not => "!"

def level : Operator → Nat
  | or => 1
  | and => 2
  | equal | notEqual | less | lessOrEqual | greater | greaterOrEqual => 3
  | add | subtract => 4
  | multiply | divide | remainder => 5
  | not => 6

def isComparison (operator : Operator) : Bool := operator.level = 3

end Operator

inductive Literal
  | text (value : String)
  | int (value : Nat)
  | float (value : Binary64)
  | bool (value : Bool)
deriving DecidableEq, Repr

inductive Node
  | literal (value : Literal) (point : Point)
  | access (name : String) (point : Point)
  | call (function : String) (arguments : List Node) (point : Point)
  | index (target key : Node) (point : Point)
  /-- One operand for a sign or a negation, two otherwise. -/
  | arithmetic (operator : Operator) (operands : List Node) (point : Point)
  | conditional (condition yes no : Node) (point : Point)
  /-- Parts that are joined to one text. -/
  | output (parts : List Node) (point : Point)
deriving Repr, Inhabited

namespace Node

def point : Node → Point
  | literal _ point => point
  | access _ point => point
  | call _ _ point => point
  | index _ _ point => point
  | arithmetic _ _ point => point
  | conditional _ _ _ point => point
  | output _ point => point

def isLiteral : Node → Bool
  | literal _ _ => true
  | _ => false

mutual

/-- The nodes of a tree, each behind those inside it and these in the order of the text. -/
def visited : Node → List Node
  | literal value point => [literal value point]
  | access name point => [access name point]
  | call function arguments point => visitedAll arguments ++ [call function arguments point]
  | index target key point => target.visited ++ key.visited ++ [index target key point]
  | arithmetic operator operands point =>
    visitedAll operands ++ [arithmetic operator operands point]
  | conditional condition yes no point =>
    condition.visited ++ yes.visited ++ no.visited ++ [conditional condition yes no point]
  | output parts point => visitedAll parts ++ [output parts point]

def visitedAll : List Node → List Node
  | [] => []
  | node :: rest => node.visited ++ visitedAll rest

end

def access? : Node → Option (String × Point)
  | access name point => some (name, point)
  | _ => none

def accesses (node : Node) : List (String × Point) := node.visited.filterMap access?

end Node

end ConfigIndex.Template

import FirmwareWorkspace.Expression.Tree
import FirmwareWorkspace.Expression.Token
import FirmwareWorkspace.Json.Quoted

/-!
# Writing condition trees

The operator stands in front of its operands inside parentheses, so the shape of
the tree can be read off without knowing any operator's strength.
-/
namespace FirmwareWorkspace.Expression

/-- Names of the prefix operators in written trees; negation is told from subtraction. -/
def PrefixOp.label : PrefixOp → String
  | not => "not"
  | complement => "~"
  | negate => "neg"

def Expr.render : Expr → String
  | truth value => truthText value
  | number value => toString value
  | quoted text => Json.quote text
  | reference name => "$(" ++ name ++ ")"
  | word text => text
  | unary op operand => "(" ++ op.label ++ " " ++ operand.render ++ ")"
  | binary op left right =>
    "(" ++ op.symbol ++ " " ++ left.render ++ " " ++ right.render ++ ")"

end FirmwareWorkspace.Expression

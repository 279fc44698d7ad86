/-!
# Operators of the condition language

A binary operator has a strength; of two neighbouring operators the stronger
one takes the operand between them, and equal strength groups to the left.
A prefix operator takes everything to its right that is joined by operators of
strength `operandStrength` or more, so shifts and membership bind more tightly
than a prefix operator and all other operators less.
-/
namespace FirmwareWorkspace.Expression

inductive BinaryOp where
  | or | and
  | bitOr | bitXor | bitAnd
  | eq | ne | lt | gt | le | ge
  | add | sub | mul | div | rem
  | shl | shr
  | isIn
  deriving DecidableEq, Repr

inductive PrefixOp where
  | not | complement | negate
  deriving DecidableEq, Repr

namespace BinaryOp

def strength : BinaryOp → Nat
  | or => 1
  | and => 2
  | bitOr => 3
  | bitXor => 4
  | bitAnd => 5
  | eq | ne => 6
  | lt | gt | le | ge => 7
  | add | sub => 8
  | mul | div | rem => 9
  | shl | shr => 11
  | isIn => 12

/-- The canonical spelling. -/
def symbol : BinaryOp → String
  | or => "or"
  | and => "and"
  | bitOr => "|"
  | bitXor => "^"
  | bitAnd => "&"
  | eq => "=="
  | ne => "!="
  | lt => "<"
  | gt => ">"
  | le => "<="
  | ge => ">="
  | add => "+"
  | sub => "-"
  | mul => "*"
  | div => "/"
  | rem => "%"
  | shl => "<<"
  | shr => ">>"
  | isIn => "in"

end BinaryOp

namespace PrefixOp

/-- Least strength of an operator inside the operand of a prefix operator. -/
def operandStrength : Nat := 11

/-- The canonical spelling. -/
def symbol : PrefixOp → String
  | not => "not"
  | complement => "~"
  | negate => "-"

end PrefixOp

end FirmwareWorkspace.Expression

import FirmwareWorkspace.Expression.Operator

/-!
# Condition trees
-/
namespace FirmwareWorkspace.Expression

inductive Expr where
  | truth (value : Bool)
  | number (value : Nat)
  | quoted (text : String)
  | reference (name : String)
  /-- A bare word; a dotted one may name a PCD. -/
  | word (text : String)
  | unary (op : PrefixOp) (operand : Expr)
  | binary (op : BinaryOp) (left right : Expr)
  deriving DecidableEq, Repr

end FirmwareWorkspace.Expression

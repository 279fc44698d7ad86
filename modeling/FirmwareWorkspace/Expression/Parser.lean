import FirmwareWorkspace.Expression.Lexer
import FirmwareWorkspace.Expression.Tree

/-!
# Reading condition trees

The reader goes over the tokens once. It holds the operators of the innermost
open group that still wait for their right operand, and for each enclosing group
the column of its parenthesis and what waits there. When an operator arrives,
the waiting operators that are at least as strong take the operand read so far;
the others keep waiting. A prefix operator gives way only to operators of
strength `PrefixOp.operandStrength` or more.
-/
namespace FirmwareWorkspace.Expression

/-- An operator that waits for its right operand. -/
inductive Waiting where
  | unary (op : PrefixOp)
  | binary (left : Expr) (op : BinaryOp)
  deriving DecidableEq, Repr

namespace Waiting

/-- Least strength that an arriving operator needs to take the operand away. -/
def yieldsTo : Waiting → Nat
  | unary _ => PrefixOp.operandStrength
  | binary _ op => op.strength + 1

def apply : Waiting → Expr → Expr
  | unary op, operand => .unary op operand
  | binary left op, right => .binary op left right

end Waiting

/-- Let every waiting operator that does not yield to strength `arriving` take its operand. -/
def settle (arriving : Nat) : List Waiting → Expr → List Waiting × Expr
  | [], operand => ([], operand)
  | top :: below, operand =>
    if arriving < top.yieldsTo then settle arriving below (top.apply operand)
    else (top :: below, operand)

/-- Let all waiting operators take their operands, at the end of a group. -/
def settleAll (waiting : List Waiting) (operand : Expr) : Expr :=
  waiting.foldl (fun operand top => top.apply operand) operand

/-- An enclosing group: the column of the parenthesis that suspended it, and what waits in it. -/
structure Suspended where
  column : Nat
  waiting : List Waiting
  deriving DecidableEq, Repr

/-- The tree that an operand token stands for. -/
def Token.leaf? : Token → Option Expr
  | truth value => some (.truth value)
  | number value => some (.number value)
  | quoted text => some (.quoted text)
  | reference name => some (.reference name)
  | word text => some (.word text)
  | _ => none

/-- The prefix operator that a token stands for where an operand is due. -/
def Token.prefixOp? : Token → Option PrefixOp
  | not => some .not
  | complement => some .complement
  | binary .sub => some .negate
  | _ => none

/-- Read the remaining tokens. `operand` is the operand just read, or `none`
where one is due; `finish` is the column of the end of the text. -/
def readFrom (finish : Nat) (waiting : List Waiting) (outer : List Suspended)
    (operand : Option Expr) : List Placed → Except EvalError Expr
  | [] =>
    match operand, outer with
    | none, _ => .error (.badSyntax finish .unexpectedEnd)
    | some _, group :: _ => .error (.badSyntax group.column .unclosedGroup)
    | some operand, [] => .ok (settleAll waiting operand)
  | ⟨token, column⟩ :: rest =>
    match operand with
    | none =>
      match token.leaf?, token.prefixOp?, token with
      | some leaf, _, _ => readFrom finish waiting outer (some leaf) rest
      | none, some op, _ => readFrom finish (.unary op :: waiting) outer none rest
      | none, none, .opening => readFrom finish [] (⟨column, waiting⟩ :: outer) none rest
      | none, none, _ => .error (.badSyntax column (.unexpectedToken token))
    | some operand =>
      match token, outer with
      | .binary op, _ =>
        let (waiting, left) := settle op.strength waiting operand
        readFrom finish (.binary left op :: waiting) outer none rest
      | .closing, group :: outer =>
        readFrom finish group.waiting outer (some (settleAll waiting operand)) rest
      | _, group :: _ => .error (.badSyntax group.column .unclosedGroup)
      | _, [] => .error (.badSyntax column (.unexpectedToken token))

/-- The tree of a condition. -/
def parse (text : String) : Except EvalError Expr :=
  match tokenize text with
  | .error error => .error error
  | .ok [] => .error (.badSyntax 0 .emptyText)
  | .ok tokens => readFrom (Text.byteLength text) [] [] none tokens

end FirmwareWorkspace.Expression

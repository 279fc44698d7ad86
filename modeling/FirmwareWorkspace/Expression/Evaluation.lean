import FirmwareWorkspace.Expression.Parser
import FirmwareWorkspace.Expression.Value

/-!
# Evaluating conditions

`and` and `or` look at their right operand only if the left one leaves the
answer open. Every other operator evaluates both operands, left first.
-/
namespace FirmwareWorkspace.Expression

/-- Where references and PCD names get their text from. References inside the
text of a macro are already expanded. -/
structure Scope where
  macroText : String → Option String
  pcdText : String → String → Option String

/-- A bare word stands for itself, unless it is the dotted name of a known PCD. -/
def wordValue (scope : Scope) (word : String) : Value :=
  match Text.splitOnce '.' word with
  | none => .str word
  | some (space, name) =>
    match scope.pcdText space name with
    | none => .str word
    | some text => .ofText text

def applyPrefix (op : PrefixOp) (value : Value) : Except EvalError Value :=
  match op, value with
  | .not, value => .ok (.bool (!value.truthy))
  | _, .undefined => .ok .undefined
  | op, value =>
    match value.asInt with
    | none => .error (.typeMismatch op.symbol value.kind value.kind)
    | some n => .ok (.int (if op = .complement then Integer.complement n else Integer.neg n))

/-- Two strings are equal as text; otherwise both sides need an integer view. -/
def equals : Value → Value → Bool
  | .str left, .str right => left == right
  | left, right =>
    match left.asInt, right.asInt with
    | some a, some b => a == b
    | _, _ => false

/-- Two strings are ordered as text, by code point; otherwise both sides need an integer view. -/
def order? : Value → Value → Option Ordering
  | .str left, .str right => some (compareOfLessAndEq left right)
  | left, right =>
    match left.asInt, right.asInt with
    | some a, some b => some (compareOfLessAndEq a b)
    | _, _ => none

/-- Whether the text of the left value is one of the words of the right one. -/
def isMember (needle haystack : Value) : Bool :=
  (Text.words haystack.render).contains needle.render

def mismatch (op : BinaryOp) (left right : Value) : EvalError :=
  .typeMismatch op.symbol left.kind right.kind

/-- The answer of an order test, if the two values have an order. -/
def compared (op : BinaryOp) (left right : Value) (test : Ordering → Bool) :
    Except EvalError Value :=
  match order? left right with
  | none => .error (mismatch op left right)
  | some ordering => .ok (.bool (test ordering))

/-- Integer operations on two integer views. -/
def integerResult (op : BinaryOp) (a b : Int) : Option (Except EvalError Int) :=
  match op with
  | .bitOr => some (.ok (Integer.bitOr a b))
  | .bitXor => some (.ok (Integer.bitXor a b))
  | .bitAnd => some (.ok (Integer.bitAnd a b))
  | .add => some (.ok (Integer.add a b))
  | .sub => some (.ok (Integer.sub a b))
  | .mul => some (.ok (Integer.mul a b))
  | .div => some (if b = 0 then .error .divisionByZero else .ok (Integer.div a b))
  | .rem => some (if b = 0 then .error .moduloByZero else .ok (Integer.rem a b))
  | .shl => some (.ok (Integer.shl a b))
  | .shr => some (.ok (Integer.shr a b))
  | _ => none

/-- Addition joins two strings, unless both read as integers. -/
def joined? : BinaryOp → Value → Value → Option String
  | .add, .str left, .str right =>
    if (Value.str left).asInt.isSome && (Value.str right).asInt.isSome then none
    else some (left ++ right)
  | _, _, _ => none

def arithmetic (op : BinaryOp) (left right : Value) : Except EvalError Value :=
  match joined? op left right with
  | some text => .ok (.str text)
  | none =>
    match left.asInt, right.asInt with
    | some a, some b =>
      match integerResult op a b with
      | some result => result.map .int
      | none => .error (mismatch op left right)
    | _, _ => .error (mismatch op left right)

/-- Whether the result of an operator is a boolean, also for an undefined operand. -/
def isTest : BinaryOp → Bool
  | .eq | .ne | .lt | .gt | .le | .ge | .isIn => true
  | _ => false

/-- Apply an operator to two evaluated operands. -/
def applyBinary (op : BinaryOp) (left right : Value) : Except EvalError Value :=
  match op with
  | .and | .or => .ok (.bool right.truthy)
  | op =>
    if left = .undefined ∨ right = .undefined then
      .ok (if isTest op then .bool false else .undefined)
    else
      match op with
      | .eq => .ok (.bool (equals left right))
      | .ne => .ok (.bool (!equals left right))
      | .lt => compared op left right (· == .lt)
      | .gt => compared op left right (· == .gt)
      | .le => compared op left right (· != .gt)
      | .ge => compared op left right (· != .lt)
      | .isIn => .ok (.bool (isMember left right))
      | op => arithmetic op left right

/-- The answer that the left operand of `and` or `or` settles alone. -/
def shortcut? (op : BinaryOp) (left : Value) : Option Bool :=
  match op with
  | .and => if left.truthy then none else some false
  | .or => if left.truthy then some true else none
  | _ => none

def evaluate (scope : Scope) : Expr → Except EvalError Value
  | .truth value => .ok (.bool value)
  | .number value => .ok (.int value)
  | .quoted text => .ok (.str text)
  | .reference name =>
    .ok (match scope.macroText name with
      | none => .undefined
      | some text => .ofText text)
  | .word text => .ok (wordValue scope text)
  | .unary op operand =>
    match evaluate scope operand with
    | .error error => .error error
    | .ok value => applyPrefix op value
  | .binary op left right =>
    match evaluate scope left with
    | .error error => .error error
    | .ok leftValue =>
      match shortcut? op leftValue with
      | some answer => .ok (.bool answer)
      | none =>
        match evaluate scope right with
        | .error error => .error error
        | .ok rightValue => applyBinary op leftValue rightValue

/-- Read and evaluate a condition. -/
def evaluateText (scope : Scope) (text : String) : Except EvalError Value :=
  match parse text with
  | .error error => .error error
  | .ok tree => evaluate scope tree

/-- Whether a condition holds. -/
def evaluateCondition (scope : Scope) (text : String) : Except EvalError Bool :=
  (evaluateText scope text).map Value.truthy

end FirmwareWorkspace.Expression

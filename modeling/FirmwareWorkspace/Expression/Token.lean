import FirmwareWorkspace.Expression.Operator

/-!
# Tokens of the condition language

The minus sign is one token, read as subtraction or negation by its place.
-/
namespace FirmwareWorkspace.Expression

inductive Token where
  /-- A reference `$(NAME)`. -/
  | reference (name : String)
  | number (value : Nat)
  /-- The text between the quotes of a quoted string, as written. -/
  | quoted (text : String)
  | truth (value : Bool)
  /-- A bare word, possibly dotted. -/
  | word (text : String)
  | binary (op : BinaryOp)
  | not
  | complement
  | opening
  | closing
  deriving DecidableEq, Repr

/-- A token and the byte column at which it starts. -/
structure Placed where
  token : Token
  column : Nat
  deriving DecidableEq, Repr

def truthText (value : Bool) : String :=
  if value then "TRUE" else "FALSE"

/-- How a token is named in a complaint. -/
def Token.describe : Token → String
  | reference name => "macro `$(" ++ name ++ ")`"
  | number value => "number `" ++ toString value ++ "`"
  | quoted text => "string \"" ++ text ++ "\""
  | truth value => "`" ++ truthText value ++ "`"
  | word text => "`" ++ text ++ "`"
  | binary op => "operator `" ++ op.symbol ++ "`"
  | not => "operator `not`"
  | complement => "operator `~`"
  | opening => "`(`"
  | closing => "`)`"

end FirmwareWorkspace.Expression

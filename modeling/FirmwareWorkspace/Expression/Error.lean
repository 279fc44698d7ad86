import FirmwareWorkspace.Expression.Token

/-!
# Errors of the condition language

Errors are values that record the cause; the wording is in `message`. A syntax
error spoils only the condition in which it stands, while a type mismatch or a
division by zero stops the file.
-/
namespace FirmwareWorkspace.Expression

/-- What is wrong with the spelling of a condition. -/
inductive SyntaxFault where
  /-- No token starts like this. -/
  | strayText (text : String)
  | emptyText
  | unexpectedToken (token : Token)
  | unexpectedEnd
  | unclosedGroup
  deriving DecidableEq, Repr

def SyntaxFault.message : SyntaxFault → String
  | strayText text => "unexpected character sequence `" ++ text ++ "`"
  | emptyText => "empty expression"
  | unexpectedToken token => "unexpected " ++ token.describe
  | unexpectedEnd => "unexpected end of expression"
  | unclosedGroup => "unclosed `(`"

/-- The kinds of value an operator may meet. -/
inductive ValueKind where
  | boolean | integer | string | undefined
  deriving DecidableEq, Repr

def ValueKind.name : ValueKind → String
  | boolean => "boolean"
  | integer => "integer"
  | string => "string"
  | undefined => "undefined"

inductive EvalError where
  | badSyntax (column : Nat) (fault : SyntaxFault)
  | typeMismatch (operator : String) (left right : ValueKind)
  | divisionByZero
  | moduloByZero
  deriving DecidableEq, Repr

def EvalError.message : EvalError → String
  | badSyntax column fault => "syntax error at column " ++ toString column ++ ": " ++ fault.message
  | typeMismatch operator left right =>
    "type mismatch: operator `" ++ operator ++ "` cannot be applied to " ++ left.name ++ " and " ++
      right.name
  | divisionByZero => "division by zero"
  | moduloByZero => "modulo by zero"

/-- Whether the error stops the file in which the condition stands. -/
def EvalError.isFatal : EvalError → Bool
  | badSyntax _ _ => false
  | _ => true

end FirmwareWorkspace.Expression

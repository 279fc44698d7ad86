import FirmwareWorkspace.Expression.Error
import FirmwareWorkspace.Expression.Integer
import FirmwareWorkspace.Text.Cut

/-!
# Reading tokens

`lexeme` looks at the text from one position on and tells how many characters
the next token, blank or stray sequence covers. `tokensFrom` walks the text
once; after a token it passes over the characters that the token covers, so the
recursion is on the text itself.
-/
namespace FirmwareWorkspace.Expression

/-- What stands at a position, with the number of characters it covers. -/
inductive Lexeme where
  | blank
  | token (token : Token) (size : Nat)
  | stray (size : Nat)
  deriving DecidableEq, Repr

/-- The blanks between tokens: space, tab, carriage return, line feed, form feed. -/
def isGap (c : Char) : Bool :=
  c == ' ' || c == '\t' || c == '\r' || c == '\n' || c == '\x0c'

/-- Length of the body of a quoted string, and whether the closing quote
follows it. A backslash takes the next character along, unless that is a line
feed. -/
def quotedBody (quote : Char) : List Char → Nat × Bool
  | [] => (0, false)
  | [c] => if c = quote then (0, true) else if c = '\\' then (0, false) else (1, false)
  | c :: d :: rest =>
    if c = quote then (0, true)
    else if c = '\\' then
      if d = '\n' then (0, false)
      else
        let (size, closed) := quotedBody quote rest
        (size + 2, closed)
    else
      let (size, closed) := quotedBody quote (d :: rest)
      (size + 1, closed)

/-- Length of the rest of a bare word. Segments after a dot may hold brackets. -/
def wordTail (dotted : Bool) : List Char → Nat
  | [] => 0
  | [c] => if inSegment c then 1 else 0
  | c :: d :: rest =>
    if inSegment c then wordTail dotted (d :: rest) + 1
    else if c = '.' && Chars.isIdentStart d then wordTail true rest + 2
    else 0
where
  inSegment (c : Char) : Bool :=
    Chars.isIdentPart c || (dotted && (c == '[' || c == ']'))

/-- Words that stand for an operator or a truth value, in any letter case. -/
def keyword? (word : String) : Option Token :=
  match Text.lower word with
  | "true" => some (.truth true)
  | "false" => some (.truth false)
  | "and" => some (.binary .and)
  | "or" => some (.binary .or)
  | "not" => some .not
  | "xor" => some (.binary .bitXor)
  | "in" => some (.binary .isIn)
  | "eq" => some (.binary .eq)
  | "ne" => some (.binary .ne)
  | "lt" => some (.binary .lt)
  | "gt" => some (.binary .gt)
  | "le" => some (.binary .le)
  | "ge" => some (.binary .ge)
  | _ => none

/-- A quoted string whose opening covers `opening` characters. -/
def quotedLexeme (opening : Nat) (quote : Char) (rest : List Char) : Lexeme :=
  match quotedBody quote rest with
  | (size, true) => .token (.quoted (.ofList (rest.take size))) (opening + size + 1)
  | (size, false) => .stray (opening + size)

/-- A reference, after its dollar sign. -/
def referenceLexeme : List Char → Lexeme
  | '(' :: c :: rest =>
    if Chars.isIdentStart c then
      let name := c :: rest.takeWhile Chars.isIdentPart
      if (rest.dropWhile Chars.isIdentPart).head? = some ')' then
        .token (.reference (.ofList name)) (name.length + 3)
      else .stray (name.length + 2)
    else .stray 1
  | _ => .stray 1

/-- A number token, unless its value is too large. -/
def numberLexeme (value size : Nat) : Lexeme :=
  if value ≤ Integer.largest then .token (.number value) size else .stray size

/-- A decimal or hexadecimal number that starts with the digit `c`. -/
def digitsLexeme (c : Char) (rest : List Char) : Lexeme :=
  match c, rest with
  | '0', x :: d :: more =>
    if (x == 'x' || x == 'X') && Chars.isHexDigit d then
      let digits := d :: more.takeWhile Chars.isHexDigit
      numberLexeme (Chars.digitsValue 16 digits) (digits.length + 2)
    else decimal
  | _, _ => decimal
where
  decimal : Lexeme :=
    let digits := c :: rest.takeWhile Char.isDigit
    numberLexeme (Chars.digitsValue 10 digits) digits.length

/-- A bare word or keyword that starts with `c`. -/
def wordLexeme (c : Char) (rest : List Char) : Lexeme :=
  let size := wordTail false rest
  let word := String.ofList (c :: rest.take size)
  .token ((keyword? word).getD (.word word)) (size + 1)

/-- An operator or parenthesis, the longest spelling first. -/
def symbolLexeme (c : Char) (next : Option Char) : Lexeme :=
  match c, next with
  | '=', some '=' => .token (.binary .eq) 2
  | '!', some '=' => .token (.binary .ne) 2
  | '<', some '=' => .token (.binary .le) 2
  | '>', some '=' => .token (.binary .ge) 2
  | '<', some '<' => .token (.binary .shl) 2
  | '>', some '>' => .token (.binary .shr) 2
  | '&', some '&' => .token (.binary .and) 2
  | '|', some '|' => .token (.binary .or) 2
  | '<', _ => .token (.binary .lt) 1
  | '>', _ => .token (.binary .gt) 1
  | '!', _ => .token .not 1
  | '&', _ => .token (.binary .bitAnd) 1
  | '|', _ => .token (.binary .bitOr) 1
  | '^', _ => .token (.binary .bitXor) 1
  | '~', _ => .token .complement 1
  | '+', _ => .token (.binary .add) 1
  | '-', _ => .token (.binary .sub) 1
  | '*', _ => .token (.binary .mul) 1
  | '/', _ => .token (.binary .div) 1
  | '%', _ => .token (.binary .rem) 1
  | '(', _ => .token .opening 1
  | ')', _ => .token .closing 1
  | _, _ => .stray 1

/-- What stands at the beginning of `c :: rest`. -/
def lexeme (c : Char) (rest : List Char) : Lexeme :=
  if isGap c then .blank
  else if c = '$' then referenceLexeme rest
  else if c.isDigit then digitsLexeme c rest
  else if c = '"' || c = '\'' then quotedLexeme 1 c rest
  else if c = 'L' && rest.head? = some '"' then quotedLexeme 2 '"' (rest.drop 1)
  else if Chars.isIdentStart c then wordLexeme c rest
  else symbolLexeme c rest.head?

/-- The tokens of a text that starts at byte `column`, of which the first
`covered` characters belong to a token already read. -/
def tokensFrom (column covered : Nat) : List Char → Except EvalError (List Placed)
  | [] => .ok []
  | c :: rest =>
    match covered with
    | left + 1 => tokensFrom (column + c.utf8Size) left rest
    | 0 =>
      match lexeme c rest with
      | .blank => tokensFrom (column + c.utf8Size) 0 rest
      | .stray size => .error (.badSyntax column (.strayText (.ofList ((c :: rest).take size))))
      | .token token size =>
        match tokensFrom (column + c.utf8Size) (size - 1) rest with
        | .error error => .error error
        | .ok tokens => .ok (⟨token, column⟩ :: tokens)

/-- All tokens of a condition, or the first stray sequence. -/
def tokenize (text : String) : Except EvalError (List Placed) :=
  tokensFrom 0 0 text.toList

end FirmwareWorkspace.Expression

import FirmwareWorkspace.Json.Value
import FirmwareWorkspace.Text.Digit

/-!
# Reading JSON

Every reader takes the text from one place on and gives what it read and the text
after it. A value needs at most two calls for each of its characters, so the
length of the text bounds the calls.
-/
namespace FirmwareWorkspace.Json

def isSpace (c : Char) : Bool :=
  c == ' ' || c == '\n' || c == '\t' || c == '\r'

def skipSpace (cs : List Char) : List Char :=
  cs.dropWhile isSpace

/-- A piece of a string: a character, or a code unit written as an escape. -/
inductive Piece where
  | plain (c : Char)
  | unit (code : Nat)
  deriving DecidableEq, Repr

def simpleEscape? : Char → Option Char
  | '"' => some '"'
  | '\\' => some '\\'
  | '/' => some '/'
  | 'b' => some '\x08'
  | 'f' => some '\x0c'
  | 'n' => some '\n'
  | 'r' => some '\r'
  | 't' => some '\t'
  | _ => none

/-- The pieces of a string up to its closing quote. -/
def pieces? : List Char → Option (List Piece × List Char)
  | '"' :: rest => some ([], rest)
  | '\\' :: 'u' :: a :: b :: c :: d :: rest =>
    if [a, b, c, d].all Chars.isHexDigit then
      (pieces? rest).map fun (pieces, rest) =>
        (.unit (Chars.digitsValue 16 [a, b, c, d]) :: pieces, rest)
    else none
  | '\\' :: c :: rest =>
    (simpleEscape? c).bind fun c =>
      (pieces? rest).map fun (pieces, rest) => (.plain c :: pieces, rest)
  | c :: rest =>
    if c = '\\' ∨ c.toNat < 0x20 then none
    else (pieces? rest).map fun (pieces, rest) => (.plain c :: pieces, rest)
  | [] => none

def isHighSurrogate (code : Nat) : Bool := 0xD800 ≤ code && code ≤ 0xDBFF

def isLowSurrogate (code : Nat) : Bool := 0xDC00 ≤ code && code ≤ 0xDFFF

/-- The characters of a string; surrogates must come in pairs. -/
def characters? : List Piece → Option (List Char)
  | [] => some []
  | .plain c :: rest => (characters? rest).map (c :: ·)
  | .unit high :: .unit low :: rest =>
    if isHighSurrogate high && isLowSurrogate low then
      (characters? rest).map
        (.ofNat (0x10000 + (high - 0xD800) * 0x400 + (low - 0xDC00)) :: ·)
    else if isHighSurrogate high || isLowSurrogate high then none
    else (characters? (.unit low :: rest)).map (.ofNat high :: ·)
  | .unit code :: rest =>
    if isHighSurrogate code || isLowSurrogate code then none
    else (characters? rest).map (.ofNat code :: ·)

/-- A string after its opening quote. -/
def string? (cs : List Char) : Option (String × List Char) :=
  (pieces? cs).bind fun (pieces, rest) => (characters? pieces).map fun cs => (.ofList cs, rest)

/-- A non-empty run of digits. -/
def digits? (cs : List Char) : Option (List Char × List Char) :=
  let digits := cs.takeWhile Char.isDigit
  if digits = [] then none else some (digits, cs.dropWhile Char.isDigit)

/-- The integer part of a number: a zero, or digits that do not start with one. -/
def integerPart? : List Char → Option (Nat × List Char)
  | '0' :: rest => some (0, rest)
  | cs => (digits? cs).map fun (digits, rest) => (Chars.digitsValue 10 digits, rest)

/-- The fraction of a number, if one begins here. The flag tells whether it does. -/
def fraction? : List Char → Option (Bool × List Char)
  | '.' :: rest => (digits? rest).map fun (_, rest) => (true, rest)
  | cs => some (false, cs)

/-- The exponent of a number, if one begins here. The flag tells whether it does. -/
def exponent? : List Char → Option (Bool × List Char)
  | [] => some (false, [])
  | c :: rest =>
    if c = 'e' ∨ c = 'E' then
      let rest := match rest with
        | '+' :: rest => rest
        | '-' :: rest => rest
        | rest => rest
      (digits? rest).map fun (_, rest) => (true, rest)
    else some (false, c :: rest)

def number? (cs : List Char) : Option (Value × List Char) :=
  let (negative, cs) := match cs with
    | '-' :: rest => (true, rest)
    | cs => (false, cs)
  (integerPart? cs).bind fun (value, rest) =>
    (fraction? rest).bind fun (hasFraction, rest) =>
      (exponent? rest).map fun (hasExponent, rest) =>
        (if negative || hasFraction || hasExponent then .otherNumber else .natural value, rest)

/-- A word that stands for a value. -/
def literal? : List Char → Option (Value × List Char)
  | 'n' :: 'u' :: 'l' :: 'l' :: rest => some (.null, rest)
  | 't' :: 'r' :: 'u' :: 'e' :: rest => some (.bool true, rest)
  | 'f' :: 'a' :: 'l' :: 's' :: 'e' :: rest => some (.bool false, rest)
  | _ => none

mutual

def value? : Nat → List Char → Option (Value × List Char)
  | 0, _ => none
  | calls + 1, cs =>
    match skipSpace cs with
    | '"' :: rest => (string? rest).map fun (text, rest) => (.string text, rest)
    | '[' :: rest =>
      match skipSpace rest with
      | ']' :: rest => some (.array [], rest)
      | rest => (elements? calls rest).map fun (elements, rest) => (.array elements, rest)
    | '{' :: rest =>
      match skipSpace rest with
      | '}' :: rest => some (.object [], rest)
      | rest => (members? calls rest).map fun (members, rest) => (.object members, rest)
    | cs => (literal? cs).or (number? cs)

/-- Elements up to the closing bracket. -/
def elements? : Nat → List Char → Option (List Value × List Char)
  | 0, _ => none
  | calls + 1, cs =>
    (value? calls cs).bind fun (value, rest) =>
      match skipSpace rest with
      | ',' :: rest => (elements? calls rest).map fun (elements, rest) => (value :: elements, rest)
      | ']' :: rest => some ([value], rest)
      | _ => none

/-- Members up to the closing brace. -/
def members? : Nat → List Char → Option (List (String × Value) × List Char)
  | 0, _ => none
  | calls + 1, cs =>
    match skipSpace cs with
    | '"' :: rest =>
      (string? rest).bind fun (name, rest) =>
        match skipSpace rest with
        | ':' :: rest =>
          (value? calls rest).bind fun (value, rest) =>
            match skipSpace rest with
            | ',' :: rest =>
              (members? calls rest).map fun (members, rest) => ((name, value) :: members, rest)
            | '}' :: rest => some ([(name, value)], rest)
            | _ => none
        | _ => none
    | _ => none

end

/-- The value of a text that holds nothing else. -/
def parse? (text : String) : Option Value :=
  match value? (2 * text.length + 2) text.toList with
  | some (value, rest) => if skipSpace rest = [] then some value else none
  | none => none

end FirmwareWorkspace.Json

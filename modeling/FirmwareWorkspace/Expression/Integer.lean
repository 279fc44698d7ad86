import FirmwareWorkspace.Text.Digit

/-!
# Integers of 128 bits

Integers lie between `-2 ^ 127` and `2 ^ 127 - 1`. Sums, differences and
products are taken modulo `2 ^ 128` and brought back into that range; bitwise
operations act on the two's complement form.
-/
namespace FirmwareWorkspace.Expression.Integer

def modulus : Nat := 1 <<< 128

def largest : Nat := 1 <<< 127 - 1

/-- The integers that a value can hold. -/
def InRange (n : Int) : Prop := -(largest : Int) - 1 ≤ n ∧ n ≤ largest

instance (n : Int) : Decidable (InRange n) := inferInstanceAs (Decidable (_ ∧ _))

/-- The integer in range that is congruent to `n`. -/
def wrap (n : Int) : Int := n.bmod modulus

def add (a b : Int) : Int := wrap (a + b)

def sub (a b : Int) : Int := wrap (a - b)

def mul (a b : Int) : Int := wrap (a * b)

def neg (a : Int) : Int := wrap (-a)

/-- Quotient rounded toward zero. -/
def div (a b : Int) : Int := wrap (a.tdiv b)

/-- Remainder with the sign of the dividend. -/
def rem (a b : Int) : Int := wrap (a.tmod b)

def bits (a : Int) : BitVec 128 := BitVec.ofInt 128 a

def bitAnd (a b : Int) : Int := (bits a &&& bits b).toInt

def bitOr (a b : Int) : Int := (bits a ||| bits b).toInt

def bitXor (a b : Int) : Int := (bits a ^^^ bits b).toInt

def complement (a : Int) : Int := (~~~ bits a).toInt

/-- Whether a shift by `n` moves less than the whole width. -/
def isShift (n : Int) : Bool := 0 ≤ n && n < 128

/-- Any amount outside the width empties the word. -/
def shl (a n : Int) : Int :=
  if isShift n then wrap (a * (1 <<< n.toNat : Nat)) else 0

/-- Arithmetic shift; any amount outside the width empties the word. -/
def shr (a n : Int) : Int :=
  if isShift n then a / (1 <<< n.toNat : Nat) else 0

/-- An optionally signed, non-empty run of digits whose value is in range. -/
def ofDigits? (base : Nat) (isDigit : Char → Bool) (cs : List Char) : Option Int :=
  match cs with
  | '+' :: digits => magnitude digits fun n => n
  | '-' :: digits => magnitude digits fun n => -n
  | digits => magnitude digits fun n => n
where
  magnitude (digits : List Char) (sign : Int → Int) : Option Int :=
    let value := sign (Chars.digitsValue base digits)
    if digits ≠ [] ∧ digits.all isDigit ∧ InRange value then some value else none

end FirmwareWorkspace.Expression.Integer

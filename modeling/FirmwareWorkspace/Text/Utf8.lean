/-!
# Reading bytes as text

A byte sequence is read character by character. Where it is malformed, the
longest beginning of a character that stands there counts as one fault; strict
reading refuses it and lenient reading puts the replacement character in its place.
-/
namespace FirmwareWorkspace.Utf8

/-- The admissible second bytes after a first byte, and how many bytes follow in all. -/
def following (first : Nat) : Option (Nat × Nat × Nat) :=
  if 0xC2 ≤ first ∧ first ≤ 0xDF then some (0x80, 0xBF, 1)
  else if first = 0xE0 then some (0xA0, 0xBF, 2)
  else if first = 0xED then some (0x80, 0x9F, 2)
  else if 0xE1 ≤ first ∧ first ≤ 0xEF then some (0x80, 0xBF, 2)
  else if first = 0xF0 then some (0x90, 0xBF, 3)
  else if first = 0xF4 then some (0x80, 0x8F, 3)
  else if 0xF1 ≤ first ∧ first ≤ 0xF3 then some (0x80, 0xBF, 3)
  else none

/-- Read `count` more bytes, the first of them between `low` and `high`, onto the
bits collected so far. Gives the number of bytes taken and, if all were there,
the code point. -/
def continuation (low high : Nat) : Nat → Nat → List UInt8 → Nat × Option Nat
  | 0, bits, _ => (0, some bits)
  | _ + 1, _, [] => (0, none)
  | count + 1, bits, byte :: rest =>
    if low ≤ byte.toNat ∧ byte.toNat ≤ high then
      let (taken, code) := continuation 0x80 0xBF count (bits * 64 + (byte.toNat - 0x80)) rest
      (taken + 1, code)
    else (0, none)

/-- The bits that a first byte contributes. -/
def leadingBits (first count : Nat) : Nat :=
  first % 1 <<< (6 - count)

/-- The character at the beginning of `first :: rest`, and how many bytes of
`rest` belong to it or to the fault in its place. -/
def character (first : UInt8) (rest : List UInt8) : Option Char × Nat :=
  if first.toNat < 0x80 then (some (.ofNat first.toNat), 0)
  else
    match following first.toNat with
    | none => (none, 0)
    | some (low, high, count) =>
      let (taken, code) := continuation low high count (leadingBits first.toNat count) rest
      (code.map Char.ofNat, taken)

/-- The characters and faults of a byte sequence, of which the first `covered`
bytes belong to a character already read. -/
def charactersFrom (covered : Nat) : List UInt8 → List (Option Char)
  | [] => []
  | byte :: rest =>
    match covered with
    | left + 1 => charactersFrom left rest
    | 0 =>
      let (character, taken) := character byte rest
      character :: charactersFrom taken rest

/-- The text, if there is no fault. -/
def decode? (bytes : List UInt8) : Option String :=
  ((charactersFrom 0 bytes).mapM id).map .ofList

/-- The text with U+FFFD for every fault. -/
def decodeLenient (bytes : List UInt8) : String :=
  .ofList ((charactersFrom 0 bytes).map fun character => character.getD '\ufffd')

end FirmwareWorkspace.Utf8

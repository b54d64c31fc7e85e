/-
**The conversions of `sscanf`.**

As the C standard has them: a conversion skips white space and takes the longest start of the text
that is a number or can be continued to one. It fails unless that start is a number itself.

* `scanInt` — `%d`.
* `scanFloat` — `%f`: decimal and hexadecimal numbers, `inf` and `nan`.
-/

import Mathlib

namespace Robocon.Vision

/-! ### Characters -/

def isSpace (c : UInt8) : Bool := c = 0x20 || (0x09 ≤ c && c ≤ 0x0D)

def toLower (c : UInt8) : UInt8 := if 0x41 ≤ c ∧ c ≤ 0x5A then c + 0x20 else c

/-- The value of a digit. -/
def digit (base : ℕ) (c : UInt8) : Option ℕ :=
  let c := toLower c
  let value :=
    if 0x30 ≤ c ∧ c ≤ 0x39 then c.toNat - 0x30
    else if 0x61 ≤ c ∧ c ≤ 0x7A then c.toNat - 0x57
    else base
  if value < base then some value else none

/-- The characters between the brackets of `nan(...)`. -/
def isWordChar (c : UInt8) : Bool := (digit 36 c).isSome || c = 0x5F

/-- The text after a character, whatever its case. -/
def after (c : UInt8) : List UInt8 → Option (List UInt8)
  | [] => none
  | first :: text => if toLower first = c then some text else none

/-- The text after a word, whatever its case. -/
def afterWord (word text : List UInt8) : Option (List UInt8) :=
  word.foldlM (fun text c => after c text) text

/-! ### Integers -/

/-- The digits at the start of a text, and the rest of it. -/
def digits (base : ℕ) : List UInt8 → List ℕ × List UInt8
  | [] => ([], [])
  | c :: text =>
    match digit base c with
    | none => ([], c :: text)
    | some first => (first :: (digits base text).1, (digits base text).2)

/-- The number that digits stand for. -/
def number (base : ℕ) (ds : List ℕ) : ℕ := ds.foldl (fun value d => base * value + d) 0

/-- Whether there is a minus sign, and the text after the sign. -/
def sign (text : List UInt8) : Bool × List UInt8 :=
  match after 0x2D text with
  | some rest => (true, rest)
  | none => (false, (after 0x2B text).getD text)

/-- A decimal integer at the start of a text. -/
def integer (text : List UInt8) : Option (ℤ × List UInt8) :=
  let (negative, text) := sign text
  match digits 10 text with
  | ([], _) => none
  | (ds, rest) => some (if negative then -(number 10 ds : ℤ) else number 10 ds, rest)

/-- The conversion `%d`. -/
def scanInt (text : List UInt8) : Option (ℤ × List UInt8) := integer (text.dropWhile isSpace)

/-! ### Floats -/

/-- The digits before and after a point: their number, how many are after the point, and the
rest. -/
def mantissa (base : ℕ) (text : List UInt8) : Option (ℕ × ℕ × List UInt8) :=
  let (whole, text) := digits base text
  let (fraction, text) := ((after 0x2E text).map (digits base)).getD ([], text)
  if whole ++ fraction = [] then none
  else some (number base (whole ++ fraction), fraction.length, text)

/-- An exponent after its letter, `0` without the letter. -/
def exponent (letter : UInt8) (text : List UInt8) : Option (ℤ × List UInt8) :=
  match after letter text with
  | some rest => integer rest
  | none => some (0, text)

/-- `m * 10 ^ e`. -/
def decimalValue (m : ℕ) (e : ℤ) : Float32 := .ofScientific m (e < 0) e.natAbs

/-- `m * 2 ^ e`. -/
def binaryValue (m : ℕ) (e : ℤ) : Float32 :=
  if e < 0 then .ofScientific (m * 5 ^ e.natAbs) true e.natAbs
  else .ofScientific (m * 2 ^ e.natAbs) false 0

/-- A decimal number. -/
def decimal (text : List UInt8) : Option (Float32 × List UInt8) := do
  let (m, places, text) ← mantissa 10 text
  let (e, text) ← exponent 0x65 text
  return (decimalValue m (e - places), text)

/-- A hexadecimal number after its `0x`. -/
def hexadecimal (text : List UInt8) : Option (Float32 × List UInt8) := do
  let (m, places, text) ← mantissa 16 text
  let (e, text) ← exponent 0x70 text
  return (binaryValue m (e - 4 * places), text)

/-- `inf` or `infinity` after its first letter. -/
def infinity (text : List UInt8) : Option (Float32 × List UInt8) := do
  let text ← afterWord [0x6E, 0x66] text
  match after 0x69 text with
  | some rest => return (.ofBits 0x7F800000, ← afterWord [0x6E, 0x69, 0x74, 0x79] rest)
  | none => return (.ofBits 0x7F800000, text)

/-- `nan` or `nan(...)` after its first letter. -/
def notANumber (text : List UInt8) : Option (Float32 × List UInt8) := do
  let text ← afterWord [0x61, 0x6E] text
  match after 0x28 text with
  | some rest => return (.ofBits 0x7FC00000, ← after 0x29 (rest.dropWhile isWordChar))
  | none => return (.ofBits 0x7FC00000, text)

/-- A number without its sign. -/
def magnitude (text : List UInt8) : Option (Float32 × List UInt8) :=
  match after 0x69 text, after 0x6E text, afterWord [0x30, 0x78] text with
  | some rest, _, _ => infinity rest
  | none, some rest, _ => notANumber rest
  | none, none, some rest => hexadecimal rest
  | none, none, none => decimal text

/-- The conversion `%f`. -/
def scanFloat (text : List UInt8) : Option (Float32 × List UInt8) :=
  let (negative, text) := sign (text.dropWhile isSpace)
  (magnitude text).map fun (value, rest) => (if negative then -value else value, rest)

end Robocon.Vision

/-
**The packets of the camera (`drv_visual.c`).**

The camera sends a ball as text between `b` and `e`. `cvhandle` collects the bytes in `b[200]`, and
`cvparse_data` reads the text with `sscanf` into `aball` and copies that to the entry of `ball` with
the ball's number.

* `cvhandle` — one byte. It is a machine whose observation of a byte is the list of the texts that
  `cvparse_data` is called with for it.
* `cvparseData` — the text of a packet.

Writes outside `b` and `ball` fail, and so does a conversion to an `int` that does not hold the
number.
-/

import Robocon.Lib.Run
import Robocon.Lib.Buffer
import Robocon.Vision.Scan

namespace Robocon.Vision

open Lib

/-! ### The collector -/

/-- The byte before a packet. -/
def startMark : UInt8 := 0x62

/-- The byte after a packet. -/
def endMark : UInt8 := 0x65

/-- The size of `b`. -/
def bufferSize : ℕ := 200

/-- `b`, and the static variables of `cvhandle`. -/
structure Collector where
  b : Vector UInt8 bufferSize
  count : ℕ
  state : ℕ

/-- At the start. -/
def Collector.initial : Collector := ⟨Vector.replicate bufferSize 0, 0, 0⟩

/-- The string in a buffer: what is before the first zero. -/
def cString (bytes : List UInt8) : List UInt8 := bytes.takeWhile (· ≠ 0)

theorem cString_append (bytes rest : List UInt8) :
    cString (bytes ++ 0 :: rest) = cString bytes := by
  induction bytes with
  | nil => rfl
  | cons first bytes ih =>
    simp only [cString, List.cons_append, List.takeWhile_cons] at ih ⊢
    rw [ih]

/-- The string that is terminated after some bytes. -/
theorem cString_set {b : Vector UInt8 bufferSize} {count : ℕ} (inside : count < bufferSize) :
    cString (b.set count 0 inside).toList = cString (filled b count) := by
  have long : count < b.toList.length := by simpa using inside
  rw [Vector.toList_set, List.set_eq_take_append_cons_drop, if_pos long]
  exact cString_append _ _

/-- The end of a packet: `cvparse_data` terminates the string and reads it. -/
def Collector.finish (c : Collector) : Option (Collector × List (List UInt8)) :=
  (store c.b c.count 0).map fun b =>
    ({ c with b := b, count := 0 }, [cString b.toList])

/-- `cvhandle`. -/
def Collector.handle (c : Collector) (dat : UInt8) : Option (Collector × List (List UInt8)) :=
  if dat = startMark then some ({ c with state := 1 }, [])
  else
    let c := if dat = endMark then { c with state := 2 } else c
    if c.state = 1 then
      (store c.b c.count dat).map fun b => ({ c with b := b, count := c.count + 1 }, [])
    else if c.state = 2 then c.finish
    else some (c, [])

structure CvDat where
  color : ℤ
  id : ℤ
  posX : Float32
  posY : Float32
  deriving DecidableEq

/-- `aball` and `ball`. -/
structure Balls where
  aball : CvDat
  ball : Vector CvDat 10

/-- The numbers that `sscanf` converts before the text is not as the format has it. -/
inductive Conversions
  | empty
  | color (color : ℤ)
  | id (color id : ℤ)
  | posX (color id : ℤ) (posX : Float32)
  | posY (dat : CvDat)
  deriving DecidableEq

/-- The number of the conversions. -/
def Conversions.count : Conversions → ℕ
  | empty => 0
  | color _ => 1
  | id _ _ => 2
  | posX _ _ _ => 3
  | posY _ => 4

/-- `sscanf` stores each number when it has converted it. -/
def Conversions.store : Conversions → CvDat → CvDat
  | empty, dat => dat
  | color c, dat => { dat with color := c }
  | id c i, dat => { dat with color := c, id := i }
  | posX c i x, dat => { dat with color := c, id := i, posX := x }
  | posY dat, _ => dat

/-- The numbers in a text as `"%d,%d,%f,%f."` has them. The point behind them changes nothing. -/
def conversions (text : List UInt8) : Conversions :=
  match scanInt text with
  | none => .empty
  | some (color, text) =>
    match (after 0x2C text).bind scanInt with
    | none => .color color
    | some (id, text) =>
      match (after 0x2C text).bind scanFloat with
      | none => .id color id
      | some (posX, text) =>
        match (after 0x2C text).bind scanFloat with
        | none => .posX color id posX
        | some (posY, _) => .posY ⟨color, id, posX, posY⟩

/-- An `int` holds the number. -/
def FitsInt (n : ℤ) : Prop := -2 ^ 31 ≤ n ∧ n < 2 ^ 31

instance (n : ℤ) : Decidable (FitsInt n) := inferInstanceAs (Decidable (_ ∧ _))

/-- The integers among the numbers are held by an `int`. -/
def Conversions.Fit : Conversions → Prop
  | empty => True
  | color c => FitsInt c
  | id c i => FitsInt c ∧ FitsInt i
  | posX c i _ => FitsInt c ∧ FitsInt i
  | posY dat => FitsInt dat.color ∧ FitsInt dat.id

instance : DecidablePred Conversions.Fit
  | .empty => inferInstanceAs (Decidable True)
  | .color c => inferInstanceAs (Decidable (FitsInt c))
  | .id c i => inferInstanceAs (Decidable (FitsInt c ∧ FitsInt i))
  | .posX c i _ => inferInstanceAs (Decidable (FitsInt c ∧ FitsInt i))
  | .posY dat => inferInstanceAs (Decidable (FitsInt dat.color ∧ FitsInt dat.id))

/-- `sscanf` with `"%d,%d,%f,%f."` into `aball`: the number of the conversions, `EOF` at the end of
the text. -/
def sscanf (text : List UInt8) (dat : CvDat) : Option (ℤ × CvDat) :=
  let read := conversions text
  if read.Fit then some (if text.all isSpace then -1 else read.count, read.store dat) else none

/-- `memcpy(&ball[aball.id], &aball, sizeof(aball))`. -/
def Balls.copy (balls : Balls) : Option Balls :=
  if 0 ≤ balls.aball.id then
    (store balls.ball balls.aball.id.toNat balls.aball).map fun ball => { balls with ball := ball }
  else none

/-- `cvparse_data` from the string on. -/
def Balls.parse (balls : Balls) (text : List UInt8) : Option Balls :=
  (sscanf text balls.aball).bind fun scanned =>
    let balls := { balls with aball := scanned.2 }
    if scanned.1 ≠ 4 then some balls else balls.copy

def cvparseData (b : Vector UInt8 bufferSize) (balls : Balls) (count : ℕ) :
    Option (Vector UInt8 bufferSize × Balls) :=
  (store b count 0).bind fun b => (balls.parse (cString b.toList)).map fun balls => (b, balls)

/-- The whole driver: the texts that the collector finds, one after the other. -/
def visual : Machine (Collector × Balls) UInt8 (List (List UInt8)) where
  step state dat := (state.1.handle dat).bind fun next =>
    (next.2.foldlM Balls.parse state.2).map fun balls => ((next.1, balls), [next.2])

end Robocon.Vision

